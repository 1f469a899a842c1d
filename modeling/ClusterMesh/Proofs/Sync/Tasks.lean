import ClusterMesh.Proofs.Sync.Settling
import ClusterMesh.Sync.Runner
import Mathlib.Logic.Relation

/-!
# Tasks that carry rounds

A task of a runner that makes a single round carries the round that it has begun, with the local groups
and the synchronizers of that moment, to its end: whatever the other tasks do, and whatever is done to
the runner from outside while calls take their time.
-/

namespace ClusterMesh

/-! ### The rounds that wait -/

theorem Surroundings.remaining_of_proceedWithin {σ : Type} {w : Surroundings σ} {fuel : Nat}
    {round waiting : Round} {s s' : σ} (h : w.proceedWithin fuel round s = (s', .inl waiting)) :
    waiting.remaining ≠ [] := by
  induction fuel generalizing round s with
  | zero => cases h
  | succ fuel ih =>
    rw [proceedWithin] at h
    generalize (if round.next = .pull then _ else round) = turn at h
    cases hremaining : turn.remaining with
    | nil =>
      rw [hremaining] at h
      cases h
    | cons p pairs =>
      obtain ⟨group, synchronizer⟩ := p
      simp only [hremaining] at h
      cases houtcome : w.call turn.next group synchronizer s with
      | mk s₁ outcome =>
        rw [houtcome] at h
        cases outcome with
        | some succeeded => exact ih h
        | none =>
          obtain rfl : turn = waiting := Sum.inl.inj (Prod.mk.inj h).2
          simp [hremaining]

namespace SyncRunner

open Surroundings

variable {r r' begun : SyncRunner} {t u : Nat} {a b : SyncActivity} {report : SyncReport}

/-! ### What a turn leaves alone -/

theorem tasks_proceedWithin (fuel : Nat) (round : Round) (r : SyncRunner) :
    (surroundings.proceedWithin fuel round r).1.tasks = r.tasks := by
  induction fuel generalizing round r with
  | zero => rfl
  | succ fuel ih =>
    rw [Surroundings.proceedWithin]
    generalize (if round.next = .pull then _ else round) = turn
    cases turn.remaining with
    | nil => rfl
    | cons p pairs =>
      obtain ⟨group, s⟩ := p
      by_cases hduration : turn.next.duration s = 0
      · simp only [surroundings, if_pos hduration] at ih ⊢
        rw [ih]
      · simp only [surroundings, if_neg hduration]

/-- What going on with a round comes to: it waits, with what is left of it, or it has ended. -/
theorem proceedRound_cases (r : SyncRunner) (round : Round) :
    (∃ r' v, r.proceedRound round = (r', .inl v) ∧ r'.tasks = r.tasks ∧ v.round.remaining ≠ [] ∧
      ∀ succeeded s report s', surroundings.Carries (v.round.afterCall succeeded) s report s' →
        surroundings.Carries round r report s') ∨
    ∃ r' report, r.proceedRound round = (r', .inr report) ∧ r'.tasks = r.tasks ∧
      surroundings.Carries round r report r' := by
  have htasks := tasks_proceedWithin (2 * round.remaining.length + 1) round r
  unfold proceedRound
  cases hproceed : surroundings.proceed round r with
  | mk r' outcome =>
    have hsame : r'.tasks = r.tasks := by
      rw [← htasks]
      exact congrArg (fun o => o.1.tasks) hproceed.symm
    cases outcome with
    | inl waiting =>
      exact Or.inl ⟨r', _, rfl, hsame, remaining_of_proceedWithin hproceed,
        fun succeeded s report s' hrest => .resumes hproceed hrest⟩
    | inr report => exact Or.inr ⟨r', report, rfl, hsame, .ends hproceed⟩

theorem tasks_proceedRound (r : SyncRunner) (round : Round) :
    (r.proceedRound round).1.tasks = r.tasks := by
  rcases proceedRound_cases r round with ⟨r', v, heq, htasks, -⟩ | ⟨r', report, heq, htasks, -⟩
  · rw [heq, htasks]
  · rw [heq, htasks]

def activity? (r : SyncRunner) (t : Nat) : Option SyncActivity := (r.tasks[t]?).map SyncTask.activity

theorem activity?_congr (h : r'.tasks = r.tasks) (t : Nat) : r'.activity? t = r.activity? t := by
  rw [activity?, activity?, h]

theorem activity?_setActivity (r : SyncRunner) (t u : Nat) (a : SyncActivity) :
    (r.setActivity t a).activity? u =
      if t = u then (r.activity? u).map fun _ => a else r.activity? u := by
  rw [activity?, setActivity, List.getElem?_modify]
  split <;> simp [activity?, Function.comp_def]

theorem activity?_setActivity_self (t : Nat) (a : SyncActivity)
    (h : r.activity? t = some b) :
    (r.setActivity t a).activity? t = some a := by
  rw [activity?_setActivity, if_pos rfl, h, Option.map_some]

theorem activity?_setActivity_of_ne (r : SyncRunner) (a : SyncActivity) (hne : t ≠ u) :
    (r.setActivity t a).activity? u = r.activity? u := by
  rw [activity?_setActivity, if_neg hne]

theorem activity?_proceedRound (r : SyncRunner) (round : Round) (u : Nat) :
    (r.proceedRound round).1.activity? u = r.activity? u :=
  activity?_congr (tasks_proceedRound r round) u

theorem activity?_resume (r : SyncRunner) (v : Visit) (u : Nat) :
    (r.resume v).1.activity? u = r.activity? u := by
  rw [resume]
  split
  next => exact activity?_proceedRound r _ u
  next => rfl

theorem activity?_startRounds (hne : t ≠ u) (r : SyncRunner) (period tick fuel : Nat) :
    (r.startRounds t period tick fuel).activity? u = r.activity? u := by
  induction fuel generalizing r tick with
  | zero => rfl
  | succ fuel ih =>
    have hround := activity?_proceedRound r r.newRound u
    rw [startRounds]
    split
    next => exact activity?_setActivity_of_ne r _ hne
    next =>
      split
      next heq =>
        rw [heq] at hround
        exact (activity?_setActivity_of_ne _ _ hne).trans hround
      next heq =>
        rw [heq] at hround
        exact (ih _ _).trans hround

theorem activity?_settleSingle (hne : t ≠ u) (o : SyncRunner × (Visit ⊕ SyncReport)) :
    (settleSingle t o).activity? u = o.1.activity? u := by
  obtain ⟨r, v | report⟩ := o
  · exact activity?_setActivity_of_ne r _ hne
  · exact activity?_setActivity_of_ne r _ hne

theorem activity?_run (hne : t ≠ u) (r : SyncRunner) : (r.run t).activity? u = r.activity? u := by
  unfold run
  split
  next => rfl
  next activity _ =>
    split
    next => rfl
    next => exact activity?_setActivity_of_ne r _ hne
  next activity _ =>
    split
    next => rw [activity?_settleSingle hne, activity?_proceedRound]
    next =>
      split
      next => rfl
      next => rw [activity?_settleSingle hne, activity?_resume]
    next => exact activity?_startRounds hne r _ _ _
    next => exact activity?_startRounds hne r _ _ _
    next period tick v _ =>
      have hresume := activity?_resume r v u
      split
      next => rfl
      next =>
        split
        next heq =>
          rw [heq] at hresume
          exact (activity?_setActivity_of_ne _ _ hne).trans hresume
        next heq =>
          rw [heq] at hresume
          exact (activity?_startRounds hne _ _ _ _).trans hresume
    next => rfl
    next => rfl

/-! ### The round that a task has begun -/

/-- What a task is about that has begun its only round: it waits for a call of the round, the round has
ended, or it was aborted. -/
inductive Keeps (begun : SyncRunner) : SyncActivity → Prop
  | waiting {v : Visit} (hpair : v.round.remaining ≠ [])
      (h : ∀ succeeded s report s',
        surroundings.Carries (v.round.afterCall succeeded) s report s' →
          surroundings.Carries begun.newRound begun report s') : Keeps begun (.single (some v))
  | finished {report : SyncReport} (s' : SyncRunner)
      (h : surroundings.Carries begun.newRound begun report s') : Keeps begun (.finished report)
  | cancelled : Keeps begun .cancelled

/-- A task of a runner has begun its only round, in a state, and has kept to it since. -/
def HasKept (begun : SyncRunner) (t : Nat) (r : SyncRunner) : Prop :=
  ∃ a, r.activity? t = some a ∧ Keeps begun a

theorem hasKept_settleSingle {round : Round} (hat : r.activity? t = some b)
    (hon : ∀ report s', surroundings.Carries round r report s' →
      surroundings.Carries begun.newRound begun report s') :
    HasKept begun t (settleSingle t (r.proceedRound round)) := by
  rcases proceedRound_cases r round with
    ⟨r', v, heq, htasks, hpair, hrest⟩ | ⟨r', report, heq, htasks, hends⟩
  · rw [heq]
    have hset := activity?_setActivity_self t (.single (some v))
      ((activity?_congr htasks t).trans hat)
    exact ⟨_, hset, .waiting hpair fun ok s report s' h => hon report s' (hrest ok s report s' h)⟩
  · rw [heq]
    have hset := activity?_setActivity_self t (.finished report)
      ((activity?_congr htasks t).trans hat)
    exact ⟨_, hset, .finished r' (hon report r' hends)⟩

theorem hasKept_of_first (h : r.tasks[t]? = some ⟨.single none, false⟩) :
    HasKept r t (r.run t) := by
  have hrun : r.run t = settleSingle t (r.proceedRound r.newRound) := by rw [run, h]
  have hat : r.activity? t = some (.single none) := by rw [activity?, h, Option.map_some]
  rw [hrun]
  exact hasKept_settleSingle hat fun _ _ h => h

/-- Whichever task takes a turn, a task that has begun its round keeps to it. -/
theorem HasKept.run (h : HasKept begun t r) (u : Nat) : HasKept begun t (r.run u) := by
  obtain ⟨b, hat, hkeeps⟩ := h
  -- only its own turn can change what the task is about
  by_cases hne : u = t
  case neg => exact ⟨b, (activity?_run hne r).trans hat, hkeeps⟩
  subst hne
  obtain ⟨⟨_, aborted⟩, htask, rfl⟩ := Option.map_eq_some_iff.mp hat
  have hcancelled : HasKept begun u (r.setActivity u .cancelled) :=
    ⟨_, activity?_setActivity_self u .cancelled hat, .cancelled⟩
  have hsame : HasKept begun u r := ⟨_, hat, hkeeps⟩
  rw [SyncRunner.run, htask]
  cases hkeeps with
  | finished s' h => cases aborted <;> exact hsame
  | cancelled =>
    cases aborted with
    | true => exact hcancelled
    | false => exact hsame
  | @waiting v hpair hrest =>
    cases aborted with
    | true => exact hcancelled
    | false =>
      dsimp only
      split
      next => exact hsame
      next =>
        obtain ⟨⟨group, s⟩, pairs, hremaining⟩ := List.exists_cons_of_ne_nil hpair
        have hresume : r.resume v =
            r.proceedRound (v.round.afterCall (v.round.next.succeeds s group)) := by
          rw [resume, hremaining]
        rw [hresume]
        exact hasKept_settleSingle hat (hrest _ r)

/-- What may happen to a runner: a task takes a turn, or anything that leaves alone what the tasks are
about. -/
inductive Happens (r : SyncRunner) : SyncRunner → Prop
  | turn (t : Nat) : Happens r (r.run t)
  | aside {r' : SyncRunner} (h : ∀ t a, r.activity? t = some a → r'.activity? t = some a) :
      Happens r r'

theorem HasKept.of_happens (h : HasKept begun t r) (hstep : Happens r r') :
    HasKept begun t r' := by
  cases hstep with
  | turn u => exact h.run u
  | aside hsame =>
    obtain ⟨a, hat, hkeeps⟩ := h
    exact ⟨a, hsame t a hat, hkeeps⟩

theorem HasKept.exists_carries (h : HasKept begun t r) (hreport : r.report? t = some report) :
    ∃ s', surroundings.Carries begun.newRound begun report s' := by
  obtain ⟨a, hat, hkeeps⟩ := h
  obtain ⟨⟨_, aborted⟩, htask, rfl⟩ := Option.map_eq_some_iff.mp hat
  rw [report?, htask] at hreport
  cases hkeeps with
  | waiting => cases hreport
  | cancelled => cases hreport
  | finished s' h => exact Option.some.inj hreport ▸ ⟨s', h⟩

/-- The report of a task is that of a round with the groups and the synchronizers that there were when
it began, whatever has happened since. -/
theorem report_carries (hfirst : begun.tasks[t]? = some ⟨.single none, false⟩)
    (hruns : Relation.ReflTransGen Happens (begun.run t) r) (hreport : r.report? t = some report) :
    ∃ s', surroundings.Carries begun.newRound begun report s' := by
  have hkept : HasKept begun t r := by
    clear hreport
    induction hruns with
    | refl => exact hasKept_of_first hfirst
    | tail _ hstep ih => exact ih.of_happens hstep
  exact hkept.exists_carries hreport

/-- A runner with one more task, which is to make a single round. -/
def withSingle (r : SyncRunner) : SyncRunner := { r with tasks := r.tasks ++ [⟨.single none, false⟩] }

/-- A round that is waited for is carried from the groups and the synchronizers of the moment. -/
theorem synchronizeAll_carries {report : SyncReport} (r : SyncRunner)
    (hreport : r.synchronizeAll.1.report? r.tasks.length = some report) :
    r.synchronizeAll.2 = report ∧
      ∃ s', surroundings.Carries r.newRound r.withSingle report s' := by
  have hfirst : r.withSingle.tasks[r.tasks.length]? = some ⟨.single none, false⟩ := by
    simp [withSingle]
  have hkept : HasKept r.withSingle r.tasks.length r.synchronizeAll.1 := by
    have hbegun := hasKept_of_first hfirst
    rw [synchronizeAll]
    dsimp only
    split
    next => exact hbegun
    next =>
      refine Machine.await_preserves (fun r' u rest _ h => ?_) (fun _ _ h => h) _ hbegun
      have hsame : HasKept r.withSingle r.tasks.length (machine.withAgenda r' rest) := h
      exact hsame.run u
  refine ⟨?_, hkept.exists_carries hreport⟩
  rw [synchronizeAll] at hreport ⊢
  exact congrArg (fun o => o.getD default) hreport

end SyncRunner

end ClusterMesh
