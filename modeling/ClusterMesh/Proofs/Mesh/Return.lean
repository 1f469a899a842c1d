import ClusterMesh.Proofs.Execution.Collected
import ClusterMesh.Proofs.Mesh.Lifecycle

/-!
# When a call returns, and with what

A command is closed by a result that makes it full, by a command of its id that displaces it, or
when its time is over. Its call returns at that instant with what was collected up to then, and
the clock does not go past the time of the command before that.
-/

namespace ClusterMesh

/-- The result that comes in for a registered command, whether or not it is still open. -/
def Happening.answer? (r : Registration) : Happening → Option CommandResult
  | .correlates i result => if i = r.station ∧ result.id = r.command.id then some result else none
  | _ => none

namespace Mesh

def IsClosed (m : Mesh) (r : Registration) : Prop :=
  ∃ p, m.pending r = some p ∧ p.completed = true

/-- The call of a registration has not ended. -/
def IsUnderWay (m : Mesh) (r : Registration) : Prop :=
  ∃ task, m.tasks[r.caller]? = some task ∧ task.activity.IsEngaged

def collected (m : Mesh) (r : Registration) : Results := (m.pending r).elim ∅ Pending.results

variable {m m' : Mesh} {r : Registration} {p : Pending} {caller reaper : Task}
variable {L : List Registration}

theorem Tracks.isClosed_iff (h : Tracks m r p caller reaper) :
    m.IsClosed r ↔ p.completed = true := by
  constructor
  · intro hall
    obtain ⟨q, hq, hc⟩ := hall
    obtain rfl : p = q := Option.some.inj (h.pending.symm.trans hq)
    exact hc
  · exact fun hc => ⟨p, h.pending, hc⟩

theorem Tracks.open_iff (h : Tracks m r p caller reaper) :
    ¬m.IsClosed r ↔ p.completed = false := by
  rw [h.isClosed_iff, Bool.not_eq_true]

theorem Tracks.collected (h : Tracks m r p caller reaper) : m.collected r = p.results := by
  rw [Mesh.collected, h.pending]
  rfl

/-- A call that is under way after a step was so before it. -/
theorem Proceeds.underWay {e : Happening} (h : Proceeds m e r m') (hlive : m'.IsUnderWay r) :
    m.IsUnderWay r := by
  obtain ⟨p, p', caller, caller', reaper, reaper', hbefore, hafter, -, hgoes⟩ := h
  obtain ⟨task, htask, hengaged⟩ := hlive
  obtain rfl := Option.some.inj (hafter.caller_at.symm.trans htask)
  refine ⟨caller, hbefore.caller_at, ?_⟩
  cases hgoes with
  | stays activity _ => exact activity ▸ hengaged
  | waits before _ _ =>
    rw [before]
    trivial
  | returns before _ => exact before
  | givesUp before _ _ => exact before

theorem Step.collects {result : CommandResult} (hs : m.Step (.correlates r.station result) m')
    (hsound : (m.store r.station).Sound) (hp : m.pending r = some p) (hstored : m.Stores r)
    (hid : result.id = r.command.id) :
    ((p.collecting result).IsFull ∧ m'.pending r = some (p.collecting result).closed) ∨
      (¬(p.collecting result).IsFull ∧ m'.pending r = some (p.collecting result)) := by
  cases hs with
  | correlate result placed =>
    have hstore := store_correlate placed result r.station
    rw [if_pos rfl] at hstore
    have hget : (m.store r.station).get? result.id = some r.ticket := by
      rw [hid]
      exact hstored
    obtain ⟨hnone, -⟩ | ⟨k, q, hk, hq, -, -, hmoved⟩ := PendingStore.correlate_cases hsound result
    · rw [hnone] at hget
      cases hget
    · obtain rfl : k = r.ticket := Option.some.inj (hk.symm.trans hget)
      obtain rfl : p = q := Option.some.inj (hp.symm.trans hq)
      rw [pending, hstore]
      rcases hmoved with ⟨hfull, halters, -⟩ | ⟨hnot, halters, -⟩
      · exact Or.inl ⟨hfull, by rw [halters.command, if_pos rfl]⟩
      · exact Or.inr ⟨hnot, by rw [halters.command, if_pos rfl]⟩

end Mesh

namespace History

open Mesh

variable (h : History) {q n k : Nat} {r : Registration}

def answers (r : Registration) (q n : Nat) : List CommandResult :=
  (List.range' q (n - q)).filterMap (fun k => (h.event k).answer? r)

theorem answers_succ (hq : q ≤ n) (r : Registration) :
    h.answers r q (n + 1) = h.answers r q n ++ ((h.event n).answer? r).toList := by
  have hlength : n + 1 - q = (n - q) + 1 := by omega
  have hlast : q + (n - q) = n := by omega
  rw [answers, hlength, List.range'_concat, List.filterMap_append, Nat.one_mul, hlast, answers]
  congr 1

/-- A result comes in after which as many nodes have answered as the destination has. -/
def FillsAt (r : Registration) (q k : Nat) : Prop :=
  ((h.event k).answer? r).isSome ∧ ∃ expected, r.command.expected = some expected ∧
    expected ≤ ((∅ : Results).addAll (h.answers r q (k + 1))).size

/-- Another command of the same id is registered at the same station. -/
def DisplacesAt (r : Registration) (k : Nat) : Prop :=
  ∃ r', h.event k = .registers r' ∧ r'.station = r.station ∧ r'.command.id = r.command.id

def ClosesAt (r : Registration) (k : Nat) : Prop :=
  ¬(h.state k).IsClosed r ∧ (h.state (k + 1)).IsClosed r

/-- A call that registers its command in a step and publishes it at that instant. -/
structure Publishes (r : Registration) (q : Nat) : Prop where
  registers : h.event q = .registers r
  atOnce : ∀ {n task}, (h.state n).tasks[r.caller]? = some task →
    task.activity = .executing r.command (.sending r.ticket r.timeout r.reaper) →
      (h.state n).now = r.instant
  succeeds : ∀ n, ¬(h.state n).CallFailed r

/-- The call of a registration was cancelled before a step. -/
def CancelledBefore (r : Registration) (n : Nat) : Prop :=
  ∃ k < n, h.event k = .cancels r.caller

variable {h}

/-! ### Every state after the registration -/

theorem tracked_after (he : h.event q = .registers r) (hq : q < n) :
    ∃ p caller reaper, Tracks (h.state n) r p caller reaper :=
  (h.ledger n).tracked (h.mem_registered.mpr ⟨q, hq, he⟩)

theorem proceeds_after (he : h.event q = .registers r) (hq : q < n) :
    Proceeds (h.state n) (h.event n) r (h.state (n + 1)) :=
  (h.upkeep n).proceeds (h.mem_registered.mpr ⟨q, hq, he⟩)

theorem closed_succ (he : h.event q = .registers r) (hq : q < n)
    (hc : (h.state n).IsClosed r) :
    (h.state (n + 1)).IsClosed r ∧ (h.state (n + 1)).collected r = (h.state n).collected r := by
  obtain ⟨p, p', caller, caller', reaper, reaper', hbefore, hafter, hevolves, -⟩ :=
    proceeds_after he hq
  have hcompleted := hbefore.isClosed_iff.mp hc
  rw [hafter.isClosed_iff, hafter.collected, hbefore.collected]
  cases hevolves with
  | kept results completed => exact ⟨completed.trans hcompleted, results⟩
  | collects opened _ _ _ =>
    rw [hcompleted] at opened
    cases opened
  | fills opened _ _ _ =>
    rw [hcompleted] at opened
    cases opened
  | displaced opened _ _ _ =>
    rw [hcompleted] at opened
    cases opened
  | expires opened _ _ _ =>
    rw [hcompleted] at opened
    cases opened

theorem closed_mono (he : h.event q = .registers r) (hq : q < n) (hn : n ≤ k)
    (hc : (h.state n).IsClosed r) :
    (h.state k).IsClosed r ∧ (h.state k).collected r = (h.state n).collected r := by
  induction hn with
  | refl => exact ⟨hc, rfl⟩
  | @step k hk ih =>
    have hnext := closed_succ he (Nat.lt_of_lt_of_le hq hk) ih.1
    exact ⟨hnext.1, hnext.2.trans ih.2⟩

/-- A call that waits does so up to the time of its command, and one that was not cancelled is
neither aborted nor gives up. -/
structure InTime (h : History) (r : Registration) (n : Nat) (task : Task) : Prop where
  due : ∀ {due}, task.activity = .executing r.command (.waiting r.ticket due r.reaper) →
    due = r.instant + r.timeout
  aborted : task.activity.IsEngaged → task.aborted = true → h.CancelledBefore r n
  cancelled : task.activity = .ended .cancelled → h.CancelledBefore r n

theorem CancelledBefore.mono (hc : h.CancelledBefore r n) (hn : n ≤ k) :
    h.CancelledBefore r k := by
  obtain ⟨l, hl, he⟩ := hc
  exact ⟨l, Nat.lt_of_lt_of_le hl hn, he⟩

theorem InTime.goes {task task' : Task} (hi : h.InTime r n task)
    (hg : Goes (h.state n) (h.event n) r task task')
    (hnow : task.activity = .executing r.command (.sending r.ticket r.timeout r.reaper) →
      (h.state n).now = r.instant) : h.InTime r (n + 1) task' := by
  have hlater : h.CancelledBefore r n → h.CancelledBefore r (n + 1) :=
    fun hc => hc.mono (Nat.le_succ n)
  cases hg with
  | stays activity aborted =>
    refine ⟨fun ha => hi.due (activity.symm.trans ha), ?_, ?_⟩
    · intro hengaged haborted
      rcases aborted with hsame | hcancels
      · exact hlater (hi.aborted (activity ▸ hengaged) (hsame ▸ haborted))
      · exact ⟨n, Nat.lt_succ_self n, hcancels⟩
    · exact fun ha => hlater (hi.cancelled (activity.symm.trans ha))
  | waits before after aborted =>
    refine ⟨?_, ?_, ?_⟩
    · intro due ha
      rw [after] at ha
      cases ha
      rw [hnow before]
    · intro _ haborted
      refine hlater (hi.aborted ?_ (aborted.symm.trans haborted))
      rw [before]
      trivial
    · intro ha
      rw [after] at ha
      cases ha
  | returns before after =>
    refine ⟨?_, ?_, ?_⟩
    · intro due ha
      rw [after] at ha
      cases ha
    · intro hengaged
      rw [after] at hengaged
      exact hengaged.elim
    · intro ha
      rw [after] at ha
      cases ha
  | givesUp before aborted after =>
    refine ⟨?_, ?_, ?_⟩
    · intro due ha
      rw [after] at ha
      cases ha
    · intro hengaged
      rw [after] at hengaged
      exact hengaged.elim
    · exact fun _ => hlater (hi.aborted before aborted)

theorem inTime (hp : h.Publishes r q) (hq : q < n) {task : Task}
    (htask : (h.state n).tasks[r.caller]? = some task) : h.InTime r n task := by
  induction hq generalizing task with
  | refl =>
    have hcaller := ((h.upkeep q).enrolled hp.registers).2.caller_at
    obtain rfl := Option.some.inj (hcaller.symm.trans htask)
    refine ⟨?_, ?_, ?_⟩
    · intro due ha
      cases ha
    · intro _ haborted
      cases haborted
    · intro ha
      cases ha
  | @step n hn ih =>
    -- the time of the alarm is set where the call departs, and `atOnce` says when that is
    obtain ⟨p, p', caller, caller', reaper, reaper', hbefore, hafter, -, hgoes⟩ :=
      proceeds_after hp.registers hn
    obtain rfl := Option.some.inj (hafter.caller_at.symm.trans htask)
    exact (ih hbefore.caller_at).goes hgoes (hp.atOnce hbefore.caller_at)

/-! ### What is collected -/

theorem answer?_eq_some {e : Happening} {result : CommandResult} :
    e.answer? r = some result ↔
      e = .correlates r.station result ∧ result.id = r.command.id := by
  cases e with
  | correlates i other =>
    simp only [Happening.answer?, Option.ite_none_right_eq_some, Option.some.injEq,
      Happening.correlates.injEq]
    constructor
    · intro hall
      obtain ⟨⟨hi, hid⟩, rfl⟩ := hall
      exact ⟨⟨hi, rfl⟩, hid⟩
    · intro hall
      obtain ⟨⟨hi, rfl⟩, hid⟩ := hall
      exact ⟨⟨hi, hid⟩, rfl⟩
  | _ => simp [Happening.answer?]

theorem open_spec (hp : h.Publishes r q) (hq : q < n) (ho : ¬(h.state n).IsClosed r) :
    (h.state n).Stores r ∧ (h.state n).now ≤ r.instant + r.timeout := by
  obtain ⟨p, caller, reaper, ht⟩ := tracked_after hp.registers hq
  obtain ⟨hstored, due, -, harmed⟩ := ht.isArmed (ht.open_iff.mp ho) (hp.succeeds n)
  refine ⟨hstored, ?_⟩
  rcases harmed with ⟨-, -, hnow⟩ | ⟨-, ⟨-, hlt⟩ | ⟨-, hnow⟩⟩ <;> omega

theorem collected_succ (hp : h.Publishes r q) (hq : q < n) (ho : ¬(h.state n).IsClosed r) :
    (h.state (n + 1)).collected r =
      ((h.state n).collected r).addAll ((h.event n).answer? r).toList := by
  obtain ⟨p, p', caller, caller', reaper, reaper', hbefore, hafter, hevolves, -⟩ :=
    proceeds_after hp.registers hq
  rw [hafter.collected, hbefore.collected]
  cases hanswer : (h.event n).answer? r with
  | some result =>
    obtain ⟨he, hid⟩ := answer?_eq_some.mp hanswer
    have hstep := h.step n
    rw [he] at hstep
    obtain ⟨-, hnext⟩ | ⟨-, hnext⟩ := hstep.collects ((h.ledger n).sound _) hbefore.pending
      (open_spec hp hq ho).1 hid
    · obtain rfl := Option.some.inj (hnext.symm.trans hafter.pending)
      rfl
    · obtain rfl := Option.some.inj (hnext.symm.trans hafter.pending)
      rfl
  | none =>
    cases hevolves with
    | kept results _ => exact results
    | collects _ event id _ =>
      rw [answer?_eq_some.mpr ⟨event, id⟩] at hanswer
      cases hanswer
    | fills _ event id _ =>
      rw [answer?_eq_some.mpr ⟨event, id⟩] at hanswer
      cases hanswer
    -- no result came in for it, so that the step can only close it
    | displaced _ _ _ _ => rfl
    | expires _ results _ _ => exact results

theorem open_of_le (he : h.event q = .registers r) (hq : q < n) (hn : n ≤ k)
    (ho : ¬(h.state k).IsClosed r) : ¬(h.state n).IsClosed r :=
  fun hc => ho (closed_mono he hq hn hc).1

theorem open_at_registration (he : h.event q = .registers r) :
    ¬(h.state (q + 1)).IsClosed r ∧ (h.state (q + 1)).collected r = ∅ := by
  have ht := ((h.upkeep q).enrolled he).2
  exact ⟨ht.open_iff.mpr rfl, ht.collected⟩

theorem collected_eq (hp : h.Publishes r q) (hq : q < n) (ho : ¬(h.state n).IsClosed r) :
    (h.state n).collected r = (∅ : Results).addAll (h.answers r q n) := by
  induction hq with
  | refl =>
    have hnone : (h.event q).answer? r = none := by
      rw [hp.registers]
      rfl
    have hself : h.answers r q q = [] := by simp [answers]
    rw [(open_at_registration hp.registers).2, h.answers_succ (Nat.le_refl q), hnone, hself]
    rfl
  | @step n hn ih =>
    have hbefore := open_of_le hp.registers hn (Nat.le_succ n) ho
    have hqn : q ≤ n := Nat.le_of_lt hn
    rw [collected_succ hp hn hbefore, ih hbefore, h.answers_succ hqn, Results.addAll_append]

theorem collected_at_close (hp : h.Publishes r q) (hq : q < k) (hc : h.ClosesAt r k) :
    (h.state (k + 1)).collected r = (∅ : Results).addAll (h.answers r q (k + 1)) := by
  rw [collected_succ hp hq hc.1, collected_eq hp hq hc.1, h.answers_succ (Nat.le_of_lt hq),
    Results.addAll_append]

/-! ### What closes a command -/

theorem cause_of_close (hp : h.Publishes r q) (hq : q < k) (hc : h.ClosesAt r k) :
    h.FillsAt r q k ∨ h.DisplacesAt r k ∨ (h.state k).now = r.instant + r.timeout := by
  obtain ⟨p, p', caller, caller', reaper, reaper', hbefore, hafter, hevolves, -⟩ :=
    proceeds_after hp.registers hq
  have ho := hbefore.open_iff.mp hc.1
  have hclosed := hafter.isClosed_iff.mp hc.2
  cases hevolves with
  | kept _ completed =>
    rw [completed, ho] at hclosed
    cases hclosed
  | collects _ _ _ _ =>
    have hstill : p.completed = true := hclosed
    rw [ho] at hstill
    cases hstill
  | fills _ event id full =>
    obtain ⟨expected, hexpected, hle⟩ := full
    refine Or.inl ⟨by rw [answer?_eq_some.mpr ⟨event, id⟩]; rfl, expected, ?_, ?_⟩
    · rw [← hbefore.command]
      exact hexpected
    · rw [← collected_at_close hp hq hc, hafter.collected]
      exact hle
  | displaced _ event station id => exact Or.inr (Or.inl ⟨_, event, station, id⟩)
  | expires _ _ _ elapsed =>
    refine Or.inr (Or.inr ?_)
    cases elapsed with
    | reaper now => exact now
    -- reaper and call wait for the same instant, whichever of them runs first
    | waiting task => exact (inTime hp hq task).due rfl
    | sending task timeout =>
      have hnow := hp.atOnce task rfl
      omega

theorem closed_of_fills (hp : h.Publishes r q) (hq : q < k) (ho : ¬(h.state k).IsClosed r)
    (hf : h.FillsAt r q k) : (h.state (k + 1)).IsClosed r := by
  obtain ⟨hsome, expected, hexpected, hle⟩ := hf
  obtain ⟨result, hanswer⟩ := Option.isSome_iff_exists.mp hsome
  obtain ⟨he, hid⟩ := answer?_eq_some.mp hanswer
  obtain ⟨p, caller, reaper, ht⟩ := tracked_after hp.registers hq
  have hstep := h.step k
  rw [he] at hstep
  obtain ⟨-, hnext⟩ | ⟨hnot, -⟩ := hstep.collects ((h.ledger k).sound _) ht.pending
    (open_spec hp hq ho).1 hid
  · exact ⟨_, hnext, rfl⟩
  · refine absurd ⟨expected, ?_, ?_⟩ hnot
    · rw [← hexpected, ← ht.command]
      rfl
    · rw [h.answers_succ (Nat.le_of_lt hq), Results.addAll_append, ← collected_eq hp hq ho,
        ht.collected, hanswer] at hle
      exact hle

theorem closed_of_displaces (hp : h.Publishes r q) (hq : q < k) (hd : h.DisplacesAt r k) :
    (h.state (k + 1)).IsClosed r := by
  obtain ⟨r', he, hi, hid⟩ := hd
  by_contra ho
  -- two open commands would both be stored under the one id
  have hstored := (open_spec hp (Nat.lt_succ_of_lt hq) ho).1
  have ht := ((h.upkeep k).enrolled he).2
  have hlive : ¬Task.HasFailed
      ⟨r'.station, .executing r'.command (.sending r'.ticket r'.timeout r'.reaper), false⟩ :=
    Activity.IsEngaged.not_hasFailed trivial
  have hstored' := (ht.guarded rfl hlive).1
  have hlt := h.ticket_lt hq hp.registers he hi.symm
  rw [Stores] at hstored hstored'
  rw [hi, hid, hstored] at hstored'
  exact absurd (Option.some.inj hstored') (Nat.ne_of_lt hlt)

theorem exists_close (hn : n ≤ k) (ho : ¬(h.state n).IsClosed r) (hc : (h.state k).IsClosed r) :
    ∃ l, n ≤ l ∧ l < k ∧ h.ClosesAt r l := by
  induction hn with
  | refl => exact absurd hc ho
  | @step k hk ih =>
    by_cases hbefore : (h.state k).IsClosed r
    · obtain ⟨l, hnl, hlk, hcloses⟩ := ih hbefore
      exact ⟨l, hnl, Nat.lt_succ_of_lt hlk, hcloses⟩
    · exact ⟨k, hk, Nat.lt_succ_self k, hbefore, hc⟩

/-! ### When the call goes on -/

/-- A call that has not ended stands within the time of its command. Once it waits, its command is
open and its alarm is still to ring when nothing can run. -/
theorem underWay_spec (hp : h.Publishes r q) (hq : q < n) (hl : (h.state n).IsUnderWay r) :
    (h.state n).now ≤ r.instant + r.timeout ∧
      (r.instant < (h.state n).now → (∀ t, ¬(h.state n).IsReady t) →
        ¬(h.state n).IsClosed r ∧ (h.state n).now < r.instant + r.timeout ∧
          (h.state n).HasAlarm (r.instant + r.timeout) r.caller) := by
  obtain ⟨p, caller, reaper, ht⟩ := tracked_after hp.registers hq
  obtain ⟨task, htask, hengaged⟩ := hl
  obtain rfl := Option.some.inj (ht.caller_at.symm.trans htask)
  have hstands := ht.caller_stands
  have htime := inTime hp hq htask
  cases hstands with
  | sending way =>
    have hnow := hp.atOnce htask rfl
    refine ⟨by omega, fun hlater => ?_⟩
    omega
  | @waiting due aborted way woken timed =>
    obtain rfl := htime.due rfl
    refine ⟨?_, ?_⟩
    · rcases timed with ⟨-, hlt⟩ | ⟨-, hnow⟩ <;> omega
    · intro _ hidle
      refine ⟨?_, ?_⟩
      · rw [ht.isClosed_iff]
        exact fun hc => hidle _ (woken hc)
      · rcases timed with ⟨halarm, hlt⟩ | ⟨hready, -⟩
        · exact ⟨hlt, halarm⟩
        · exact absurd hready (hidle _)
  | _ => exact hengaged.elim

theorem clock_stands (hp : h.Publishes r q) (hq : q < k) (hc : h.ClosesAt r k) (hn : k ≤ n)
    (hl : (h.state n).IsUnderWay r) : (h.state n).now = (h.state k).now := by
  induction hn with
  | refl => rfl
  | @step n hn ih =>
    have hqn : q < n := Nat.lt_of_lt_of_le hq hn
    have hbefore := (proceeds_after hp.registers hqn).underWay hl
    refine Eq.trans ?_ (ih hbefore)
    -- time passes only when nothing can run, and the call of a closed command can run
    rcases (h.upkeep n).clock with hsame | ⟨hidle, -, htasks, hstores⟩
    · exact hsame
    · rcases Nat.eq_or_lt_of_le hn with rfl | hlt
      · have hstill : (h.state k).IsClosed r := by
          obtain ⟨p, hpending, hcompleted⟩ := hc.2
          rw [pending, hstores] at hpending
          exact ⟨p, hpending, hcompleted⟩
        exact absurd hstill hc.1
      · have hclosed := (closed_mono hp.registers (Nat.lt_succ_of_lt hq) hlt hc.2).1
        obtain ⟨p, caller, reaper, ht⟩ := tracked_after hp.registers hqn
        obtain ⟨task, htask, hengaged⟩ := hbefore
        obtain rfl := Option.some.inj (ht.caller_at.symm.trans htask)
        cases ht.caller_stands with
        | sending way =>
          have hnow := hp.atOnce htask rfl
          rw [← htasks] at htask
          rw [hnow, hp.atOnce htask rfl]
        | waiting way woken timed =>
          exact absurd (woken (ht.isClosed_iff.mp hclosed)) (hidle _)
        | _ => exact hengaged.elim

theorem cause_of_return (hp : h.Publishes r q) (hq : q < n) {task : Task} {instant : Nat}
    {outcome : Except MeshError Outcome} (htask : (h.state n).tasks[r.caller]? = some task)
    (hended : task.activity = .ended (.returned instant outcome)) :
    ∃ k, q < k ∧ k < n ∧ h.ClosesAt r k ∧ instant = (h.state k).now ∧
      outcome = .ok ⟨r.command.id, r.command.expected,
        (∅ : Results).addAll (h.answers r q (k + 1))⟩ := by
  induction hq generalizing task with
  | refl =>
    have hcaller := ((h.upkeep q).enrolled hp.registers).2.caller_at
    obtain rfl := Option.some.inj (hcaller.symm.trans htask)
    cases hended
  | @step n hn ih =>
    have hqn : q < n := hn
    obtain ⟨p, p', caller, caller', reaper, reaper', hbefore, hafter, -, hgoes⟩ :=
      proceeds_after hp.registers hqn
    obtain rfl := Option.some.inj (hafter.caller_at.symm.trans htask)
    cases hgoes with
    | stays activity _ =>
      obtain ⟨k, hqk, hkn, hspec⟩ := ih hbefore.caller_at (activity.symm.trans hended)
      exact ⟨k, hqk, Nat.lt_succ_of_lt hkn, hspec⟩
    | waits _ after _ =>
      rw [after] at hended
      cases hended
    | returns before after =>
      rw [after] at hended
      cases hended
      cases hafter.caller_stands with
      | returned completed =>
        cases after
        -- it was closed at a step since its registration, and the clock has stood since then
        have hclosed : (h.state (n + 1)).IsClosed r := ⟨p', hafter.pending, completed⟩
        obtain ⟨k, hqk, hkn, hcloses⟩ := exists_close (Nat.succ_le_succ (Nat.le_of_lt hqn))
          (open_at_registration hp.registers).1 hclosed
        have hresults := (closed_mono hp.registers (Nat.lt_succ_of_lt hqk) hkn hcloses.2).2
        rw [hafter.collected, collected_at_close hp hqk hcloses] at hresults
        refine ⟨k, hqk, hkn, hcloses, ?_, by rw [hresults]⟩
        exact clock_stands hp hqk hcloses (Nat.le_of_lt_succ hkn)
          ⟨caller, hbefore.caller_at, before⟩
      | failed gone =>
        cases after
        exact absurd ⟨_, htask, _, _, rfl⟩ (hp.succeeds (n + 1))
      | _ => cases after
    | givesUp _ _ after =>
      rw [after] at hended
      cases hended

theorem ended_of_not_underWay (hp : h.Publishes r q) (hq : q < n)
    (hl : ¬(h.state n).IsUnderWay r) : (h.state n).HasReturned r ∨ h.CancelledBefore r n := by
  obtain ⟨p, caller, reaper, ht⟩ := tracked_after hp.registers hq
  have hstands := ht.caller_stands
  have htime := inTime hp hq ht.caller_at
  have hnot : ¬caller.activity.IsEngaged := fun hengaged => hl ⟨caller, ht.caller_at, hengaged⟩
  cases hstands with
  | sending _ => exact absurd trivial hnot
  | waiting _ _ _ => exact absurd trivial hnot
  | returned _ => exact Or.inl ⟨_, _, _, ht.caller_at, rfl⟩
  | failed _ => exact Or.inl ⟨_, _, _, ht.caller_at, rfl⟩
  | cancelled => exact Or.inr (htime.cancelled rfl)

/-! ### The whole -/

/-- When the call of a command returns, and with what. -/
structure Returns (h : History) (r : Registration) (q : Nat) : Prop where
  /-- The time of a command is its own, or else the configured one, from its registration on. -/
  time : r.instant = (h.state q).now ∧ r.timeout = (r.command.timeout.getD
    ((h.state q).station r.station).context.settings.defaultTimeoutMs).toNat
  /-- An open command is closed by the result that fills it and by the one that displaces it. -/
  early : ∀ {k}, q < k → ¬(h.state k).IsClosed r → h.FillsAt r q k ∨ h.DisplacesAt r k →
    h.ClosesAt r k
  /-- Otherwise it is closed when its time is over, and not later. From then on it has what came
  in up to then, whoever closed it. -/
  closes : ∀ {k}, q < k → h.ClosesAt r k →
    (h.FillsAt r q k ∨ h.DisplacesAt r k ∨ (h.state k).now = r.instant + r.timeout) ∧
      (h.state k).now ≤ r.instant + r.timeout ∧
      ∀ {n}, k < n → (h.state n).IsClosed r ∧
        (h.state n).collected r = (∅ : Results).addAll (h.answers r q (k + 1))
  once : ∀ {k l}, q < k → q < l → h.ClosesAt r k → h.ClosesAt r l → k = l
  /-- A broadcast is closed early only by being displaced. -/
  broadcast : r.command.destination = none → ∀ {k}, q < k → h.ClosesAt r k →
    h.DisplacesAt r k ∨ (h.state k).now = r.instant + r.timeout
  /-- The call returns at the instant at which its command was closed, with what had come in and
  the number of nodes that had to answer. -/
  returned : ∀ {n task instant outcome}, q < n → (h.state n).tasks[r.caller]? = some task →
    task.activity = .ended (.returned instant outcome) →
      ∃ k, q < k ∧ k < n ∧ h.ClosesAt r k ∧ instant = (h.state k).now ∧
        outcome = .ok ⟨r.command.id, r.command.destination.map (fun d => d.keys.toFinset.card),
          (∅ : Results).addAll (h.answers r q (k + 1))⟩
  /-- The clock goes past the end of a command only after its call has returned, unless the call
  was cancelled. -/
  inTime : ∀ {n}, q < n → (r.instant + r.timeout < (h.state n).now ∨
      ∃ k, q < k ∧ k ≤ n ∧ h.ClosesAt r k ∧ (h.state k).now < (h.state n).now) →
    (h.state n).HasReturned r ∨ h.CancelledBefore r n
  /-- A call that waits while nothing can run is woken at the time of its command. -/
  woken : ∀ {n}, q < n → (h.state n).IsUnderWay r → r.instant < (h.state n).now →
    (∀ t, ¬(h.state n).IsReady t) → ¬(h.state n).IsClosed r ∧
      (h.state n).now < r.instant + r.timeout ∧
      (h.state n).HasAlarm (r.instant + r.timeout) r.caller

theorem expected_eq_card (c : Command) :
    c.expected = c.destination.map (fun d => d.keys.toFinset.card) := by
  unfold Command.expected
  congr 1
  funext d
  rw [List.toFinset_card_of_nodup d.keys_nodup, KeyedList.length_keys]

theorem returns (hp : h.Publishes r q) : h.Returns r q where
  time := by
    obtain ⟨⟨t, i, c, rfl⟩, -⟩ := (h.upkeep q).enrolled hp.registers
    exact ⟨rfl, rfl⟩
  early := by
    intro k hq ho hevent
    refine ⟨ho, ?_⟩
    rcases hevent with hfills | hdisplaces
    · exact closed_of_fills hp hq ho hfills
    · exact closed_of_displaces hp hq hdisplaces
  closes := by
    intro k hq hc
    refine ⟨cause_of_close hp hq hc, (open_spec hp hq hc.1).2, ?_⟩
    intro n hn
    have hstays := closed_mono hp.registers (Nat.lt_succ_of_lt hq) hn hc.2
    exact ⟨hstays.1, hstays.2.trans (collected_at_close hp hq hc)⟩
  once := by
    intro k l hk hl hck hcl
    rcases Nat.lt_trichotomy k l with hlt | rfl | hlt
    · exact absurd (closed_mono hp.registers (Nat.lt_succ_of_lt hk) hlt hck.2).1 hcl.1
    · rfl
    · exact absurd (closed_mono hp.registers (Nat.lt_succ_of_lt hl) hlt hcl.2).1 hck.1
  broadcast := by
    intro hnone k hq hc
    rcases cause_of_close hp hq hc with ⟨-, expected, hexpected, -⟩ | hlate
    · rw [Command.expected, hnone] at hexpected
      cases hexpected
    · exact hlate
  returned := by
    intro n task instant outcome hq htask hended
    rw [← expected_eq_card]
    exact cause_of_return hp hq htask hended
  inTime := by
    intro n hq hlate
    refine ended_of_not_underWay hp hq fun hl => ?_
    rcases hlate with hlate | ⟨k, hqk, hkn, hc, hlate⟩
    · exact absurd (underWay_spec hp hq hl).1 (Nat.not_le.mpr hlate)
    · exact absurd (clock_stands hp hqk hc hkn hl) (Nat.ne_of_gt hlate)
  woken := fun hq hl hlater hidle => (underWay_spec hp hq hl).2 hlater hidle

/-! ### A run in which one of two nodes answers -/

def sampleNode (id : String) : Node := ⟨id, none, "localhost", 5701⟩

def sampleStation : Station := .start (sampleNode "a") ∅ true {} ⟨10000, false⟩

def sampleCommand : Command :=
  ⟨{ Event.withId "c" "probe" with
      sourceNode := some (sampleNode "a")
      destination := some (KeyedList.ofList [sampleNode "b", sampleNode "d"]) }, some 5⟩

def sampleResult : CommandResult :=
  ⟨{ Event.withId "c" "answer" with sourceNode := some (sampleNode "b") }⟩

/-- A call is registered and sent, its reaper is armed, one result comes in, time passes to the
end of the command, and there the reaper runs before the call. -/
def sampleStep : Nat → Mesh → Mesh
  | 0, m => ((m.addStation sampleStation).1.execute 0 sampleCommand).1
  | 1, m => ((m.taken 0).enter 0 0 sampleCommand).1
  | 2, m => m.depart 0 0 sampleCommand 0 5 1 (.ok true)
  | 3, m => (m.taken 1).runReaper 1 0 0 5 none
  | 4, m => (m.correlate 0 sampleResult).1
  | 5, m => machine.ring m 5
  | 6, m => (m.taken 1).runReaper 1 0 0 5 (some 5)
  | 7, m => (m.taken 0).awaitResults 0 0 sampleCommand 0 5 1
  | _, m => m

def sampleState : Nat → Mesh
  | 0 => ofCapacity 1
  | n + 1 => sampleStep n (sampleState n)

def sampleCall : Registration := (sampleState 1).registration 0 0 sampleCommand

def sampleEvent : Nat → Happening
  | 1 => .registers sampleCall
  | 4 => .correlates 0 sampleResult
  | _ => .other

theorem sample_aside : (sampleState 0).Aside (sampleState 1) where
  now := rfl
  stations := by decide
  store := fun i => by cases i <;> rfl
  keeps := fun htask => by cases htask
  brings := by
    intro t task htask hengaged
    cases t with
    | zero =>
      cases htask
      exact hengaged.elim
    | succ t => cases htask
  ready := fun htask => by cases htask
  alarm := fun htask => by cases htask

theorem sample_step : ∀ n, (sampleState n).Step (sampleEvent n) (sampleState (n + 1))
  | 0 => .aside sample_aside
  | 1 =>
    have hstep : (sampleState 1).Step (.registers sampleCall)
        (((sampleState 1).taken 0).enter 0 0 sampleCommand).1 :=
      Step.enter (m := sampleState 1) (t := 0) (i := 0) (c := sampleCommand) (by decide) rfl
        (by decide) rfl
    hstep
  | 2 =>
    have hstep : (sampleState 2).Step .other
        ((sampleState 2).depart 0 0 sampleCommand 0 5 1 (.ok true)) := .depart (.ok true) rfl
    hstep
  | 3 =>
    have hstep : (sampleState 3).Step .other (((sampleState 3).taken 1).runReaper 1 0 0 5 none) :=
      .reap (by decide) rfl
    hstep
  | 4 =>
    have hstep : (sampleState 4).Step (.correlates 0 sampleResult)
        ((sampleState 4).correlate 0 sampleResult).1 := .correlate sampleResult (by decide)
    hstep
  | 5 =>
    have hfirst : ∀ due t, (sampleState 5).HasAlarm due t → 5 ≤ max (sampleState 5).now due := by
      intro due t halarm
      have hmem : (due, t) ∈ [(5, 0), (5, 1)] := halarm
      obtain rfl : due = 5 := by
        rcases List.mem_pair.mp hmem with heq | heq <;> exact congrArg Prod.fst heq
      exact Nat.le_max_right _ _
    have hstep : (sampleState 5).Step .other (machine.ring (sampleState 5) 5) :=
      .pass 5 (fun _ => List.not_mem_nil) (by decide) hfirst
    hstep
  | 6 =>
    have hstep : (sampleState 6).Step .other
        (((sampleState 6).taken 1).runReaper 1 0 0 5 (some 5)) := .reap (by decide) rfl
    hstep
  | 7 =>
    have hstep : (sampleState 7).Step .other
        (((sampleState 7).taken 0).awaitResults 0 0 sampleCommand 0 5 1) := .wait (by decide) rfl
    hstep
  | n + 8 => .aside (.refl _)

def sample : History where
  state := sampleState
  event := sampleEvent
  start := ⟨1, rfl⟩
  step := sample_step

theorem sample_caller (n : Nat) : ∃ task, (sample.state (n + 2)).tasks[0]? = some task ∧
    (task.activity = .executing sampleCommand (.sending 0 5 1) ∧ n = 0 ∨
      task.activity = .executing sampleCommand (.waiting 0 5 1) ∨
      ∃ outcome, task.activity = .ended (.returned 5 (.ok outcome))) := by
  match n with
  | 0 => exact ⟨_, rfl, Or.inl ⟨rfl, rfl⟩⟩
  | 1 => exact ⟨_, rfl, Or.inr (Or.inl rfl)⟩
  | 2 => exact ⟨_, rfl, Or.inr (Or.inl rfl)⟩
  | 3 => exact ⟨_, rfl, Or.inr (Or.inl rfl)⟩
  | 4 => exact ⟨_, rfl, Or.inr (Or.inl rfl)⟩
  | 5 => exact ⟨_, rfl, Or.inr (Or.inl rfl)⟩
  | 6 => exact ⟨_, rfl, Or.inr (Or.inr ⟨_, rfl⟩)⟩
  | n + 7 =>
    have hstands : ∀ k, sampleState (k + 8) = sampleState 8 := by
      intro k
      induction k with
      | zero => rfl
      | succ k ih => exact ih
    have hstate : sample.state (n + 7 + 2) = sampleState 8 := hstands (n + 1)
    rw [hstate]
    exact ⟨_, rfl, Or.inr (Or.inr ⟨_, rfl⟩)⟩

theorem sample_publishes : sample.Publishes sampleCall 1 := by
  refine ⟨rfl, ?_, ?_⟩
  · intro n task htask hsending
    match n with
    | 0 => rfl
    | 1 => rfl
    | n + 2 =>
      obtain ⟨task', hat, hstands⟩ := sample_caller n
      obtain rfl := Option.some.inj (htask.symm.trans hat)
      rcases hstands with ⟨-, rfl⟩ | hwaiting | ⟨outcome, hended⟩
      · rfl
      · rw [hsending] at hwaiting
        cases hwaiting
      · rw [hsending] at hended
        cases hended
  · intro n hall
    obtain ⟨task, htask, instant, e, hfailed⟩ := hall
    match n with
    | 0 => cases htask
    | 1 =>
      cases htask
      cases hfailed
    | n + 2 =>
      obtain ⟨task', hat, hstands⟩ := sample_caller n
      obtain rfl := Option.some.inj (htask.symm.trans hat)
      rw [hfailed] at hstands
      rcases hstands with ⟨hsending, -⟩ | hwaiting | ⟨outcome, hended⟩
      · cases hsending
      · cases hwaiting
      · cases hended

theorem sample_returns : sample.Publishes sampleCall 1 ∧ sample.Returns sampleCall 1 :=
  ⟨sample_publishes, returns sample_publishes⟩

end History

end ClusterMesh
