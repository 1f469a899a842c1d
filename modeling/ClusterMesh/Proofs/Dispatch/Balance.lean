import ClusterMesh.Proofs.Dispatch.Queueing
import ClusterMesh.Proofs.Dispatch.Tally

/-!
# The counters of a dispatcher balance

In every state of every run the counters of a dispatcher account for all calls that were made to it.
A message that was accepted ends at one step, in one way, as long as the single worker is not lost:
a message that this one does not come to stays open. After a shutdown a message is refused, and
nothing but the counter of the dropped messages changes.
-/

namespace ClusterMesh.Service

variable {h : Service} {i n k p q : Nat} {x : Intake} {c : DispatchCall}
variable {e : DispatchEnd}

/-- The work on a message ends at one step, in one way and for good. -/
def Settles (h : Service) (i n p : Nat) (x : Intake) : Prop :=
  ∃ k t e, n ≤ k ∧ h.event k = some (i, .ended t e) ∧
    ∀ q, n ≤ q → ((h.docket i q)[p]? = some { x with fate := .ended e } ↔ k < q)

/-- The single worker was lost, and a message stays open. -/
structure Strands (h : Service) (i n p : Nat) (x : Intake) : Prop where
  single : ((h.state n).station i).dispatcher.pool = .single
  failed : ∃ q, h.event q = some (i, .failed)
  stays : ∀ k, n ≤ k → ∃ f, (h.docket i k)[p]? = some { x with fate := f } ∧ f.isOpen = true

/-- The counters of a dispatcher account for what was noticed at its station and for the calls that
are under way. -/
structure Balanced (h : Service) (i n : Nat) : Prop where
  account : h.docket i n = (h.notices i n).foldl Docket.after []
  calls : (h.notices i n).countP Notice.isCall +
      ((h.state n).station i).dispatcher.entering.length =
    ((h.state n).station i).dispatcher.stats.dispatched +
      ((h.state n).station i).dispatcher.stats.dropped +
      ((h.state n).station i).dispatcher.stats.inFlight +
      (h.notices i n).countP (Notice.isEnd .panicked)
  dispatched : ((h.state n).station i).dispatcher.stats.dispatched =
    (h.notices i n).countP (Notice.isEnd .handled) + (h.notices i n).countP (Notice.isEnd .failed)
  failures : ((h.state n).station i).dispatcher.stats.failures =
    (h.notices i n).countP (Notice.isEnd .failed) + (h.notices i n).countP (Notice.isEnd .panicked)
  dropped : ((h.state n).station i).dispatcher.stats.dropped =
    (h.notices i n).countP Notice.isRefusal + (h.notices i n).countP (Notice.isEnd .unhandled)
  invocations : (h.notices i n).countP Notice.isInvocation = (h.docket i n).count Fate.isInvoked +
    ((h.notices i n).countP (Notice.isEnd .handled) +
      (h.notices i n).countP (Notice.isEnd .failed) +
        (h.notices i n).countP (Notice.isEnd .panicked))
  inFlight : ((h.state n).station i).dispatcher.stats.inFlight =
    (h.docket i n).count Fate.isOpen + ((h.state n).station i).dispatcher.entering.length
  noUnderflow : (∃ t e, h.event n = some (i, .ended t e)) ∨
      ((h.state n).station i).dispatcher.entering ≠ [] →
    0 < ((h.state n).station i).dispatcher.stats.inFlight
  idle : ((h.state n).station i).dispatcher.stats.inFlight = 0 ↔
    ((h.state n).station i).dispatcher.entering = [] ∧
      ∀ x : Intake, x ∈ h.docket i n → x.fate.IsOver
  shut : ∀ q < n, h.event q = some (i, .closed) → ∀ message,
    (h.state n).fateOf i message = .refused ∧
      (h.state n).dispatch i message =
        (h.state n).updateDispatcher i (fun d => { d with stats := d.stats.refuse })
  lasting : ∀ (p : Nat) (x : Intake), (h.docket i n)[p]? = some x → x.fate.IsOver →
    ∀ k, n ≤ k → (h.docket i k)[p]? = some x
  returns : h.Fair i → h.Keeps i → ∀ c : DispatchCall,
    c ∈ ((h.state n).station i).dispatcher.entering → ∃ q x, n ≤ q ∧ x.call = c ∧
      h.event q = some (i, .called x) ∧ h.Settles i (q + 1) (h.docket i q).length x
  ends : h.Fair i → h.Keeps i → ∀ (p : Nat) (x : Intake), (h.docket i n)[p]? = some x →
    x.fate.isOpen = true → h.Settles i n p x
  strands : h.Fair i → ∀ (p : Nat) (x : Intake), (h.docket i n)[p]? = some x →
    x.fate.isOpen = true → ¬h.Settles i n p x → h.Strands i n p x

/-! ### How messages end -/

theorem settles_of_ended (hx : (h.docket i n)[p]? = some x) (hopen : x.fate.isOpen = true)
    (hq : n ≤ q) (hended : (h.docket i q)[p]? = some { x with fate := .ended e }) :
    h.Settles i n p x := by
  induction hq with
  | refl =>
    rw [hx] at hended
    rw [Option.some.inj hended] at hopen
    cases hopen
  | @step q hq ih =>
    obtain ⟨f, hf⟩ := h.docket_getElem? hx hq
    rcases h.fate_succ hf with hsame | ⟨notice, f', hevent, hadvances, hf'⟩
    · rw [hended] at hsame
      exact ih (hf.trans hsame.symm)
    · rw [hended] at hf'
      obtain rfl : Fate.ended e = f' := congrArg Intake.fate (Option.some.inj hf')
      obtain ⟨t, rfl⟩ := hadvances.ended
      refine ⟨q, t, e, hq, hevent, ?_⟩
      intro r hr
      constructor
      · intro hthen
        by_contra hle
        have hstill := h.docket_of_isOver hthen trivial (Nat.le_of_not_lt hle)
        rw [hf] at hstill
        have hfate : f = .ended e := congrArg Intake.fate (Option.some.inj hstill)
        rw [hfate] at hadvances
        exact hadvances.not_isOver trivial
      · intro hlt
        exact h.docket_of_isOver hended trivial hlt

theorem pool_of_failed (h : Service) (hevent : h.event q = some (i, .failed)) :
    i < (h.state q).stations.length ∧ ((h.state q).station i).dispatcher.pool = .single := by
  have hstep := h.step q
  rw [hevent] at hstep
  obtain ⟨hsingle, t, job, aborted, htask⟩ := hstep.failed
  exact ⟨((h.kept i q).duty htask trivial).1, hsingle⟩

theorem Fair.settles (hf : h.Fair i) (hs : h.Keeps i) (hx : (h.docket i n)[p]? = some x)
    (hopen : x.fate.isOpen = true) : h.Settles i n p x := by
  obtain ⟨q, e, hq, hended⟩ := hf.ends_of_open hs hx hopen
  exact settles_of_ended hx hopen hq hended

/-- What does not end stays open, and a worker was lost. -/
theorem Fair.strands (hf : h.Fair i) (hx : (h.docket i n)[p]? = some x)
    (hopen : x.fate.isOpen = true) (hnot : ¬h.Settles i n p x) : h.Strands i n p x := by
  have hnever : ¬∃ q e, n ≤ q ∧ (h.docket i q)[p]? = some { x with fate := .ended e } := by
    rintro ⟨q, e, hq, hended⟩
    exact hnot (settles_of_ended hx hopen hq hended)
  have hfailed : ∃ q, h.event q = some (i, .failed) := by
    by_contra hnone
    exact hnot (hf.settles (fun q hq => hnone ⟨q, hq⟩) hx hopen)
  refine ⟨?_, hfailed, ?_⟩
  · obtain ⟨q, hq⟩ := hfailed
    obtain ⟨hplaced, hsingle⟩ := h.pool_of_failed hq
    have hi : i < (h.state n).stations.length := by
      by_contra hnot
      rw [(h.kept i n).placed (Nat.le_of_not_lt hnot)] at hx
      cases hx
    rcases Nat.le_total n q with hle | hle
    · rw [← (h.placed_of_le hi hle).2, hsingle]
    · rw [(h.placed_of_le hplaced hle).2, hsingle]
  · intro k hk
    induction hk with
    | refl => exact ⟨x.fate, hx, hopen⟩
    | @step k hk ih =>
      obtain ⟨f, hf', hfo⟩ := ih
      rcases h.fate_succ hf' with hsame | ⟨notice, f', -, hadvances, hafter⟩
      · exact ⟨f, hsame, hfo⟩
      · refine ⟨f', hafter, ?_⟩
        cases hadvances with
        | take t | invoke t id => rfl
        | giveUp t | finish t ran => exact absurd ⟨k + 1, _, Nat.le_succ_of_le hk, hafter⟩ hnever

/-! ### How calls end -/

theorem Keeps.workerGone (hs : h.Keeps i) (n : Nat) :
    ((h.state n).station i).dispatcher.workerGone = false := by
  induction n with
  | zero =>
    obtain ⟨capacity, hstart⟩ := h.start
    rw [hstart]
    rfl
  | succ n ih => exact (h.step n).workerGone (h.looped n) (hs n) ih

theorem isOpen_fateFor_place (m : Mesh) {d : Dispatcher} (h : d.workerGone = false)
    (message : Message) : (m.fateFor (d.place message).2).isOpen = true := by
  unfold Dispatcher.place
  split
  · rw [if_neg (by rw [h]; exact Bool.false_ne_true)]
    rfl
  · rfl

/-- A call that is under way while the worker is there is not refused, and its message ends. -/
theorem Fair.settles_of_entering (hf : h.Fair i) (hs : h.Keeps i)
    (hc : c ∈ ((h.state n).station i).dispatcher.entering) :
    ∃ q x, n ≤ q ∧ x.call = c ∧ h.event q = some (i, .called x) ∧
      h.Settles i (q + 1) (h.docket i q).length x := by
  obtain ⟨q, hq, k, -, hevent, -⟩ := hf.returns hc
  have hopen := isOpen_fateFor_place (h.state q)
    (d := ((h.state q).station i).dispatcher.resume k) (hs.workerGone q) c.message
  refine ⟨q, _, hq, rfl, hevent, hf.settles hs ?_ hopen⟩
  rw [h.docket_of_event hevent]
  exact List.getElem?_concat_length

/-! ### After a shutdown -/

theorem updateDispatcher_eq (m : Mesh) (i : Nat) (f : Dispatcher → Dispatcher) :
    m.updateDispatcher i (fun _ => f (m.station i).dispatcher) = m.updateDispatcher i f := by
  have hstations : m.stations.modify i (fun s =>
      { s with dispatcher := f (m.station i).dispatcher }) =
        m.stations.modify i (fun s => { s with dispatcher := f s.dispatcher }) := by
    apply List.ext_getElem?
    intro j
    rw [List.getElem?_modify, List.getElem?_modify]
    by_cases hj : i = j
    · subst hj
      cases hs : m.stations[i]? with
      | none => rfl
      | some s => simp [Mesh.station, List.getD_eq_getElem?_getD, hs]
    · simp [hj]
  exact congrArg (fun stations => { m with stations := stations }) hstations

theorem dispatch_of_closed {m : Mesh} (h : (m.station i).dispatcher.closed = true)
    (message : Message) : m.fateOf i message = .refused ∧ m.dispatch i message =
      m.updateDispatcher i (fun d => { d with stats := d.stats.refuse }) := by
  have haccept : (m.station i).dispatcher.accept message =
      ({ (m.station i).dispatcher with stats := (m.station i).dispatcher.stats.refuse },
        .refused) := by
    simp [Dispatcher.accept, h]
  refine ⟨by rw [Mesh.fateOf, haccept, Mesh.fateFor], ?_⟩
  simp only [Mesh.dispatch, haccept, Mesh.deliver]
  exact updateDispatcher_eq m i fun d => { d with stats := d.stats.refuse }

theorem closed_of_event (h : Service) (hevent : h.event q = some (i, .closed)) (hn : q < n) :
    ((h.state n).station i).dispatcher.closed = true := by
  have hi : i < (h.state q).stations.length := by
    have hstep := h.step q
    rw [hevent] at hstep
    exact hstep.closed
  have hstanding := h.standing hi
  exact h.closed_of_le hstanding.placed (hstanding.closed.mpr (Or.inr hevent)) hn

theorem balanced (h : Service) (i n : Nat) : h.Balanced i n := by
  have hcounts := h.counts i n
  have hstats := (h.kept i n).stats
  have hlength := Docket.length_eq (h.docket i n)
  rw [Docket.stats_eq, DispatchStats.holding] at hstats
  refine ⟨?_, ?_, ?_, ?_, ?_, ?_, ?_, ?_, ?_, ?_, ?_, ?_, ?_, ?_⟩
  · exact h.docket_eq_foldl i n
  · rw [hcounts.calls, hcounts.ends, hstats, hlength]
    dsimp only
    omega
  · rw [hcounts.ends, hcounts.ends, hstats]
  · rw [hcounts.ends, hcounts.ends, hstats]
  · rw [hcounts.refusals, hcounts.ends, hstats]
  · rw [hcounts.ends, hcounts.ends, hcounts.ends]
    exact hcounts.invocations
  · rw [hstats]
  · rw [hstats]
    rintro (⟨t, e, hevent⟩ | hentering)
    · obtain ⟨notice, hnotice, hturn⟩ | ⟨hnone, -⟩ := h.docket_succ i n
      · rw [hevent] at hnotice
        cases hnotice
        exact Nat.add_pos_left hturn.count_isOpen_pos _
      · exact absurd hevent (hnone _)
    · exact Nat.add_pos_right _ (List.length_pos_iff.mpr hentering)
  · rw [hstats, ← Docket.count_isOpen_eq_zero, ← List.length_eq_zero_iff]
    exact Nat.add_eq_zero_iff.trans And.comm
  · intro q hq hevent message
    exact dispatch_of_closed (h.closed_of_event hevent hq) message
  · intro p x hx hover k hk
    exact h.docket_of_isOver hx hover hk
  · intro hf hs c hc
    exact hf.settles_of_entering hs hc
  · intro hf hs p x hx hopen
    exact hf.settles hs hx hopen
  · intro hf p x hx hopen hnot
    exact hf.strands hx hopen hnot

/-! ### A run that loses its worker -/

/-- A run is fair in which, from some step on, only time passes and nobody works for the dispatcher. -/
theorem fair_of_rest (N : Nat) (hnow : ∀ n, n ≤ (h.state (n + N)).now)
    (htasks : ∀ (n : Nat) {t : Nat} {task : Task},
      (h.state (n + N)).tasks[t]? = some task → ¬task.activity.IsOnDuty)
    (hreturns : ∀ {n : Nat} {c : DispatchCall},
      c ∈ ((h.state n).station i).dispatcher.entering → ∃ q, n ≤ q ∧ h.Returns i c q) :
    h.Fair i where
  runs := by
    intro n t task _ _ hduty _
    exact ⟨n + N, Nat.le_add_right n N, Or.inr fun hstill => htasks n hstill hduty⟩
  passes := fun instant => ⟨instant + N, hnow instant⟩
  returns := hreturns

def soloStation : Station :=
  Station.start ⟨"a", none, "host", 1⟩ ∅ true ⟨10, 10, .single⟩ {}

def waitingMessage : Message := .event (Event.withId "1" "text")

def lateMessage : Message := .event (Event.withId "2" "text")

/-- A single worker is lost before it has taken the message that waits for it. The next message is
refused, the dispatcher is shut down, and then time passes. -/
def lossNext (m : Mesh) : Nat → Mesh
  | 0 => (m.addStation soloStation).1
  | 1 => m.dispatch 0 waitingMessage
  | 2 => m.loseWorker 0 0
  | 3 => m.dispatch 0 lateMessage
  | 4 => m.close 0
  | 5 => m.sever 0
  | n + 6 => Mesh.machine.ring m (n + 1)

def lossState : Nat → Mesh
  | 0 => Mesh.ofCapacity 1
  | n + 1 => lossNext (lossState n) n

def lossEvent : Nat → Option (Nat × Notice)
  | 1 => some (0, .called ⟨waitingMessage, none, .queued⟩)
  | 2 => some (0, .failed)
  | 3 => some (0, .called ⟨lateMessage, none, .refused⟩)
  | 4 => some (0, .closed)
  | 5 => some (0, .severed)
  | _ => none

theorem lossState_rest (n : Nat) : (lossState (n + 6)).now = n ∧
    (lossState (n + 6)).tasks = [⟨0, .ended .cancelled, false⟩] ∧
    (lossState (n + 6)).stations = (lossState 6).stations := by
  induction n with
  | zero => exact ⟨rfl, rfl, rfl⟩
  | succ n ih =>
    obtain ⟨hnow, htasks, hstations⟩ := ih
    refine ⟨?_, htasks, hstations⟩
    have hring : (lossState (n + 1 + 6)).now = max (lossState (n + 6)).now (n + 1) := rfl
    rw [hring, hnow]
    omega

theorem loss_step (n : Nat) : (lossState n).Duty (lossEvent n) (lossState (n + 1)) := by
  match n with
  | 0 => exact .found ⟨⟨10, 10, .single, rfl⟩, rfl, rfl⟩
  | 1 => exact .call waitingMessage (by decide)
  | 2 => exact .fail rfl rfl rfl
  | 3 => exact .call lateMessage (by decide)
  | 4 => exact .close (by decide)
  | 5 => exact .sever (by decide) rfl
  | n + 6 =>
    refine .pass (n + 1) ?_
    rw [(lossState_rest n).1]
    exact Nat.le_succ n

def loss : Service := ⟨lossState, lossEvent, ⟨1, rfl⟩, loss_step⟩

theorem loss_entering : ∀ n, ((loss.state n).station 0).dispatcher.entering = []
  | 0 | 1 | 2 | 3 | 4 | 5 => rfl
  | n + 6 => by
    have hstations : (loss.state (n + 6)).stations = (loss.state 6).stations :=
      (lossState_rest n).2.2
    rw [Mesh.station, hstations]
    rfl

theorem loss_fair : loss.Fair 0 := by
  refine fair_of_rest 6 ?_ ?_ ?_
  · intro n
    exact Nat.le_of_eq (lossState_rest n).1.symm
  · intro n t task htask
    rw [show (loss.state (n + 6)).tasks = _ from (lossState_rest n).2.1] at htask
    cases t with
    | zero =>
      cases Option.some.inj htask
      exact id
    | succ t => cases htask
  · intro n c hc
    rw [loss_entering] at hc
    cases hc

theorem loss_docket (n : Nat) : loss.docket 0 (n + 6) =
    [⟨waitingMessage, none, .queued⟩, ⟨lateMessage, none, .refused⟩] := by
  induction n with
  | zero => rfl
  | succ n ih => exact ih

theorem loss_never_ends (k t : Nat) (e : DispatchEnd) : loss.event k ≠ some (0, .ended t e) := by
  intro heq
  have hevent : lossEvent k = some (0, .ended t e) := heq
  unfold lossEvent at hevent
  split at hevent <;> cases hevent

/-- A message that waits for a worker which is lost stays in flight, also after the shutdown. -/
theorem not_settles_of_loss : loss.Fair 0 ∧
    loss.event 1 = some (0, .called ⟨waitingMessage, none, .queued⟩) ∧
    loss.event 2 = some (0, .failed) ∧ loss.event 4 = some (0, .closed) ∧
    ∀ n, (loss.docket 0 (n + 6))[0]? = some ⟨waitingMessage, none, .queued⟩ ∧
      ¬loss.Settles 0 (n + 6) 0 ⟨waitingMessage, none, .queued⟩ ∧
      ((loss.state (n + 6)).station 0).dispatcher.stats = ⟨0, 1, 0, 1⟩ := by
  refine ⟨loss_fair, rfl, rfl, rfl, fun n => ⟨?_, ?_, ?_⟩⟩
  · rw [loss_docket]
    rfl
  · rintro ⟨k, t, e, -, hended, -⟩
    exact loss_never_ends k t e hended
  · have hstations : (loss.state (n + 6)).stations = (loss.state 6).stations :=
      (lossState_rest n).2.2
    rw [Mesh.station, hstations]
    rfl

end ClusterMesh.Service
