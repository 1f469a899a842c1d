import ClusterMesh.Proofs.Dispatch.Custody

/-!
# A worker that is alone

Where a single worker takes the messages, only it has messages in its hands, and no work begins
before all earlier messages are over. Every step keeps it so, except for the end of a call that had
passed the check before the queue was severed: its message starts beside the worker.
-/

namespace ClusterMesh

namespace Mesh

variable {m m' : Mesh} {t u i : Nat} {a a' : Activity} {notice : Option Notice} {d : Docket}
variable {e : Option (Nat × Notice)}

/-- The single worker of a station is the only task that works there. -/
structure Solitary (m : Mesh) (i : Nat) (d : Docket) : Prop where
  only : (m.station i).dispatcher.pool = .single → ∀ {t : Nat} {job : Job} {aborted : Bool},
    m.tasks[t]? ≠ some ⟨i, .dispatching job, aborted⟩
  holder : (m.station i).dispatcher.pool = .single → ∀ {t}, d.held t ≠ [] →
    (m.station i).worker = some t
  inOrder : (m.station i).dispatcher.pool = .single → d.InOrder

/-- A call ends without a task of its own for the message, once the queue is severed. -/
def IsInTime (m : Mesh) (i : Nat) (e : Option (Nat × Notice)) : Prop :=
  (m.station i).dispatcher.severed = true → ∀ x, e = some (i, .called x) → x.fate = .refused

theorem Solitary.carry (h : m.Solitary i d)
    (hpool : (m'.station i).dispatcher.pool = (m.station i).dispatcher.pool)
    (hworker : (m'.station i).worker = (m.station i).worker)
    (htask : ∀ {t : Nat} {job : Job} {aborted : Bool},
      m'.tasks[t]? = some ⟨i, .dispatching job, aborted⟩ →
        m.tasks[t]? = some ⟨i, .dispatching job, aborted⟩) : m'.Solitary i d where
  only := fun hsingle _ _ _ ht => h.only (hpool ▸ hsingle) (htask ht)
  holder := fun hsingle _ hheld => hworker.trans (h.holder (hpool ▸ hsingle) hheld)
  inOrder := fun hsingle => h.inOrder (hpool ▸ hsingle)

theorem Solitary.beside (h : m.Solitary i d) (hb : m.Beside m' i) : m'.Solitary i d := by
  refine h.carry ?_ hb.worker ?_
  · rw [hb.dispatcher]
  · intro t job aborted ht
    have hduty : (Activity.dispatching job).IsOnDuty := trivial
    exact (hb.task hduty).mp ht

theorem Solitary.updateDispatcher (h : m.Solitary i d) {f : Dispatcher → Dispatcher}
    (hpool : ∀ d : Dispatcher, (f d).pool = d.pool) : (m.updateDispatcher i f).Solitary i d := by
  have hstation := station_updateDispatcher m i i f
  refine h.carry ?_ ?_ fun ht => ht
  · rw [hstation]
    split
    · exact hpool _
    · rfl
  · rw [hstation]
    split <;> rfl

/-! ### The work of the worker -/

/-- While the worker has nothing in its hands, nobody has. -/
theorem Solitary.free (h : m.Solitary i d) (hk : m.Kept i d)
    (hsingle : (m.station i).dispatcher.pool = .single) {aborted : Bool}
    (htask : m.tasks[t]? = some ⟨i, .working none, aborted⟩) {x : Intake} (hx : x ∈ d) :
    x.fate.holder? = none := by
  cases hholder : x.fate.holder? with
  | none => rfl
  | some u =>
    have hheld : d.held u ≠ [] := by
      intro hnil
      exact Docket.held_eq_nil.mp hnil x hx hholder
    have hworker := h.holder hsingle hheld
    rw [hk.worker htask] at hworker
    obtain rfl := Option.some.inj hworker
    exact absurd ((Docket.bears_iff_of_none rfl).mp (hk.duty htask trivial).2) hheld

/-- What the worker takes is the first message that is not over. -/
theorem Solitary.take_split (h : m.Solitary i d) (hk : m.Kept i d)
    (hsingle : (m.station i).dispatcher.pool = .single) {message : Message} {d' : Dispatcher}
    (htask : m.tasks[t]? = some ⟨i, .working none, false⟩)
    (hnext : (m.station i).dispatcher.takeQueued? = some (message, d')) :
    ∃ (x : Intake) (d₁ d₂ : Docket), d = d₁ ++ x :: d₂ ∧ x.fate = .queued ∧
      (∀ y ∈ d₁, y.fate.IsOver) ∧ d.take t = d₁ ++ { x with fate := .taken t } :: d₂ := by
  obtain ⟨hqueue, -⟩ := Dispatcher.takeQueued?_eq_some hnext
  cases hqueued : d.queued with
  | nil =>
    rw [hk.queue, hqueued] at hqueue
    cases hqueue
  | cons x rest =>
    obtain ⟨d₁, d₂, hd, hx, hd₁, -, htake⟩ := Docket.take_split t hqueued
    refine ⟨x, d₁, d₂, hd, hx, fun y hy => ?_, htake⟩
    have hfree := h.free hk hsingle htask (x := y) (by rw [hd]; exact List.mem_append_left _ hy)
    have hwaits := List.filter_eq_nil_iff.mp hd₁ y hy
    exact Fate.isOver_of_free hfree (by simpa using hwaits)

theorem Solitary.inOrder_take (h : m.Solitary i d) (hk : m.Kept i d)
    (hsingle : (m.station i).dispatcher.pool = .single) {message : Message} {d' : Dispatcher}
    (htask : m.tasks[t]? = some ⟨i, .working none, false⟩)
    (hnext : (m.station i).dispatcher.takeQueued? = some (message, d')) :
    (d.take t).InOrder := by
  obtain ⟨x, d₁, d₂, hd, hx, hover, htake⟩ := h.take_split hk hsingle htask hnext
  have horder := h.inOrder hsingle
  rw [hd] at horder
  rw [htake]
  refine horder.replace (fun _ => Or.inr hover) ?_
  intro hdone
  rw [hx] at hdone
  exact hdone.elim

theorem Solitary.inOrder_work (h : m.Solitary i d) (hk : m.Kept i d)
    (hsingle : (m.station i).dispatcher.pool = .single) (hw : m.Work t i a notice a' m') :
    (d.noting notice).InOrder := by
  have hmove : ∀ {job}, m.InHand t i a job → ∀ f, (d.move t f).InOrder := by
    intro job hand f
    have hduty := Activity.isOnDuty_of_job hand.job
    obtain ⟨x, hx, -, -⟩ := (Docket.bears_iff_of_job hand.job).mp (hk.duty hand.task hduty).2
    exact (h.inOrder hsingle).move hx f
  cases hw with
  | take ready task next => exact h.inOrder_take hk hsingle task next
  | invoke hand _ _ _ | giveUp hand _ _ _ | finish hand _ _ => exact hmove hand _
  | window _ _ | search _ _ _ _ | rest _ _ | idle _ _ | quit _ _ _ => exact h.inOrder hsingle

theorem Solitary.work (h : m.Solitary i d) (hk : m.Kept i d) (hw : m.Work t i a notice a' m') :
    m'.Solitary i (d.noting notice) := by
  have hlabour := hw.labour
  have hduty := hw.isOnDuty
  have hbooked := hw.booked hk
  obtain ⟨hi, -⟩ := hk.duty hw.task_eq hduty
  have hstation : m'.station i =
      { m.station i with dispatcher := (m.station i).dispatcher.noting notice } :=
    (hlabour.station i).trans (if_pos ⟨rfl, hi⟩)
  have hpool : (m'.station i).dispatcher.pool = (m.station i).dispatcher.pool := by
    obtain ⟨queue, stats, heq⟩ := (m.station i).dispatcher.noting_frame notice
    rw [hstation, heq]
  -- the task at work is no other than the worker
  have hworks : (m.station i).dispatcher.pool = .single → ∃ job, a = .working job := by
    intro hsingle
    have htask := hw.task_eq
    cases a with
    | working job => exact ⟨job, rfl⟩
    | dispatching job => exact absurd htask (h.only hsingle)
    | _ => exact hduty.elim
  refine ⟨?_, ?_, fun hsingle => h.inOrder_work hk (hpool ▸ hsingle) hw⟩
  · intro hsingle u job aborted htask
    rw [hlabour.task] at htask
    split at htask
    · obtain ⟨old, rfl⟩ := hworks (hpool ▸ hsingle)
      have ha' : a' = .dispatching job := congrArg Task.activity (Option.some.inj htask)
      rcases hw.working with ⟨new, rfl⟩ | ⟨-, hempty, rfl⟩
      · cases ha'
      · subst ha'
        cases hw
    · exact h.only (hpool ▸ hsingle) htask
  · intro hsingle u hheld
    rw [hstation]
    by_cases hu : u = t
    · subst hu
      obtain ⟨old, rfl⟩ := hworks (hpool ▸ hsingle)
      exact hk.worker hw.task_eq
    · rw [hbooked.others hu] at hheld
      exact h.holder (hpool ▸ hsingle) hheld

/-! ### The other steps -/

theorem Solitary.deliver (h : m.Solitary i d) (hi : i < m.stations.length) {message : Message}
    {after : Dispatcher × Admission}
    (hd : (m.station i).dispatcher.Disposes message after) (origin : Option Nat)
    (hinTime : m.IsInTime i (some (i, .called ⟨message, origin, m.fateFor after.2⟩))) :
    (m.deliver i message after).Solitary i (d ++ [⟨message, origin, m.fateFor after.2⟩]) := by
  have hstation := (m.station_deliver i message after i).trans (if_pos ⟨rfl, hi⟩)
  have hpool : ((m.deliver i message after).station i).dispatcher.pool =
      (m.station i).dispatcher.pool := by
    obtain ⟨entering, queue, stats, heq⟩ := hd.frame
    rw [hstation, heq]
  have hnot : (m.station i).dispatcher.pool = .single → after.2 ≠ .started := by
    intro hsingle hstarted
    have hsevered := hd.severed_of_started hsingle hstarted
    have hrefused := hinTime hsevered _ rfl
    rw [hstarted] at hrefused
    cases hrefused
  have hheld : (m.station i).dispatcher.pool = .single → ∀ u,
      Docket.held (d ++ [⟨message, origin, m.fateFor after.2⟩]) u = d.held u :=
    fun hsingle u => m.held_fateFor (fun hnew => hnot hsingle hnew.1) message origin d
  refine ⟨?_, ?_, ?_⟩
  · intro hsingle u job aborted htask
    rw [tasks_deliver, if_neg fun hnew => hnot (hpool ▸ hsingle) hnew.1] at htask
    exact h.only (hpool ▸ hsingle) htask
  · intro hsingle u hu
    rw [hheld (hpool ▸ hsingle)] at hu
    rw [hstation]
    exact h.holder (hpool ▸ hsingle) hu
  · intro hsingle
    refine (h.inOrder (hpool ▸ hsingle)).append ?_
    cases hadmission : after.2 with
    | refused => exact not_false
    | queued => exact not_false
    | started => exact absurd hadmission (hnot (hpool ▸ hsingle))

theorem Solitary.addStation (h : m.Solitary i d) (hk : m.Kept i d) (s : Station) :
    (m.addStation s).1.Solitary i d := by
  by_cases hi : i = m.stations.length
  · subst hi
    obtain rfl := hk.placed (Nat.le_refl _)
    refine ⟨?_, fun _ _ hnil => absurd rfl hnil, fun _ => List.Pairwise.nil⟩
    intro _ t job aborted ht
    rw [tasks_addStation] at ht
    split at ht
    · cases ht
    · exact absurd (hk.duty ht trivial).1 (Nat.lt_irrefl _)
  · have hstation := station_addStation m s i
    rw [if_neg hi] at hstation
    refine h.carry (by rw [hstation]) (by rw [hstation]) fun ht => ?_
    rw [tasks_addStation] at ht
    split at ht
    · cases ht
    · exact ht

/-- Every step keeps the worker alone, if no call ends too late. -/
theorem Solitary.step (h : m.Solitary i d) (hk : m.Kept i d) (hl : m.Looped) (hd : m.Duty e m')
    (he : m.IsInTime i e) : m'.Solitary i (d.follow i e) := by
  cases hd.sight hl i with
  | aside beside silent =>
    rw [Docket.follow_of_silent d silent]
    exact h.beside beside
  | ring instant later => exact h.carry rfl rfl fun ht => ht
  | found fresh => exact h.addStation hk _
  | given beside placed disposes origin =>
    rw [Docket.follow_own]
    rw [IsInTime, ← beside.dispatcher] at he
    exact (h.beside beside).deliver placed disposes origin he
  | entered beside placed c =>
    rw [Docket.follow_own]
    exact (h.beside beside).updateDispatcher fun _ => rfl
  | closed placed =>
    rw [Docket.follow_own]
    exact h.updateDispatcher fun _ => rfl
  | severed placed =>
    rw [Docket.follow_own]
    have hsevered : (m.updateDispatcher i Dispatcher.sever).Solitary i d :=
      h.updateDispatcher fun _ => rfl
    exact hsevered.beside (beside_wakeWorker _ i i)
  | @failed t =>
    rw [Docket.follow_own]
    have hgone : (m.updateDispatcher i fun d => { d with workerGone := true }).Solitary i d :=
      h.updateDispatcher fun _ => rfl
    exact hgone.carry rfl rfl fun ht => (task_of_finish ht not_false).2
  | worked hw =>
    rw [Docket.follow_map]
    exact h.work hk hw

end Mesh

namespace Service

/-- Up to a step no call ended that had passed the check before the queue was severed, unless it was
refused. -/
def InTime (h : Service) (i n : Nat) : Prop := ∀ q < n, (h.state q).IsInTime i (h.event q)

end Service

end ClusterMesh
