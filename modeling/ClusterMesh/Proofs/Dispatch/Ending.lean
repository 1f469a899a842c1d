import ClusterMesh.Proofs.Dispatch.Fates
import ClusterMesh.Proofs.Dispatch.Tending

/-!
# Every message ends

If time goes on and no task of a dispatcher is kept from running for ever, the work on each message
that was accepted ends, as long as the worker is not lost: the window for a handler passes, handlers
come to an end, and the queue moves on.
-/

namespace ClusterMesh

namespace Mesh

variable {m m' : Mesh} {t u i : Nat} {a a' : Activity} {e : Option (Nat × Notice)}

theorem Duty.task_cases (hd : m.Duty e m') (hl : m.Looped)
    (htask : m.tasks[t]? = some ⟨i, a, false⟩) (hduty : a.IsOnDuty) (he : e ≠ some (i, .failed)) :
    m'.tasks[t]? = some ⟨i, a, false⟩ ∨
      ∃ notice a', e = notice.map (fun notice => (i, notice)) ∧ m.Work t i a notice a' m' := by
  cases hd.sight hl i with
  | aside beside _ => exact Or.inl ((beside.task hduty).mpr htask)
  | ring instant later => exact Or.inl htask
  | @found s fresh =>
    obtain ⟨hlt, -⟩ := List.getElem?_eq_some_iff.mp htask
    refine Or.inl ?_
    rw [tasks_addStation, if_neg fun h => Nat.ne_of_lt hlt h.2, htask]
  | given beside placed disposes origin =>
    exact Or.inl (tasks_deliver_of_some i _ _ ((beside.task hduty).mpr htask))
  | entered beside placed c => exact Or.inl ((beside.task hduty).mpr htask)
  | closed placed => exact Or.inl htask
  | severed placed =>
    rw [Mesh.sever, tasks_wakeWorker]
    exact Or.inl htask
  | failed task => exact absurd rfl he
  | @worked u b b' notice m' hw =>
    by_cases hu : t = u
    · subst hu
      rw [hw.task_eq] at htask
      cases Option.some.inj htask
      exact Or.inr ⟨notice, b', rfl, hw⟩
    · exact Or.inl ((hw.labour.task t).trans ((if_neg hu).trans htask))

theorem Duty.now_le (hd : m.Duty e m') (hl : m.Looped) : m.now ≤ m'.now := by
  cases hd.sight hl 0 with
  | aside beside _ => exact Nat.le_of_eq beside.now.symm
  | ring instant later => exact Nat.le_max_left _ _
  | found fresh =>
    refine Nat.le_of_eq ?_
    simp only [addStation]
    split <;> rfl
  | @given before message after beside placed disposes origin =>
    exact Nat.le_of_eq ((before.now_deliver ..).trans beside.now).symm
  | entered beside placed c => exact Nat.le_of_eq beside.now.symm
  | closed placed => exact Nat.le_refl _
  | severed placed => exact Nat.le_of_eq (beside_sever m Nat.zero_ne_one).now.symm
  | failed task => exact Nat.le_refl _
  | worked hw => exact Nat.le_of_eq hw.labour.now.symm

theorem Duty.ended {how : DispatchEnd} (hd : m.Duty (some (i, .ended t how)) m') :
    ∃ a : Activity, m.tasks[t]? = some ⟨i, a, false⟩ ∧
      m'.tasks[t]? = some ⟨i, a.layDown, false⟩ := by
  obtain ⟨a, a', hw⟩ := hd.working rfl
  have htask := hw.labour.task t
  rw [if_pos rfl] at htask
  have hbefore := hw.task_eq
  cases hw with
  | giveUp hand due missing never => exact ⟨a, hbefore, htask⟩
  | finish hand ready e => exact ⟨a, hbefore, htask⟩

section

variable {notice : Option Notice} {message : Message} {deadline next due : Nat} {id : HandlerId}

theorem InHand.job_eq {job job' : Job} (h : m.InHand t i a job) (hjob : a.job? = some job') :
    job = job' :=
  Option.some.inj (h.job.symm.trans hjob)

/-! ### What comes after each stage -/

theorem Work.of_arrived (hw : m.Work t i a notice a' m')
    (hjob : a.job? = some ⟨message, .arrived⟩) :
    (∃ deadline next, a'.job? = some ⟨message, .searching deadline next⟩) ∨ a' = a := by
  cases hw with
  | take _ _ _ | idle _ _ | quit _ _ _ => cases hjob
  | invoke hand _ _ _ | search hand _ _ _ | giveUp hand _ _ _ | finish hand _ _ =>
    cases hand.job_eq hjob
  | window hand timeout =>
    cases hand.job_eq hjob
    exact Or.inl ⟨_, _, a.job?_goOn _⟩
  | rest _ _ => exact Or.inr rfl

theorem Work.of_searching (hw : m.Work t i a notice a' m')
    (hjob : a.job? = some ⟨message, .searching deadline next⟩) :
    (∃ e, notice = some (.ended t e)) ∨ (∃ id due, a'.job? = some ⟨message, .handling id due⟩) ∨
      (∃ next, a'.job? = some ⟨message, .searching deadline next⟩ ∧ m.now < deadline) ∨ a' = a := by
  cases hw with
  | take _ _ _ | idle _ _ | quit _ _ _ => cases hjob
  | window hand _ | finish hand _ _ => cases hand.job_eq hjob
  | invoke hand due found wait =>
    cases hand.job_eq hjob
    exact Or.inr (Or.inl ⟨_, _, a.job?_goOn _⟩)
  | search hand due missing again =>
    cases hand.job_eq hjob
    refine Or.inr (Or.inr (Or.inl ⟨_, a.job?_goOn _, ?_⟩))
    unfold Dispatcher.nextLookup? at again
    split at again
    · cases again
    · next hlt => exact Nat.lt_of_not_le hlt
  | giveUp hand due missing never => exact Or.inl ⟨_, rfl⟩
  | rest hand pauses => exact Or.inr (Or.inr (Or.inr rfl))

theorem Work.of_handling (hw : m.Work t i a notice a' m')
    (hjob : a.job? = some ⟨message, .handling id due⟩) :
    (∃ e, notice = some (.ended t e)) ∨ a' = a := by
  cases hw with
  | take _ _ _ | idle _ _ | quit _ _ _ => cases hjob
  | window hand _ | invoke hand _ _ _ | search hand _ _ _ | giveUp hand _ _ _ =>
    cases hand.job_eq hjob
  | finish hand ready e => exact Or.inl ⟨_, rfl⟩
  | rest _ _ => exact Or.inr rfl

end

end Mesh

/-- A call to the dispatcher of a station that was under way ends. -/
def Service.Returns (h : Service) (i : Nat) (c : DispatchCall) (q : Nat) : Prop :=
  ∃ k, ((h.state q).station i).dispatcher.entering[k]? = some c ∧
    h.event q = some (i, .called ⟨c.message, c.origin, (h.state q).fateFor
      ((((h.state q).station i).dispatcher.resume k).place c.message).2⟩) ∧
    h.state (q + 1) = (h.state q).endDispatch i k c.message

/-- Time goes on, no task that works for a dispatcher is kept from running for ever, and the calls
that are under way come to their ends. -/
structure Service.Fair (h : Service) (i : Nat) : Prop where
  runs : ∀ {n t : Nat} {task : Task}, (h.state n).tasks[t]? = some task → task.station = i →
    task.activity.IsOnDuty → (h.state n).IsReady t →
    ∃ k, n ≤ k ∧ (¬(h.state k).IsReady t ∨ (h.state k).tasks[t]? ≠ some task)
  passes : ∀ instant, ∃ n, instant ≤ (h.state n).now
  returns : ∀ {n : Nat} {c : DispatchCall}, c ∈ ((h.state n).station i).dispatcher.entering →
    ∃ q, n ≤ q ∧ h.Returns i c q

namespace Service

variable {h : Service} {i n k p t : Nat} {a : Activity} {x : Intake}

theorem now_le_of_le (h : Service) (hk : n ≤ k) : (h.state n).now ≤ (h.state k).now := by
  induction hk with
  | refl => exact Nat.le_refl _
  | @step k _ ih => exact Nat.le_trans ih ((h.step k).now_le (h.looped k))

theorem Fair.from (hf : h.Fair i) (n instant : Nat) :
    ∃ k, n ≤ k ∧ ∀ q, k ≤ q → instant ≤ (h.state q).now := by
  obtain ⟨k, hk⟩ := hf.passes instant
  refine ⟨max n k, Nat.le_max_left _ _, ?_⟩
  intro q hq
  exact Nat.le_trans hk (h.now_le_of_le (Nat.le_trans (Nat.le_max_right n k) hq))

/-- The worker of a station never fails. -/
def Keeps (h : Service) (i : Nat) : Prop := ∀ q, h.event q ≠ some (i, .failed)

theorem Keeps.tended (hs : h.Keeps i) (n : Nat) : (h.state n).Tended i (h.docket i n) :=
  h.tended i n fun q _ => hs q

/-- The instant for which a task waits with its message. -/
def dueOf (a : Activity) : Nat :=
  match a.job? with
  | some ⟨_, .searching _ due⟩ | some ⟨_, .handling _ due⟩ => due
  | _ => 0

theorem isReady_of_late {m : Mesh} (h : m.Attentive t i a) (hlate : dueOf a < m.now)
    (hbusy : a.job? = none → (m.station i).dispatcher.queue ≠ []) : m.IsReady t := by
  unfold dueOf at hlate
  cases hjob : a.job? with
  | none => exact (Mesh.attentive_of_none hjob).mp h (hbusy hjob)
  | some job =>
    obtain ⟨message, stage⟩ := job
    rw [Mesh.attentive_of_job hjob] at h
    rw [hjob] at hlate
    cases stage with
    | arrived => exact h
    | searching _ due | handling _ due =>
      rcases h with ⟨-, hle⟩ | ⟨-, hready⟩
      · exact absurd hlate (Nat.not_lt.mpr hle)
      · exact hready

/-- Whatever a task has to do, it goes on with it. -/
theorem Fair.works (hf : h.Fair i) (hs : h.Keeps i)
    (htask : (h.state n).tasks[t]? = some ⟨i, a, false⟩) (hduty : a.IsOnDuty)
    (hbusy : ∀ k, n ≤ k → a.job? = none → ((h.state k).station i).dispatcher.queue ≠ []) :
    ∃ k notice a', n ≤ k ∧ h.event k = notice.map (fun notice => (i, notice)) ∧
      (h.state k).Work t i a notice a' (h.state (k + 1)) ∧ a' ≠ a := by
  by_contra hnever
  -- otherwise the task stays as it is, although it is ready once its instant is past
  have hstays : ∀ k, n ≤ k → (h.state k).tasks[t]? = some ⟨i, a, false⟩ := by
    intro k hk
    induction hk with
    | refl => exact htask
    | @step k hk ih =>
      rcases (h.step k).task_cases (h.looped k) ih hduty (hs k) with hsame | ⟨notice, a', he, hw⟩
      · exact hsame
      · by_cases ha : a' = a
        · have hafter := hw.labour.task t
          rwa [if_pos rfl, ha] at hafter
        · exact absurd ⟨k, notice, a', hk, he, hw, ha⟩ hnever
  obtain ⟨N, hN, hlate⟩ := hf.from n (dueOf a + 1)
  have hready : ∀ k, N ≤ k → (h.state k).IsReady t := by
    intro k hk
    have hle := Nat.le_trans hN hk
    have hattentive := ((hs.tended k).attentive (hstays k hle) hduty).2
    exact isReady_of_late hattentive (hlate k hk) (hbusy k hle)
  obtain ⟨k, hk, hdone⟩ := hf.runs (hstays N hN) rfl hduty (hready N (Nat.le_refl _))
  rcases hdone with hnot | hchanged
  · exact hnot (hready k hk)
  · exact hchanged (hstays k (Nat.le_trans hN hk))

/-- The work of a task on its message ends. -/
def EndsWork (h : Service) (i n t : Nat) : Prop :=
  ∃ k e, n ≤ k ∧ h.event k = some (i, .ended t e)

theorem EndsWork.mono (he : h.EndsWork i k t) (hk : n ≤ k) : h.EndsWork i n t := by
  obtain ⟨q, e, hq, hevent⟩ := he
  exact ⟨q, e, Nat.le_trans hk hq, hevent⟩

theorem busy_of_job {job : Job} (hjob : a.job? = some job) {k : Nat} :
    n ≤ k → a.job? = none → ((h.state k).station i).dispatcher.queue ≠ [] := by
  intro _ hnone
  rw [hjob] at hnone
  cases hnone

theorem Fair.ends_of_handling (hf : h.Fair i) (hs : h.Keeps i) {message : Message}
    {id : HandlerId} {due : Nat} (htask : (h.state n).tasks[t]? = some ⟨i, a, false⟩)
    (hjob : a.job? = some ⟨message, .handling id due⟩) : h.EndsWork i n t := by
  obtain ⟨k, notice, a', hk, hevent, hw, hne⟩ :=
    hf.works hs htask (Activity.isOnDuty_of_job hjob) fun _ => busy_of_job hjob
  rcases hw.of_handling hjob with ⟨e, rfl⟩ | hsame
  · exact ⟨k, e, hk, hevent⟩
  · exact absurd hsame hne

/-- A search goes on up to some step, unless a handler is found or the work ends. -/
theorem Keeps.searches (hs : h.Keeps i) {message : Message} {deadline next : Nat}
    (htask : (h.state n).tasks[t]? = some ⟨i, a, false⟩)
    (hjob : a.job? = some ⟨message, .searching deadline next⟩) (hk : n ≤ k) :
    h.EndsWork i n t ∨
      (∃ q a' id due, n ≤ q ∧ (h.state q).tasks[t]? = some ⟨i, a', false⟩ ∧
        a'.job? = some ⟨message, .handling id due⟩) ∨
      ∃ a' next', (h.state k).tasks[t]? = some ⟨i, a', false⟩ ∧
        a'.job? = some ⟨message, .searching deadline next'⟩ := by
  induction hk with
  | refl => exact Or.inr (Or.inr ⟨a, next, htask, hjob⟩)
  | @step k hk ih =>
    rcases ih with hends | hhandles | ⟨a', next', htask', hjob'⟩
    · exact Or.inl hends
    · exact Or.inr (Or.inl hhandles)
    · rcases (h.step k).task_cases (h.looped k) htask' (Activity.isOnDuty_of_job hjob') (hs k)
        with hsame | ⟨notice, a'', hevent, hw⟩
      · exact Or.inr (Or.inr ⟨a', next', hsame, hjob'⟩)
      · have hafter := hw.labour.task t
        rw [if_pos rfl] at hafter
        rcases hw.of_searching hjob' with ⟨e, rfl⟩ | ⟨id, due, hjob''⟩ | ⟨next'', hjob'', -⟩ | rfl
        · exact Or.inl ⟨k, e, hk, hevent⟩
        · exact Or.inr (Or.inl ⟨k + 1, a'', id, due, Nat.le_succ_of_le hk, hafter, hjob''⟩)
        · exact Or.inr (Or.inr ⟨a'', next'', hafter, hjob''⟩)
        · exact Or.inr (Or.inr ⟨a'', next', hafter, hjob'⟩)

theorem Fair.ends_of_searching (hf : h.Fair i) (hs : h.Keeps i) {message : Message}
    {deadline next : Nat} (htask : (h.state n).tasks[t]? = some ⟨i, a, false⟩)
    (hjob : a.job? = some ⟨message, .searching deadline next⟩) : h.EndsWork i n t := by
  obtain ⟨N, hN, hlate⟩ := hf.from n deadline
  rcases hs.searches htask hjob hN with hends | ⟨q, a', id, due, hq, htask', hjob'⟩ |
    ⟨a', next', htask', hjob'⟩
  · exact hends
  · exact (hf.ends_of_handling hs htask' hjob').mono hq
  · obtain ⟨k, notice, a'', hk, hevent, hw, hne⟩ :=
      hf.works hs htask' (Activity.isOnDuty_of_job hjob') fun _ => busy_of_job hjob'
    have hafter := hw.labour.task t
    rw [if_pos rfl] at hafter
    rcases hw.of_searching hjob' with ⟨e, rfl⟩ | ⟨id, due, hjob''⟩ | ⟨next'', -, hlt⟩ | hsame
    · exact ⟨k, e, Nat.le_trans hN hk, hevent⟩
    · exact (hf.ends_of_handling hs hafter hjob'').mono (by omega)
    · exact absurd hlt (Nat.not_lt.mpr (hlate k hk))
    · exact absurd hsame hne

theorem Fair.ends_of_job (hf : h.Fair i) (hs : h.Keeps i) {job : Job}
    (htask : (h.state n).tasks[t]? = some ⟨i, a, false⟩) (hjob : a.job? = some job) :
    h.EndsWork i n t := by
  obtain ⟨message, stage⟩ := job
  cases stage with
  | handling id due => exact hf.ends_of_handling hs htask hjob
  | searching deadline next => exact hf.ends_of_searching hs htask hjob
  | arrived =>
    obtain ⟨k, notice, a', hk, -, hw, hne⟩ :=
      hf.works hs htask (Activity.isOnDuty_of_job hjob) fun _ => busy_of_job hjob
    have hafter := hw.labour.task t
    rw [if_pos rfl] at hafter
    rcases hw.of_arrived hjob with ⟨deadline, next, hjob'⟩ | hsame
    · exact (hf.ends_of_searching hs hafter hjob').mono (by omega)
    · exact absurd hsame hne

end Service

end ClusterMesh
