import ClusterMesh.Proofs.Dispatch.Standing

/-!
# Every message is looked after

What the docket says to be in the hands of a task is in the hands of a task that goes on: it is
ready, or an alarm will wake it. As long as the single worker is there, it is a task that goes on as
well, unless there is nothing left to do for it.
-/

namespace ClusterMesh.Mesh

variable {m m' : Mesh} {t u i j : Nat} {a a' : Activity} {d : Docket}
variable {e : Option (Nat × Notice)}

/-- A task goes on with a message at once, or when its alarm rings. -/
def Punctual (m : Mesh) (t : Nat) : JobStage → Prop
  | .arrived => m.IsReady t
  | .searching _ due | .handling _ due =>
    (m.HasAlarm due t ∧ m.now ≤ due) ∨ (due ≤ m.now ∧ m.IsReady t)

/-- A task goes on with its message, or with those that wait in the queue. -/
def Attentive (m : Mesh) (t i : Nat) (a : Activity) : Prop :=
  match a.job? with
  | some job => m.Punctual t job.stage
  | none => (m.station i).dispatcher.queue ≠ [] → m.IsReady t

structure Tended (m : Mesh) (i : Nat) (d : Docket) : Prop where
  held : ∀ {t}, d.held t ≠ [] →
    ∃ a job, m.tasks[t]? = some ⟨i, a, false⟩ ∧ a.job? = some job
  worker : (m.station i).dispatcher.pool = .single →
    ((m.station i).dispatcher.severed = true ∧ (m.station i).dispatcher.queue = []) ∨
      ∃ w job, (m.station i).worker = some w ∧ m.tasks[w]? = some ⟨i, .working job, false⟩
  attentive : ∀ {t : Nat} {a : Activity} {aborted : Bool},
    m.tasks[t]? = some ⟨i, a, aborted⟩ → a.IsOnDuty → aborted = false ∧ m.Attentive t i a

theorem attentive_of_job {job : Job} (h : a.job? = some job) :
    m.Attentive t i a ↔ m.Punctual t job.stage := by
  rw [Attentive, h]

theorem attentive_of_none (h : a.job? = none) :
    m.Attentive t i a ↔ ((m.station i).dispatcher.queue ≠ [] → m.IsReady t) := by
  rw [Attentive, h]

theorem Attentive.keep (h : m.Attentive t i a) (hnow : m'.now = m.now)
    (hready : m.IsReady t → m'.IsReady t) (halarm : ∀ {due}, m.HasAlarm due t → m'.HasAlarm due t)
    (hqueue : (m'.station i).dispatcher.queue ≠ [] →
      (m.station i).dispatcher.queue ≠ [] ∨ a.job? ≠ none ∨ m'.IsReady t) :
    m'.Attentive t i a := by
  cases hjob : a.job? with
  | none =>
    rw [attentive_of_none hjob] at h ⊢
    intro hnonempty
    rcases hqueue hnonempty with hold | hsome | hdone
    · exact hready (h hold)
    · exact absurd hjob hsome
    · exact hdone
  | some job =>
    rw [attentive_of_job hjob] at h ⊢
    cases hstage : job.stage with
    | arrived =>
      rw [hstage] at h
      exact hready h
    | searching _ due | handling _ due =>
      rw [hstage] at h
      simp only [Punctual, hnow] at h ⊢
      rcases h with ⟨hal, hle⟩ | ⟨hle, hre⟩
      · exact Or.inl ⟨halarm hal, hle⟩
      · exact Or.inr ⟨hle, hready hre⟩

theorem Attentive.ring (h : m.Attentive t i a) (instant : Nat) :
    (machine.ring m instant).Attentive t i a := by
  have hready : ∀ {u}, m.IsReady u → (machine.ring m instant).IsReady u := fun h =>
    (isReady_ring ..).mpr (Or.inl h)
  cases hjob : a.job? with
  | none =>
    rw [attentive_of_none hjob] at h ⊢
    exact fun hqueue => hready (h hqueue)
  | some job =>
    rw [attentive_of_job hjob] at h ⊢
    cases hstage : job.stage with
    | arrived =>
      rw [hstage] at h
      exact hready h
    | searching _ due | handling _ due =>
      rw [hstage] at h
      simp only [Punctual, now_ring, hasAlarm_ring] at h ⊢
      rcases h with ⟨halarm, hle⟩ | ⟨hle, hre⟩
      · by_cases hlt : instant < due
        · exact Or.inl ⟨⟨halarm, hlt⟩, by omega⟩
        · have hdue : due ≤ instant := by omega
          exact Or.inr ⟨by omega, (isReady_ring ..).mpr (Or.inr ⟨due, halarm, hdue⟩)⟩
      · exact Or.inr ⟨by omega, hready hre⟩

/-! ### Steps beside -/

theorem Tended.beside (h : m.Tended i d) (hb : m.Beside m' i) : m'.Tended i d where
  held := by
    intro t ht
    obtain ⟨a, job, htask, hjob⟩ := h.held ht
    exact ⟨a, job, (hb.task (Activity.isOnDuty_of_job hjob)).mpr htask, hjob⟩
  worker := by
    rw [hb.dispatcher, hb.worker]
    intro hsingle
    rcases h.worker hsingle with hdone | ⟨w, job, hworker, htask⟩
    · exact Or.inl hdone
    · have hduty : (Activity.working job).IsOnDuty := trivial
      exact Or.inr ⟨w, job, hworker, (hb.task hduty).mpr htask⟩
  attentive := by
    intro t a aborted ht hduty
    have hold := (hb.task hduty).mp ht
    obtain ⟨haborted, hattentive⟩ := h.attentive hold hduty
    refine ⟨haborted, hattentive.keep hb.now (hb.ready hold hduty) (hb.alarm hold hduty) ?_⟩
    rw [hb.dispatcher]
    exact Or.inl

theorem Tended.ring (h : m.Tended i d) (instant : Nat) : (machine.ring m instant).Tended i d where
  held := h.held
  worker := h.worker
  attentive := by
    intro t a aborted ht hduty
    obtain ⟨haborted, hattentive⟩ := h.attentive ht hduty
    exact ⟨haborted, hattentive.ring instant⟩

/-- The dispatcher of a station changes, but keeps its queue. -/
theorem Tended.updateDispatcher (h : m.Tended i d) (hi : i < m.stations.length)
    {f : Dispatcher → Dispatcher} (hpool : ∀ d : Dispatcher, (f d).pool = d.pool)
    (hqueue : ∀ d : Dispatcher, (f d).queue = d.queue)
    (hsevered : ∀ d : Dispatcher, d.severed = true → (f d).severed = true) :
    (m.updateDispatcher i f).Tended i d := by
  have hstation := station_updateDispatcher_self hi f
  refine ⟨h.held, ?_, ?_⟩
  · rw [hstation]
    intro hsingle
    rcases h.worker ((hpool _).symm.trans hsingle) with ⟨hdone, hempty⟩ | hworker
    · exact Or.inl ⟨hsevered _ hdone, (hqueue _).trans hempty⟩
    · exact Or.inr hworker
  · intro t a aborted ht hduty
    obtain ⟨haborted, hattentive⟩ := h.attentive ht hduty
    refine ⟨haborted, hattentive.keep rfl id id ?_⟩
    rw [hstation]
    intro hnonempty
    exact Or.inl fun hempty => hnonempty ((hqueue _).trans hempty)

theorem Tended.sever (h : m.Tended i d) (hi : i < m.stations.length) :
    (m.sever i).Tended i d := by
  have hsevered : (m.updateDispatcher i Dispatcher.sever).Tended i d :=
    h.updateDispatcher hi (fun _ => rfl) (fun _ => rfl) fun _ _ => rfl
  exact hsevered.beside (beside_wakeWorker _ i i)

/-! ### Messages for the dispatcher -/

/-- A message waits in the queue of the worker, which is ready if it has nothing else to do. -/
theorem isReady_deliver_of_free {aborted : Bool} {message : Message}
    {after : Dispatcher × Admission} (hi : i < m.stations.length)
    (hworker : (m.station i).worker = some t)
    (htask : m.tasks[t]? = some ⟨j, .working none, aborted⟩) (hqueued : after.2 = .queued) :
    (m.deliver i message after).IsReady t := by
  have hstation := station_updateDispatcher_self hi fun _ => after.1
  obtain ⟨hadmission, -⟩ | ⟨-, heq⟩ | ⟨hadmission, -⟩ := m.deliver_cases i message after
  · rw [hqueued] at hadmission
    cases hadmission
  · have htask' : (m.updateDispatcher i fun _ => after.1).tasks[t]? =
        some ⟨j, .working none, aborted⟩ := htask
    rw [heq]
    simp only [wakeWorker, hstation, hworker, htask']
    exact (isReady_wake ..).mpr (Or.inr rfl)
  · rw [hqueued] at hadmission
    cases hadmission

/-- A message that comes is in the hands of a task that goes on, waits for one, or is dropped. -/
theorem Tended.deliver (h : m.Tended i d) (hk : m.Kept i d) (hi : i < m.stations.length)
    {message : Message} {after : Dispatcher × Admission}
    (hd : (m.station i).dispatcher.Disposes message after) (origin : Option Nat) :
    (m.deliver i message after).Tended i (d ++ [⟨message, origin, m.fateFor after.2⟩]) := by
  have hstation := (m.station_deliver i message after i).trans (if_pos ⟨rfl, hi⟩)
  have htasks := m.tasks_deliver i message after
  refine ⟨?_, ?_, ?_⟩
  · intro t ht
    by_cases hnew : after.2 = .started ∧ t = m.tasks.length
    · exact ⟨_, _, (htasks t).trans (if_pos hnew), rfl⟩
    · rw [m.held_fateFor hnew] at ht
      obtain ⟨a, job, htask, hjob⟩ := h.held ht
      exact ⟨a, job, tasks_deliver_of_some i message after htask, hjob⟩
  · rw [hstation]
    obtain ⟨entering, queue, stats, heq⟩ := hd.frame
    intro hsingle
    rw [heq] at hsingle
    rcases h.worker hsingle with ⟨hsevered, hempty⟩ | ⟨w, job, hworker, htask⟩
    · have hnot : after.2 ≠ .queued := by
        intro hqueued
        rw [(hd.open_of_queued hqueued).2] at hsevered
        cases hsevered
      refine Or.inl ⟨by rw [heq]; exact hsevered, ?_⟩
      rw [hd.queue_eq, if_neg hnot, hempty]
    · exact Or.inr ⟨w, job, hworker, tasks_deliver_of_some i message after htask⟩
  · intro t a aborted ht hduty
    rw [htasks] at ht
    split at ht
    · next hnew =>
      cases Option.some.inj ht
      rw [hnew.2]
      exact ⟨rfl, m.isReady_deliver_of_started i message _ hnew.1⟩
    · obtain ⟨haborted, hattentive⟩ := h.attentive ht hduty
      refine ⟨haborted, hattentive.keep (m.now_deliver ..) ?_ ?_ ?_⟩
      · exact fun hready => m.isReady_deliver i message after hready
      · intro due halarm
        rwa [HasAlarm, alarms_deliver]
      · rw [hstation, hd.queue_eq]
        split
        · next hqueued =>
          intro _
          -- a worker that has a message already will come to the queue, and a free one is woken
          cases hjob : a.job? with
          | some job => exact Or.inr (Or.inl (Option.some_ne_none job))
          | none =>
            refine Or.inr (Or.inr ?_)
            cases a with
            | working job =>
              obtain rfl : job = none := hjob
              exact isReady_deliver_of_free hi (hk.worker ht) ht hqueued
            | dispatching job => cases hjob
            | _ => exact hduty.elim
        · exact Or.inl

theorem Tended.addStation (h : m.Tended i d) (hk : m.Kept i d) {s : Station} (hs : s.IsFresh) :
    (m.addStation s).1.Tended i d := by
  rcases Nat.lt_or_ge i m.stations.length with hlt | hge
  · exact h.beside (beside_addStation hlt s)
  obtain rfl := hk.placed hge
  have hstation := station_addStation m s i
  by_cases hi : i = m.stations.length
  · rw [if_pos hi] at hstation
    obtain ⟨interval, timeout, pool, hdispatcher⟩ := hs.dispatcher
    have hqueue : ((m.addStation s).1.station i).dispatcher.queue = [] := by
      rw [hstation]
      split <;> rw [hdispatcher] <;> rfl
    refine ⟨fun ht => absurd rfl ht, ?_, ?_⟩
    · rw [hstation]
      intro hsingle
      cases hpool : s.dispatcher.pool with
      | cached =>
        simp only [hpool] at hsingle
        cases hsingle
      | single =>
        refine Or.inr ⟨m.tasks.length, none, rfl, ?_⟩
        rw [tasks_addStation, if_pos ⟨hpool, rfl⟩, hi]
    · intro t a aborted ht hduty
      rw [tasks_addStation] at ht
      split at ht
      · cases Option.some.inj ht
        exact ⟨rfl, fun hne => absurd hqueue hne⟩
      · exact absurd (hk.duty ht hduty).1 (Nat.not_lt.mpr hge)
  · rw [if_neg hi] at hstation
    refine ⟨fun ht => absurd rfl ht, ?_, ?_⟩
    · rw [hstation]
      intro hsingle
      rcases h.worker hsingle with hdone | ⟨w, job, -, htask⟩
      · exact Or.inl hdone
      · exact absurd (hk.duty htask trivial).1 (Nat.not_lt.mpr hge)
    · intro t a aborted ht hduty
      rw [tasks_addStation] at ht
      split at ht
      · cases Option.some.inj ht
        exact absurd rfl hi
      · exact absurd (hk.duty ht hduty).1 (Nat.not_lt.mpr hge)

/-! ### The work of a task -/

variable {notice : Option Notice}

theorem nextLookup?_le {d : Dispatcher} {now deadline next : Nat}
    (h : d.nextLookup? now deadline = some next) : now ≤ next := by
  unfold Dispatcher.nextLookup? at h
  split at h
  · cases h
  · obtain rfl := Option.some.inj h
    omega

/-- A task is ready to go on, or has set its alarm before it rests. -/
theorem Work.attentive (hw : m.Work t i a notice a' m') (h : m.Attentive t i a)
    (hduty : a'.IsOnDuty) : m'.Attentive t i a' := by
  cases hw with
  | @take message _ ready task next =>
    have hjob : Activity.job? (.working (some ⟨message, .arrived⟩)) = _ := rfl
    exact (attentive_of_job hjob).mpr ready
  | window hand timeout =>
    exact (attentive_of_job (a.job?_goOn _)).mpr (Or.inr ⟨Nat.le_refl _, hand.ready⟩)
  | @invoke _ message _ _ id hand due found wait =>
    refine (attentive_of_job (a.job?_goOn _)).mpr ?_
    unfold handOver
    by_cases hwait : wait = 0
    · rw [if_pos hwait, hwait]
      exact Or.inr ⟨Nat.le_refl _, hand.ready⟩
    · rw [if_neg hwait]
      exact Or.inl ⟨(hasAlarm_setAlarm ..).mpr (Or.inr ⟨rfl, rfl⟩), Nat.le_add_right _ _⟩
  | search hand due missing again =>
    refine (attentive_of_job (a.job?_goOn _)).mpr (Or.inl ⟨?_, nextLookup?_le again⟩)
    exact (hasAlarm_setAlarm ..).mpr (Or.inr ⟨rfl, rfl⟩)
  | giveUp hand due missing never | finish hand ready e =>
    refine (attentive_of_none a.job?_layDown).mpr fun _ => ?_
    obtain ⟨job, rfl, -⟩ | ⟨job, rfl, -⟩ := a.layDown_cases hand.job
    · exact hand.ready
    · exact hduty.elim
  | @rest _ job hand pauses =>
    rw [attentive_of_job hand.job] at h ⊢
    cases hstage : job.stage with
    | arrived =>
      rw [hstage] at pauses
      exact pauses.elim
    | searching _ due | handling _ due =>
      rw [hstage] at h pauses
      rcases h with halarm | ⟨hle, -⟩
      · exact Or.inl halarm
      · exact absurd pauses (Nat.not_lt.mpr hle)
  | idle task empty => exact (attentive_of_none rfl).mpr fun hne => absurd empty hne
  | quit task empty severed => exact hduty.elim

theorem Tended.work (h : m.Tended i d) (hk : m.Kept i d) (hw : m.Work t i a notice a' m') :
    m'.Tended i (d.noting notice) := by
  have hlabour := hw.labour
  have hbooked := hw.booked hk
  obtain ⟨hi, -⟩ := hk.duty hw.task_eq hw.isOnDuty
  have hstation := hlabour.station i
  rw [if_pos ⟨rfl, hi⟩] at hstation
  have hframe : ((m.station i).dispatcher.noting notice).pool = (m.station i).dispatcher.pool ∧
      ((m.station i).dispatcher.noting notice).severed = (m.station i).dispatcher.severed := by
    obtain ⟨queue, stats, heq⟩ := (m.station i).dispatcher.noting_frame notice
    rw [heq]
    exact ⟨rfl, rfl⟩
  refine ⟨?_, ?_, ?_⟩
  · intro u hu
    rw [hlabour.task]
    split
    · next hut =>
      subst hut
      cases hjob : a'.job? with
      | none => exact absurd ((Docket.bears_iff_of_none hjob).mp hbooked.bears) hu
      | some job => exact ⟨a', job, rfl, hjob⟩
    · next hne =>
      rw [hbooked.others hne] at hu
      exact h.held hu
  · rw [hstation]
    intro hsingle
    rcases h.worker (hframe.1 ▸ hsingle) with ⟨hdone, hqueue⟩ | ⟨w, job, hworker, htask⟩
    · exact Or.inl ⟨hframe.2.trans hdone, Dispatcher.queue_noting notice hqueue⟩
    · by_cases hwt : w = t
      · subst hwt
        rw [hw.task_eq] at htask
        obtain rfl : a = .working job := congrArg Task.activity (Option.some.inj htask)
        rcases hw.working with ⟨job', rfl⟩ | ⟨hdone, hqueue, rfl⟩
        · exact Or.inr ⟨w, job', hworker, (hlabour.task w).trans (if_pos rfl)⟩
        · exact Or.inl ⟨hdone, hqueue⟩
      · exact Or.inr ⟨w, job, hworker, (hlabour.task w).trans ((if_neg hwt).trans htask)⟩
  · intro u b aborted hu hduty
    rw [hlabour.task] at hu
    split at hu
    · next hut =>
      subst hut
      cases Option.some.inj hu
      obtain ⟨-, hattentive⟩ := h.attentive hw.task_eq hw.isOnDuty
      exact ⟨rfl, hw.attentive hattentive hduty⟩
    · next hne =>
      obtain ⟨haborted, hattentive⟩ := h.attentive hu hduty
      refine ⟨haborted, hattentive.keep hlabour.now (hlabour.ready hne) (hlabour.alarm hne) ?_⟩
      rw [hstation]
      intro hnonempty
      exact Or.inl fun hempty => hnonempty (Dispatcher.queue_noting notice hempty)

/-- Every step keeps the messages looked after, as long as the worker is there. -/
theorem Tended.step (h : m.Tended i d) (hk : m.Kept i d) (hl : m.Looped) (hd : m.Duty e m')
    (he : e ≠ some (i, .failed)) : m'.Tended i (d.follow i e) := by
  cases hd.sight hl i with
  | aside beside silent =>
    rw [Docket.follow_of_silent d silent]
    exact h.beside beside
  | ring instant later => exact h.ring instant
  | found fresh => exact h.addStation hk fresh
  | given beside placed disposes origin =>
    rw [Docket.follow_own]
    exact (h.beside beside).deliver (hk.beside beside) placed disposes origin
  | entered beside placed c =>
    rw [Docket.follow_own]
    exact (h.beside beside).updateDispatcher placed (fun _ => rfl) (fun _ => rfl) fun _ => id
  | closed placed =>
    rw [Docket.follow_own]
    exact h.updateDispatcher placed (fun _ => rfl) (fun _ => rfl) fun _ => id
  | severed placed =>
    rw [Docket.follow_own]
    exact h.sever placed
  | failed task => exact absurd rfl he
  | worked hw =>
    rw [Docket.follow_map]
    exact h.work hk hw

end ClusterMesh.Mesh

namespace ClusterMesh.Service

/-- Up to the failure of the worker all messages are looked after. -/
theorem tended (h : Service) (i n : Nat) (hthere : ∀ q < n, h.event q ≠ some (i, .failed)) :
    (h.state n).Tended i (h.docket i n) := by
  induction n with
  | zero =>
    obtain ⟨capacity, hstart⟩ := h.start
    rw [hstart]
    refine ⟨fun ht => absurd rfl ht, nofun, ?_⟩
    intro t a aborted ht
    cases ht
  | succ n ih =>
    have hbefore := ih fun q hq => hthere q (Nat.lt_succ_of_lt hq)
    exact hbefore.step (h.kept i n) (h.looped n) (h.step n) (hthere n (Nat.lt_succ_self n))

end ClusterMesh.Service
