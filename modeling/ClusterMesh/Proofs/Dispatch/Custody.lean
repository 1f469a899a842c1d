import ClusterMesh.Proofs.Dispatch.Loops

/-!
# Every message is accounted for

The counters and the queue of a dispatcher are those of its docket, apart from the calls under way,
and what the docket says to be in the hands of a task is what the task has in hand. Every step keeps
it so.
-/

namespace ClusterMesh

/-- What has become of a message at a stage of the work on it. -/
def JobStage.fate (t : Nat) : JobStage → Fate
  | .handling _ _ => .invoked t
  | _ => .taken t

namespace Docket

variable {d d' : Docket} {t u : Nat} {a a' : Activity} {x : Intake} {job job' : Job}

/-- What a task holds is what it has in hand. -/
def Bears (d : Docket) (t : Nat) (a : Activity) : Prop :=
  match a.job? with
  | some job => ∃ x, d.held t = [x] ∧ x.message = job.message ∧ x.fate = job.stage.fate t
  | none => d.held t = []

theorem bears_iff_of_job (h : a.job? = some job) : d.Bears t a ↔
    ∃ x, d.held t = [x] ∧ x.message = job.message ∧ x.fate = job.stage.fate t := by
  rw [Bears, h]

theorem bears_iff_of_none (h : a.job? = none) : d.Bears t a ↔ d.held t = [] := by
  rw [Bears, h]

theorem Bears.congr (h : d.Bears t a) (hheld : d'.held t = d.held t) : d'.Bears t a := by
  unfold Bears at h ⊢
  rwa [hheld]

theorem Bears.goOn (h : d.Bears t a) (hjob : a.job? = some job) (ha : a'.job? = some job')
    (hmessage : job'.message = job.message) (hfate : job'.stage.fate t = job.stage.fate t) :
    d.Bears t a' := by
  obtain ⟨x, hx, hxm, hxf⟩ := (bears_iff_of_job hjob).mp h
  exact (bears_iff_of_job ha).mpr ⟨x, hx, hxm.trans hmessage.symm, hxf.trans hfate.symm⟩

/-- The docket after a step of the work of a task. -/
def noting (d : Docket) : Option Notice → Docket
  | some notice => d.after notice
  | none => d

theorem follow_map (d : Docket) (i : Nat) (notice : Option Notice) :
    d.follow i (notice.map fun notice => (i, notice)) = d.noting notice := by
  cases notice with
  | none => rfl
  | some notice => exact d.follow_own i notice

end Docket

namespace Mesh

variable {m m' : Mesh} {t u i j : Nat} {a a' : Activity} {notice : Option Notice} {d : Docket}
variable {e : Option (Nat × Notice)}

/-- The docket of a station tells how its dispatcher and the tasks that work for it stand. -/
structure Kept (m : Mesh) (i : Nat) (d : Docket) : Prop where
  placed : m.stations.length ≤ i → d = []
  stats : (m.station i).dispatcher.stats =
    d.stats.holding (m.station i).dispatcher.entering.length
  queue : (m.station i).dispatcher.queue = d.queued.map Intake.message
  duty : ∀ {t : Nat} {a : Activity} {aborted : Bool}, m.tasks[t]? = some ⟨i, a, aborted⟩ →
    a.IsOnDuty → i < m.stations.length ∧ d.Bears t a
  fresh : ∀ {t}, m.tasks.length ≤ t → d.held t = []
  cached : (m.station i).dispatcher.pool = .cached → d.queued = []
  worker : ∀ {t : Nat} {job : Option Job} {aborted : Bool},
    m.tasks[t]? = some ⟨i, .working job, aborted⟩ → (m.station i).worker = some t

/-- Neither the counters nor the queue have changed, and no task has come to the dispatcher. -/
theorem Kept.carry (h : m.Kept i d) (hstations : m.stations.length ≤ m'.stations.length)
    (hpool : (m'.station i).dispatcher.pool = (m.station i).dispatcher.pool)
    (hstats : (m'.station i).dispatcher.stats = (m.station i).dispatcher.stats)
    (hentering : (m'.station i).dispatcher.entering = (m.station i).dispatcher.entering)
    (hqueue : (m'.station i).dispatcher.queue = (m.station i).dispatcher.queue)
    (hworker : (m'.station i).worker = (m.station i).worker)
    (hgrows : m.tasks.length ≤ m'.tasks.length)
    (htask : ∀ {t : Nat} {a : Activity} {aborted : Bool}, m'.tasks[t]? = some ⟨i, a, aborted⟩ →
      a.IsOnDuty → m.tasks[t]? = some ⟨i, a, aborted⟩) : m'.Kept i d where
  placed := fun hi => h.placed (Nat.le_trans hstations hi)
  stats := by
    rw [hstats, hentering]
    exact h.stats
  queue := hqueue.trans h.queue
  duty := by
    intro t a aborted ht hduty
    obtain ⟨hi, hbears⟩ := h.duty (htask ht hduty) hduty
    exact ⟨Nat.lt_of_lt_of_le hi hstations, hbears⟩
  fresh := fun ht => h.fresh (Nat.le_trans hgrows ht)
  cached := fun hcached => h.cached (hpool ▸ hcached)
  worker := fun ht => hworker.trans (h.worker (htask ht trivial))

theorem Kept.beside (h : m.Kept i d) (hb : m.Beside m' i) : m'.Kept i d := by
  have hdispatcher := hb.dispatcher
  refine h.carry hb.stations ?_ ?_ ?_ ?_ hb.worker hb.grows fun ht hduty => (hb.task hduty).mp ht
  · rw [hdispatcher]
  · rw [hdispatcher]
  · rw [hdispatcher]
  · rw [hdispatcher]

/-! ### The work of a task -/

/-- What a step of the work of a task does to the docket. -/
structure Booked (m : Mesh) (t i : Nat) (notice : Option Notice) (a' : Activity) (d d' : Docket) :
    Prop where
  stats : ((m.station i).dispatcher.noting notice).stats =
    d'.stats.holding (m.station i).dispatcher.entering.length
  queue : ((m.station i).dispatcher.noting notice).queue = d'.queued.map Intake.message
  bears : d'.Bears t a'
  others : ∀ {u}, u ≠ t → d'.held u = d.held u

theorem Kept.booked_take (h : m.Kept i d) {message : Message} {d' : Dispatcher}
    (htask : m.tasks[t]? = some ⟨i, .working none, false⟩)
    (hnext : (m.station i).dispatcher.takeQueued? = some (message, d')) :
    m.Booked t i (some (.took t)) (.working (some ⟨message, .arrived⟩)) d (d.take t) := by
  obtain ⟨hqueue, -⟩ := Dispatcher.takeQueued?_eq_some hnext
  have hduty : (Activity.working none).IsOnDuty := trivial
  have hnone : d.held t = [] := (Docket.bears_iff_of_none rfl).mp (h.duty htask hduty).2
  cases hqueued : d.queued with
  | nil =>
    rw [h.queue, hqueued] at hqueue
    cases hqueue
  | cons x rest =>
    obtain ⟨d₁, d₂, hd, hx, hd₁, hd₂, htake⟩ := Docket.take_split t hqueued
    have hmap : message :: (m.station i).dispatcher.queue.tail =
        x.message :: rest.map Intake.message := by
      rw [← hqueue, h.queue, hqueued]
      rfl
    obtain ⟨hmessage, htail⟩ := List.cons.inj hmap
    have hopen : x.fate.isOpen = true := by rw [hx]; rfl
    have hholder : ∀ u, x.fate.holder? ≠ some u := by
      intro u
      rw [hx]
      exact fun hu => nomatch hu
    have htaken : (Fate.taken t).holder? = some t := rfl
    rw [htake]
    refine ⟨?_, ?_, ?_, ?_⟩
    · refine h.stats.trans (congrArg (DispatchStats.holding · _) ?_)
      rw [hd]
      exact (Docket.stats_replaced hopen rfl d₁ d₂).symm
    · rw [Docket.queued_append, Docket.queued_cons, hd₁, hd₂]
      exact htail
    · rw [hd, Docket.held_append, List.append_eq_nil_iff] at hnone
      refine (Docket.bears_iff_of_job rfl).mpr ⟨{ x with fate := .taken t }, ?_, hmessage.symm, rfl⟩
      rw [Docket.held_append, hnone.1, Docket.held_cons_of_holder htaken,
        ← Docket.held_cons_of_ne (hholder t), hnone.2]
      rfl
    · intro u hu
      have htu : (Fate.taken t).holder? ≠ some u := fun heq => hu (Option.some.inj heq).symm
      rw [hd, Docket.held_append, Docket.held_append, Docket.held_cons_of_ne (hholder u)]
      exact congrArg _ (Docket.held_cons_of_ne htu)

theorem Kept.booked_move (h : m.Kept i d) {job : Job} (hand : m.InHand t i a job) {f : Fate}
    {notice : Option Notice}
    (hqueue : ((m.station i).dispatcher.noting notice).queue = (m.station i).dispatcher.queue)
    (hstats : ∀ d₁ d₂ x, d = d₁ ++ x :: d₂ → x.fate.isOpen = true →
      ((m.station i).dispatcher.noting notice).stats =
        (Docket.stats (d₁ ++ { x with fate := f } :: d₂)).holding
          (m.station i).dispatcher.entering.length)
    (hf : f.isQueued = false) (hother : ∀ {u}, u ≠ t → f.holder? ≠ some u)
    (hbears : ∀ {x}, d.held t = [x] → x.message = job.message → (d.move t f).Bears t a') :
    m.Booked t i notice a' d (d.move t f) := by
  have hduty := Activity.isOnDuty_of_job hand.job
  obtain ⟨x, hx, hmessage, -⟩ := (Docket.bears_iff_of_job hand.job).mp (h.duty hand.task hduty).2
  obtain ⟨d₁, d₂, hd, h₁, h₂⟩ := Docket.split_of_held hx
  have hholder := Docket.holder_of_held hx
  have hmove : d.move t f = d₁ ++ { x with fate := f } :: d₂ := by
    rw [hd]
    exact Docket.move_split hholder h₁ h₂ f
  refine ⟨?_, ?_, hbears hx hmessage, fun hu => Docket.held_move_of_ne hu (hother hu) d⟩
  · rw [hmove]
    exact hstats d₁ d₂ x hd (Fate.isOpen_of_holder hholder)
  · rw [hqueue, h.queue, Docket.queued_move hf]

theorem Kept.booked_ended (h : m.Kept i d) {job : Job} (hand : m.InHand t i a job)
    (e : DispatchEnd) :
    m.Booked t i (some (.ended t e)) a.layDown d (d.move t (.ended e)) := by
  refine h.booked_move hand rfl ?_ rfl (fun _ heq => nomatch heq) ?_
  · intro d₁ d₂ x hd hx
    have hsome : 0 < d.stats.inFlight := by
      rw [hd]
      exact Docket.inFlight_pos hx d₁ d₂
    rw [Docket.stats_ended hx, ← hd, ← Docket.finish_holding hsome, ← h.stats]
    rfl
  · intro x hx _
    refine (Docket.bears_iff_of_none a.job?_layDown).mpr ?_
    rw [Docket.held_move hx]
    exact if_neg fun heq => nomatch heq

theorem Kept.booked_same (h : m.Kept i d) {notice : Option Notice}
    (hnotice : ∀ d : Dispatcher, d.noting notice = d) (hbears : d.Bears t a') :
    m.Booked t i notice a' d d where
  stats := by rw [hnotice, h.stats]
  queue := by rw [hnotice, h.queue]
  bears := hbears
  others := fun _ => rfl

theorem Work.booked (hw : m.Work t i a notice a' m') (h : m.Kept i d) :
    m.Booked t i notice a' d (d.noting notice) := by
  have hbears := (h.duty hw.task_eq hw.isOnDuty).2
  cases hw with
  | take ready task next => exact h.booked_take task next
  | window hand timeout =>
    exact h.booked_same (fun _ => rfl) (hbears.goOn hand.job (a.job?_goOn _) rfl rfl)
  | invoke hand due found wait =>
    refine h.booked_move hand rfl ?_ rfl (fun hu heq => hu (Option.some.inj heq).symm) ?_
    · intro d₁ d₂ x hd hx
      refine h.stats.trans (congrArg (DispatchStats.holding · _) ?_)
      rw [hd]
      exact (Docket.stats_replaced hx rfl d₁ d₂).symm
    · intro x hx hmessage
      refine (Docket.bears_iff_of_job (a.job?_goOn _)).mpr
        ⟨{ x with fate := .invoked t }, ?_, hmessage, rfl⟩
      rw [Docket.held_move hx]
      exact if_pos rfl
  | search hand due missing again =>
    exact h.booked_same (fun _ => rfl) (hbears.goOn hand.job (a.job?_goOn _) rfl rfl)
  | giveUp hand due missing never => exact h.booked_ended hand _
  | finish hand ready e => exact h.booked_ended hand _
  | rest hand pauses => exact h.booked_same (fun _ => rfl) hbears
  | idle task empty => exact h.booked_same (fun _ => rfl) hbears
  | quit task empty severed => exact h.booked_same (fun _ => rfl) hbears

theorem Work.working {job : Option Job} (hw : m.Work t i (.working job) notice a' m') :
    (∃ job, a' = .working job) ∨ ((m.station i).dispatcher.severed = true ∧
      (m.station i).dispatcher.queue = [] ∧ notice = none) := by
  generalize ha : Activity.working job = a at hw
  cases hw with
  | take ready task next => exact Or.inl ⟨_, rfl⟩
  | window _ _ | invoke _ _ _ _ | search _ _ _ _ | giveUp _ _ _ _ | finish _ _ _ =>
    subst ha
    exact Or.inl ⟨_, rfl⟩
  | rest _ _ => exact Or.inl ⟨job, ha.symm⟩
  | idle task empty => exact Or.inl ⟨none, rfl⟩
  | quit task empty severed => exact Or.inr ⟨severed, empty, rfl⟩

/-- Whoever goes on as a worker has been one. -/
theorem Work.of_working {job : Option Job} (hw : m.Work t i a notice (.working job) m') :
    ∃ job, a = .working job := by
  have hgo : ∀ {job job'}, Activity.working job = a.goOn job' → ∃ job, a = .working job := by
    intro job job' heq
    cases a with
    | working old => exact ⟨old, rfl⟩
    | _ => cases heq
  have hlay : ∀ {job}, Activity.working job = a.layDown → ∃ job, a = .working job := by
    intro job heq
    cases a with
    | working old => exact ⟨old, rfl⟩
    | _ => cases heq
  generalize ha' : Activity.working job = a' at hw
  cases hw with
  | take _ _ _ | idle _ _ => exact ⟨_, rfl⟩
  | window _ _ | invoke _ _ _ _ | search _ _ _ _ => exact hgo ha'
  | giveUp _ _ _ _ | finish _ _ _ => exact hlay ha'
  | rest _ _ => exact ⟨job, ha'.symm⟩
  | quit _ _ _ => cases ha'

theorem Kept.work (h : m.Kept i d) (hw : m.Work t i a notice a' m') :
    m'.Kept i (d.noting notice) := by
  have hlabour := hw.labour
  have hbooked := hw.booked h
  have hduty := hw.isOnDuty
  obtain ⟨hi, -⟩ := h.duty hw.task_eq hduty
  have hstation : m'.station i =
      { m.station i with dispatcher := (m.station i).dispatcher.noting notice } :=
    (hlabour.station i).trans (if_pos ⟨rfl, hi⟩)
  have hframe : ((m.station i).dispatcher.noting notice).pool = (m.station i).dispatcher.pool ∧
      ((m.station i).dispatcher.noting notice).entering = (m.station i).dispatcher.entering := by
    obtain ⟨queue, stats, heq⟩ := (m.station i).dispatcher.noting_frame notice
    rw [heq]
    exact ⟨rfl, rfl⟩
  have hold : ∀ {u b aborted}, u ≠ t → m'.tasks[u]? = some ⟨i, b, aborted⟩ →
      m.tasks[u]? = some ⟨i, b, aborted⟩ := by
    intro u b aborted hu htask
    rwa [hlabour.task, if_neg hu] at htask
  exact {
    placed := fun hle => absurd (hlabour.stations ▸ hle) (Nat.not_le.mpr hi)
    stats := by rw [hstation, hbooked.stats, hframe.2]
    queue := by rw [hstation, hbooked.queue]
    duty := by
      intro u b aborted htask hb
      refine ⟨hlabour.stations ▸ hi, ?_⟩
      by_cases hu : u = t
      · subst hu
        rw [hlabour.task, if_pos rfl] at htask
        cases Option.some.inj htask
        exact hbooked.bears
      · exact (h.duty (hold hu htask) hb).2.congr (hbooked.others hu)
    fresh := by
      intro u hu
      rw [hlabour.length] at hu
      have hne : u ≠ t := by
        rintro rfl
        obtain ⟨hlt, -⟩ := List.getElem?_eq_some_iff.mp hw.task_eq
        omega
      rw [hbooked.others hne, h.fresh hu]
    cached := by
      rw [hstation]
      intro hcached
      have hempty : (m.station i).dispatcher.queue = [] := by
        rw [h.queue, h.cached (hframe.1 ▸ hcached)]
        rfl
      have hafter := Dispatcher.queue_noting notice hempty
      rw [hbooked.queue] at hafter
      exact List.map_eq_nil_iff.mp hafter
    worker := by
      rw [hstation]
      intro u job aborted htask
      by_cases hu : u = t
      · subst hu
        rw [hlabour.task, if_pos rfl] at htask
        obtain rfl : a' = .working job := congrArg Task.activity (Option.some.inj htask)
        obtain ⟨old, rfl⟩ := hw.of_working
        exact h.worker hw.task_eq
      · exact h.worker (hold hu htask) }

/-! ### The other steps at a station -/

theorem stats_fateFor (m : Mesh) (admission : Admission) (message : Message) (origin : Option Nat)
    (d : Docket) : Docket.stats (d ++ [⟨message, origin, m.fateFor admission⟩]) =
      if admission = .refused then d.stats.refuse else d.stats.accept := by
  cases admission with
  | refused => exact Docket.stats_refused rfl d
  | queued => exact Docket.stats_accepted rfl d
  | started => exact Docket.stats_accepted rfl d

theorem queued_fateFor (m : Mesh) (admission : Admission) (message : Message)
    (origin : Option Nat) (d : Docket) :
    (Docket.queued (d ++ [⟨message, origin, m.fateFor admission⟩])).map Intake.message =
      if admission = .queued then d.queued.map Intake.message ++ [message]
      else d.queued.map Intake.message := by
  rw [Docket.queued_append, Docket.queued_cons, List.map_append]
  cases admission with
  | refused => exact List.append_nil _
  | queued => rfl
  | started => exact List.append_nil _

theorem holder?_fateFor (m : Mesh) (admission : Admission) :
    (m.fateFor admission).holder? = if admission = .started then some m.tasks.length else none := by
  cases admission <;> rfl

/-- Only a task that has just begun has a message in its hands that has just come. -/
theorem held_fateFor (m : Mesh) {admission : Admission} {u : Nat}
    (h : ¬(admission = .started ∧ u = m.tasks.length)) (message : Message) (origin : Option Nat)
    (d : Docket) : Docket.held (d ++ [⟨message, origin, m.fateFor admission⟩]) u = d.held u := by
  refine Docket.held_concat_of_ne (fun heq => h ?_) d
  have hholder := m.holder?_fateFor admission
  rw [show (m.fateFor admission).holder? = some u from heq] at hholder
  split at hholder
  · next hstarted => exact ⟨hstarted, Option.some.inj hholder⟩
  · cases hholder

/-- A call ends, and its message is in the docket. -/
theorem Kept.deliver (h : m.Kept i d) (hi : i < m.stations.length) {message : Message}
    {after : Dispatcher × Admission}
    (hd : (m.station i).dispatcher.Disposes message after) (origin : Option Nat) :
    (m.deliver i message after).Kept i (d ++ [⟨message, origin, m.fateFor after.2⟩]) := by
  have hstation := (m.station_deliver i message after i).trans (if_pos ⟨rfl, hi⟩)
  have hlength := m.length_deliver i message after
  have htasks := m.tasks_deliver i message after
  have hpool : after.1.pool = (m.station i).dispatcher.pool := by
    obtain ⟨entering, queue, stats, heq⟩ := hd.frame
    rw [heq]
  have hold : ∀ {u task}, m.tasks[u]? = some task → ¬(after.2 = .started ∧ u = m.tasks.length) := by
    intro u task hu hnew
    obtain ⟨hlt, -⟩ := List.getElem?_eq_some_iff.mp hu
    exact Nat.ne_of_lt hlt hnew.2
  exact {
    placed := fun hle => absurd (hlength ▸ hle) (Nat.not_le.mpr hi)
    stats := by rw [hstation, m.stats_fateFor, hd.stats_eq h.stats]
    queue := by rw [hstation, m.queued_fateFor, hd.queue_eq, h.queue]
    duty := by
      intro u a aborted hu hduty
      refine ⟨hlength ▸ hi, ?_⟩
      rw [htasks] at hu
      split at hu
      · next hnew =>
        cases Option.some.inj hu
        have hholder := (m.holder?_fateFor after.2).trans (if_pos hnew.1)
        rw [← hnew.2] at hholder
        refine (Docket.bears_iff_of_job rfl).mpr ⟨⟨message, origin, m.fateFor after.2⟩, ?_, rfl, ?_⟩
        · rw [Docket.held_append, Docket.held_cons_of_holder hholder,
            h.fresh (Nat.le_of_eq hnew.2.symm)]
          rfl
        · rw [hnew.1, hnew.2]
          rfl
      · exact (h.duty hu hduty).2.congr (m.held_fateFor (hold hu) message origin d)
    fresh := by
      intro u hu
      rw [m.grows_deliver] at hu
      have hnot : ¬(after.2 = .started ∧ u = m.tasks.length) := by
        rintro ⟨hstarted, rfl⟩
        rw [if_pos hstarted] at hu
        exact Nat.not_succ_le_self _ hu
      rw [m.held_fateFor hnot, h.fresh (Nat.le_trans (Nat.le_add_right _ _) hu)]
    cached := by
      rw [hstation]
      intro hcached
      have hnot : after.2 ≠ .queued := by
        intro hqueued
        have hsingle := (hd.open_of_queued hqueued).1
        rw [← hpool, show after.1.pool = .cached from hcached] at hsingle
        cases hsingle
      rw [← List.map_eq_nil_iff, m.queued_fateFor, if_neg hnot, h.cached (hpool ▸ hcached)]
      rfl
    worker := by
      rw [hstation]
      intro u job aborted hu
      rw [htasks] at hu
      split at hu
      · cases Option.some.inj hu
      · exact h.worker hu }

/-- The dispatcher of a station changes in ways that do not matter to its docket. -/
theorem Kept.updateDispatcher (h : m.Kept i d) {f : Dispatcher → Dispatcher}
    (hpool : (f (m.station i).dispatcher).pool = (m.station i).dispatcher.pool)
    (hstats : ∀ {s : DispatchStats},
      (m.station i).dispatcher.stats = s.holding (m.station i).dispatcher.entering.length →
        (f (m.station i).dispatcher).stats =
          s.holding (f (m.station i).dispatcher).entering.length)
    (hqueue : (f (m.station i).dispatcher).queue = (m.station i).dispatcher.queue) :
    (m.updateDispatcher i f).Kept i d := by
  by_cases hi : i < m.stations.length
  · have hstation := station_updateDispatcher_self hi f
    exact {
      placed := fun hle => h.placed (Nat.le_trans (Nat.le_of_eq (length_updateDispatcher ..).symm) hle)
      stats := by
        rw [hstation]
        exact hstats h.stats
      queue := by
        rw [hstation]
        exact hqueue.trans h.queue
      duty := fun ht hduty =>
        ⟨Nat.lt_of_lt_of_eq hi (length_updateDispatcher ..).symm, (h.duty ht hduty).2⟩
      fresh := h.fresh
      cached := by
        rw [hstation]
        exact fun hcached => h.cached (hpool ▸ hcached)
      worker := by
        rw [hstation]
        exact h.worker }
  · have hstation : (m.updateDispatcher i f).station i = m.station i :=
      (station_updateDispatcher m i i f).trans (if_neg fun hij => hi hij.2)
    apply h.carry (Nat.le_of_eq (length_updateDispatcher ..).symm)
    · rw [hstation]
    · rw [hstation]
    · rw [hstation]
    · rw [hstation]
    · rw [hstation]
    · exact Nat.le_refl _
    · exact fun ht _ => ht

theorem Kept.beginDispatch (h : m.Kept i d) (c : DispatchCall) :
    (m.beginDispatch i c).Kept i d := by
  refine h.updateDispatcher rfl (fun {s} hs => ?_) rfl
  have henter : ((m.station i).dispatcher.enter c).stats =
      (m.station i).dispatcher.stats.accept := rfl
  have hlength : ((m.station i).dispatcher.enter c).entering.length =
      (m.station i).dispatcher.entering.length + 1 := List.length_append
  rw [henter, hs, hlength, Docket.holding_succ, Docket.accept_holding]

theorem Kept.close (h : m.Kept i d) : (m.close i).Kept i d :=
  h.updateDispatcher rfl id rfl

theorem Kept.sever (h : m.Kept i d) : (m.sever i).Kept i d := by
  have hsevered : (m.updateDispatcher i Dispatcher.sever).Kept i d := h.updateDispatcher rfl id rfl
  exact hsevered.beside (beside_wakeWorker _ i i)

theorem Kept.loseWorker (h : m.Kept i d) (t : Nat) : (m.loseWorker i t).Kept i d := by
  have hgone : (m.updateDispatcher i fun d => { d with workerGone := true }).Kept i d :=
    h.updateDispatcher rfl id rfl
  refine hgone.carry (Nat.le_refl _) rfl rfl rfl rfl rfl
    (Nat.le_of_eq (length_setActivity ..).symm) fun hu hduty => ?_
  exact (task_of_finish hu hduty.not_isEnded).2

theorem Kept.addStation (h : m.Kept i d) {s : Station} (hs : s.IsFresh) :
    (m.addStation s).1.Kept i d := by
  have hlength := stations_addStation m s
  have hgrows : m.tasks.length ≤ (m.addStation s).1.tasks.length := by
    simp only [Mesh.addStation]
    split
    · exact Nat.le_refl _
    · simp [updateStation, spawn]
  by_cases hi : i = m.stations.length
  · subst hi
    obtain rfl := h.placed (Nat.le_refl _)
    have hstation := station_addStation m s m.stations.length
    rw [if_pos rfl] at hstation
    obtain ⟨interval, timeout, pool, hdispatcher⟩ := hs.dispatcher
    have hnew : ((m.addStation s).1.station m.stations.length).dispatcher =
        Dispatcher.start interval timeout pool := by
      rw [hstation, ← hdispatcher]
      split <;> rfl
    exact {
      placed := fun _ => rfl
      stats := by rw [hnew]; rfl
      queue := by rw [hnew]; rfl
      duty := by
        intro t a aborted ht hduty
        rw [tasks_addStation] at ht
        split at ht
        · cases Option.some.inj ht
          exact ⟨by omega, rfl⟩
        · exact absurd (h.duty ht hduty).1 (Nat.lt_irrefl _)
      fresh := fun _ => rfl
      cached := fun _ => rfl
      worker := by
        intro t job aborted ht
        rw [tasks_addStation] at ht
        split at ht
        · next hworker =>
          rw [hstation, hworker.1, hworker.2]
        · exact absurd (h.duty ht trivial).1 (Nat.lt_irrefl _) }
  · have hstation := station_addStation m s i
    rw [if_neg hi] at hstation
    apply h.carry (by omega)
    · rw [hstation]
    · rw [hstation]
    · rw [hstation]
    · rw [hstation]
    · rw [hstation]
    · exact hgrows
    · intro t a aborted ht hduty
      rw [tasks_addStation] at ht
      split at ht
      · cases Option.some.inj ht
        exact absurd rfl hi
      · exact ht

/-- Every step keeps the docket true. -/
theorem Kept.step (h : m.Kept i d) (hl : m.Looped) (hd : m.Duty e m') :
    m'.Kept i (d.follow i e) := by
  cases hd.sight hl i with
  | aside beside silent =>
    rw [Docket.follow_of_silent d silent]
    exact h.beside beside
  | ring instant later =>
    exact h.carry (Nat.le_refl _) rfl rfl rfl rfl rfl (Nat.le_refl _) fun ht _ => ht
  | found fresh => exact h.addStation fresh
  | given beside placed disposes origin =>
    rw [Docket.follow_own]
    exact (h.beside beside).deliver placed disposes origin
  | entered beside placed c =>
    rw [Docket.follow_own]
    exact (h.beside beside).beginDispatch c
  | closed placed =>
    rw [Docket.follow_own]
    exact h.close
  | severed placed =>
    rw [Docket.follow_own]
    exact h.sever
  | @failed t =>
    rw [Docket.follow_own]
    exact h.loseWorker t
  | worked hw =>
    rw [Docket.follow_map]
    exact h.work hw

end Mesh

namespace Service

/-- In every state the dockets are true. -/
theorem kept (h : Service) (i n : Nat) : (h.state n).Kept i (h.docket i n) := by
  induction n with
  | zero =>
    obtain ⟨capacity, hstart⟩ := h.start
    rw [hstart]
    exact {
      placed := fun _ => rfl
      stats := rfl
      queue := rfl
      duty := nofun
      fresh := fun _ => rfl
      cached := fun _ => rfl
      worker := nofun }
  | succ n ih => exact ih.step (h.looped n) (h.step n)

end Service

end ClusterMesh
