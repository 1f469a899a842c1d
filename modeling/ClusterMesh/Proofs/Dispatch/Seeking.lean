import ClusterMesh.Proofs.Dispatch.Gates
import ClusterMesh.Proofs.Dispatch.Order

/-!
# Looking for a handler

A task that seeks a handler for its message looks it up at an instant that it has set before. Then
the message is handed over, or it is given up because the deadline is reached, or the next instant
is set: an interval later, but not after the deadline. Between these steps the search stands still.
-/

namespace ClusterMesh

/-- How often and for how long a handler is sought. -/
def Dispatcher.window (d : Dispatcher) : Nat × Nat := (d.interval, d.timeout)

namespace Dispatcher

variable {d : Dispatcher}

theorem window_noting (d : Dispatcher) (notice : Option Notice) :
    (d.noting notice).window = d.window := by
  unfold noting
  split <;> rfl

theorem nextLookup?_eq_none {now deadline : Nat} :
    d.nextLookup? now deadline = none ↔ deadline ≤ now := by
  simp [nextLookup?]

theorem nextLookup?_eq_some {now deadline next : Nat} :
    d.nextLookup? now deadline = some next ↔
      now < deadline ∧ next = min (now + d.interval) deadline := by
  simp only [nextLookup?]
  split
  · next hle => simp [Nat.not_lt.mpr hle]
  · next hlt => simp [Nat.lt_of_not_le hlt, eq_comm]

end Dispatcher

namespace Mesh

variable {m m' : Mesh} {t i j : Nat} {a a' : Activity} {e : Option (Nat × Notice)}

/-! ### What stays of the window -/

theorem Duty.window (hd : m.Duty e m') (hl : m.Looped) (hi : i < m.stations.length) :
    (m'.station i).dispatcher.window = (m.station i).dispatcher.window := by
  cases hd.sight hl i with
  | aside beside _ => rw [beside.dispatcher]
  | ring instant later => rfl
  | found fresh => rw [(beside_addStation hi _).dispatcher]
  | given beside placed disposes origin =>
    obtain ⟨entering, queue, stats, heq⟩ := disposes.frame
    rw [station_deliver, if_pos ⟨rfl, placed⟩, heq, beside.dispatcher]
    rfl
  | entered beside placed c =>
    rw [beginDispatch, station_updateDispatcher_self placed, beside.dispatcher]
    rfl
  | closed placed =>
    rw [Mesh.close, station_updateDispatcher_self hi]
    rfl
  | severed placed =>
    rw [Mesh.sever, station_wakeWorker, station_updateDispatcher_self hi]
    rfl
  | failed task =>
    rw [loseWorker, station_finish, station_updateDispatcher_self hi]
    rfl
  | @worked t a a' notice m' hw =>
    rw [hw.labour.station, if_pos ⟨rfl, hi⟩]
    exact Dispatcher.window_noting _ notice

/-! ### Time -/

/-- Time passes only when no task can run, and not past an alarm. -/
def OnTime (m m' : Mesh) : Prop :=
  m.now < m'.now → (∀ t, ¬m.IsReady t) ∧ ∀ due t, m.HasAlarm due t → m'.now ≤ max m.now due

theorem OnTime.le_due (h : m.OnTime m') (hle : m.now ≤ m'.now) {deadline due : Nat}
    (hpunctual : m.Punctual t (.searching deadline due)) (hdue : m.now ≤ due) : m'.now ≤ due := by
  rcases Nat.eq_or_lt_of_le hle with heq | hlt
  · rwa [← heq]
  · obtain ⟨hidle, hfirst⟩ := h hlt
    rcases hpunctual with ⟨halarm, -⟩ | ⟨-, hready⟩
    · exact Nat.le_trans (hfirst due t halarm) (Nat.max_le.mpr ⟨hdue, Nat.le_refl due⟩)
    · exact absurd hready (hidle t)

/-! ### The work of a task that seeks a handler -/

section

variable {notice : Option Notice} {message : Message} {deadline next : Nat}

/-- What a step of a search comes to. -/
inductive Lookup (m : Mesh) (t i : Nat) (message : Message) (deadline next : Nat) (a : Activity) :
    Option Notice → Activity → Prop
  | rest (early : m.now < next) : Lookup m t i message deadline next a none a
  | hit {id : HandlerId} (wait : Nat) (due : next ≤ m.now)
      (found : (m.station i).lookup? message.eventType = some id) :
      Lookup m t i message deadline next a (some (.invoked t id))
        (a.goOn ⟨message, .handling id (m.now + wait)⟩)
  | miss (due : next ≤ m.now) (missing : (m.station i).lookup? message.eventType = none)
      (before : m.now < deadline) :
      Lookup m t i message deadline next a none (a.goOn
        ⟨message, .searching deadline (min (m.now + (m.station i).dispatcher.interval) deadline)⟩)
  | last (due : next ≤ m.now) (missing : (m.station i).lookup? message.eventType = none)
      (after : deadline ≤ m.now) :
      Lookup m t i message deadline next a (some (.ended t .unhandled)) a.layDown

theorem Work.lookup (hw : m.Work t i a notice a' m')
    (hjob : a.job? = some ⟨message, .searching deadline next⟩) :
    m.Lookup t i message deadline next a notice a' := by
  cases hw with
  | take _ _ _ | idle _ _ | quit _ _ _ => cases hjob
  | window hand _ | finish hand _ _ => cases hand.job_eq hjob
  | invoke hand due found wait =>
    cases hand.job_eq hjob
    exact .hit wait due found
  | search hand due missing again =>
    cases hand.job_eq hjob
    obtain ⟨hbefore, rfl⟩ := Dispatcher.nextLookup?_eq_some.mp again
    exact .miss due missing hbefore
  | giveUp hand due missing never =>
    cases hand.job_eq hjob
    exact .last due missing (Dispatcher.nextLookup?_eq_none.mp never)
  | rest hand pauses =>
    cases hand.job_eq hjob
    exact .rest pauses

theorem Lookup.job?_ne (hlook : m.Lookup t i message deadline next a notice a')
    (hinterval : 0 < (m.station i).dispatcher.interval) (hdue : next ≤ m.now)
    (hjob : a.job? = some ⟨message, .searching deadline next⟩) : a'.job? ≠ a.job? := by
  rw [hjob]
  cases hlook with
  | rest early => exact absurd early (Nat.not_lt.mpr hdue)
  | hit wait due found =>
    rw [Activity.job?_goOn]
    simp
  | miss due missing before =>
    rw [Activity.job?_goOn]
    intro heq
    have hnext := Option.some.inj heq
    simp only [Job.mk.injEq, JobStage.searching.injEq, true_and] at hnext
    omega
  | last due missing after =>
    rw [Activity.job?_layDown]
    simp

theorem Duty.opened (hd : m.Duty (some (i, .opened t deadline)) m') :
    ∃ a message, m.InHand t i a ⟨message, .arrived⟩ ∧
      deadline = m.now + (m.station i).dispatcher.timeout ∧ m'.now = m.now ∧
      m'.tasks[t]? = some ⟨i, a.goOn ⟨message, .searching deadline m.now⟩, false⟩ := by
  obtain ⟨a, a', hw⟩ := hd.working (t := t) rfl
  have htask := hw.labour.task t
  rw [if_pos rfl] at htask
  have hnow := hw.labour.now
  cases hw with
  | window hand timeout => exact ⟨a, _, hand, timeout, hnow, htask⟩

end

end Mesh

namespace Service

variable {h : Service} {i p q n k t : Nat} {x : Intake} {deadline next : Nat}

/-- In every step time passes as alarms and ready tasks let it. -/
def Timely (h : Service) : Prop := ∀ n, (h.state n).OnTime (h.state (n + 1))

theorem window_of_le (h : Service) (hi : i < (h.state n).stations.length) (hk : n ≤ k) :
    ((h.state k).station i).dispatcher.window = ((h.state n).station i).dispatcher.window := by
  induction hk with
  | refl => rfl
  | @step k hk ih => exact ((h.step k).window (h.looped k) (h.placed_of_le hi hk).1).trans ih

/-- The handler that is found for a message in a step. -/
def handlerFor? (h : Service) (i n : Nat) (x : Intake) : Option HandlerId :=
  ((h.state n).station i).lookup? x.message.eventType

/-- The task that has a message in hand looks its handler up: it goes on with the search at the
instant that is set for it. -/
def LooksUp (h : Service) (i p n : Nat) : Prop :=
  ∃ (t : Nat) (x : Intake) (a a' : Activity) (deadline next : Nat) (notice : Option Notice),
    (h.docket i n)[p]? = some x ∧ x.fate.holder? = some t ∧
    h.event n = notice.map (fun notice => (i, notice)) ∧
    (h.state n).Work t i a notice a' (h.state (n + 1)) ∧
    a.job? = some ⟨x.message, .searching deadline next⟩ ∧ next ≤ (h.state n).now

/-- A message is handed to a handler. -/
def HandsOver (h : Service) (i p n : Nat) (id : HandlerId) : Prop :=
  ∃ t x, h.event n = some (i, .invoked t id) ∧ (h.docket i n)[p]? = some x ∧
    x.fate.holder? = some t

/-- A handler is sought for a message, the next time at an instant. -/
structure Searches (h : Service) (i p n : Nat) (x : Intake) (t deadline next : Nat) : Prop where
  entry : (h.docket i n)[p]? = some x
  fate : x.fate = .taken t
  task : ∃ a, (h.state n).tasks[t]? = some ⟨i, a, false⟩ ∧
    a.job? = some ⟨x.message, .searching deadline next⟩

/-- What a look-up comes to: the search goes on, a handler gets the message, or it is dropped. -/
inductive Answer (h : Service) (i p n : Nat) (x : Intake) (t deadline : Nat) : Prop
  | missed (missing : h.handlerFor? i n x = none) (before : (h.state n).now < deadline)
      (again : h.Searches i p (n + 1) x t deadline
        (min ((h.state n).now + ((h.state n).station i).dispatcher.interval) deadline))
  | found (id : HandlerId) (found : h.handlerFor? i n x = some id)
      (event : h.event n = some (i, .invoked t id))
      (entry : (h.docket i (n + 1))[p]? = some { x with fate := .invoked t })
  | late (missing : h.handlerFor? i n x = none) (after : deadline ≤ (h.state n).now)
      (event : h.event n = some (i, .ended t .unhandled))
      (entry : (h.docket i (n + 1))[p]? = some { x with fate := .ended .unhandled })

theorem entry_of_hand {a : Activity} {job : Job} (hx : (h.docket i n)[p]? = some x)
    (hheld : x.fate.holder? = some t) (htask : (h.state n).tasks[t]? = some ⟨i, a, false⟩)
    (hjob : a.job? = some job) : x.message = job.message ∧ x.fate = job.stage.fate t := by
  obtain ⟨-, hbears⟩ := (h.kept i n).duty htask (Activity.isOnDuty_of_job hjob)
  obtain ⟨y, hy, hmessage, hfate⟩ := (Docket.bears_iff_of_job hjob).mp hbears
  have hmem : x ∈ (h.docket i n).held t :=
    List.mem_filter.mpr ⟨List.mem_of_getElem? hx, by simp [hheld]⟩
  rw [hy, List.mem_singleton] at hmem
  exact ⟨hmem ▸ hmessage, hmem ▸ hfate⟩

theorem LooksUp.searches (hlook : h.LooksUp i p n) :
    ∃ x t deadline next, h.Searches i p n x t deadline next := by
  obtain ⟨t, x, a, a', deadline, next, notice, hx, hheld, -, hw, hjob, -⟩ := hlook
  exact ⟨x, t, deadline, next, hx, (entry_of_hand hx hheld hw.task_eq hjob).2, a, hw.task_eq, hjob⟩

theorem LooksUp.now (hlook : h.LooksUp i p n) : (h.state (n + 1)).now = (h.state n).now := by
  obtain ⟨t, x, a, a', deadline, next, notice, -, -, -, hw, -, -⟩ := hlook
  exact hw.labour.now

theorem HandsOver.taken {id : HandlerId} (hover : h.HandsOver i p n id) :
    ∃ t x, h.event n = some (i, .invoked t id) ∧ (h.docket i n)[p]? = some x ∧
      x.fate = .taken t := by
  obtain ⟨t, x, hevent, hx, hheld⟩ := hover
  obtain ⟨y, hy, hfate, -⟩ := h.hand_of_invoked hevent
  have hmem : x ∈ (h.docket i n).held t :=
    List.mem_filter.mpr ⟨List.mem_of_getElem? hx, by simp [hheld]⟩
  rw [hy, List.mem_singleton] at hmem
  exact ⟨t, x, hevent, hx, hmem ▸ hfate⟩

namespace Searches

theorem works_or_stays (hk : h.Searches i p n x t deadline next) (hs : h.Keeps i) :
    ∃ a, a.job? = some ⟨x.message, .searching deadline next⟩ ∧
      (h.state n).tasks[t]? = some ⟨i, a, false⟩ ∧
      ((∃ notice a', h.event n = notice.map (fun notice => (i, notice)) ∧
          (h.state n).Work t i a notice a' (h.state (n + 1))) ∨
        (h.state (n + 1)).tasks[t]? = some ⟨i, a, false⟩ ∧ (h.docket i (n + 1))[p]? = some x) := by
  obtain ⟨a, htask, hjob⟩ := hk.task
  refine ⟨a, hjob, htask, ?_⟩
  rcases (h.step n).task_cases (h.looped n) htask (Activity.isOnDuty_of_job hjob) (hs n)
    with hsame | hworks
  · rcases h.fate_succ hk.entry with hentry | ⟨notice, f, hevent, hadvances, -⟩
    · exact .inr ⟨hsame, hentry⟩
    · -- only the task itself moves the fate of its message on
      have hnotice : notice.task? = some t := by
        rw [hk.fate] at hadvances
        cases hadvances <;> rfl
      have hstep := h.step n
      rw [hevent] at hstep
      obtain ⟨b, a', hw⟩ := hstep.working hnotice
      obtain rfl : a = b :=
        congrArg Task.activity (Option.some.inj (htask.symm.trans hw.task_eq))
      exact .inl ⟨some notice, a', hevent, hw⟩
  · exact .inl hworks

theorem holder (hk : h.Searches i p n x t deadline next) : x.fate.holder? = some t := by
  rw [hk.fate]
  rfl

theorem eq {y : Intake} {u deadline' next' : Nat} (hk : h.Searches i p n x t deadline next)
    (hk' : h.Searches i p n y u deadline' next') :
    y = x ∧ u = t ∧ deadline' = deadline ∧ next' = next := by
  obtain rfl : y = x := Option.some.inj (hk'.entry.symm.trans hk.entry)
  obtain rfl : u = t := Option.some.inj (hk'.holder.symm.trans hk.holder)
  obtain ⟨a, htask, hjob⟩ := hk.task
  obtain ⟨a', htask', hjob'⟩ := hk'.task
  obtain rfl : a' = a := congrArg Task.activity (Option.some.inj (htask'.symm.trans htask))
  rw [hjob] at hjob'
  cases hjob'
  exact ⟨rfl, rfl, rfl, rfl⟩

theorem work_of_looksUp (hk : h.Searches i p n x t deadline next) (hlook : h.LooksUp i p n) :
    ∃ a a' notice, h.event n = notice.map (fun notice => (i, notice)) ∧
      (h.state n).Work t i a notice a' (h.state (n + 1)) ∧
      a.job? = some ⟨x.message, .searching deadline next⟩ ∧ next ≤ (h.state n).now := by
  obtain ⟨u, y, a, a', deadline', next', notice, hy, hheld, hevent, hw, hjob, hdue⟩ := hlook
  have hk' : h.Searches i p n y u deadline' next' :=
    ⟨hy, (entry_of_hand hy hheld hw.task_eq hjob).2, a, hw.task_eq, hjob⟩
  obtain ⟨rfl, rfl, rfl, rfl⟩ := hk.eq hk'
  exact ⟨a, a', notice, hevent, hw, hjob, hdue⟩

/-- In each step a search stands still, or the handler is looked up at the instant set for it. -/
theorem succ (hk : h.Searches i p n x t deadline next) (hs : h.Keeps i)
    (hinterval : 0 < ((h.state n).station i).dispatcher.interval) :
    (¬h.LooksUp i p n ∧ h.Searches i p (n + 1) x t deadline next) ∨
      (h.LooksUp i p n ∧ next ≤ (h.state n).now ∧ h.Answer i p n x t deadline) := by
  obtain ⟨a, hjob, htask, ⟨notice, a', hevent, hw⟩ | ⟨hsame, hentry⟩⟩ := hk.works_or_stays hs
  · have hafter := hw.labour.task t
    rw [if_pos rfl] at hafter
    have hlook : next ≤ (h.state n).now → h.LooksUp i p n := fun hdue =>
      ⟨t, x, a, a', deadline, next, notice, hk.entry, hk.holder, hevent, hw, hjob, hdue⟩
    have hentry : notice = none → (h.docket i (n + 1))[p]? = some x := by
      rintro rfl
      have hfollow : h.docket i (n + 1) = (h.docket i n).follow i (h.event n) := rfl
      rw [hfollow, hevent]
      exact hk.entry
    cases hw.lookup hjob with
    | rest early =>
      refine .inl ⟨fun hlook => ?_, hentry rfl, hk.fate, a, hafter, hjob⟩
      obtain ⟨-, -, -, -, -, -, hdue⟩ := hk.work_of_looksUp hlook
      exact absurd early (Nat.not_lt.mpr hdue)
    | hit wait due found =>
      have hgone := h.docket_invoked hevent hk.entry hk.holder
      exact .inr ⟨hlook due, due, .found _ found hevent hgone⟩
    | miss due missing before =>
      exact .inr ⟨hlook due, due,
        .missed missing before ⟨hentry rfl, hk.fate, _, hafter, a.job?_goOn _⟩⟩
    | last due missing after =>
      exact .inr ⟨hlook due, due,
        .late missing after hevent (h.docket_ended hevent hk.entry hk.holder)⟩
  · refine .inl ⟨fun hlook => ?_, hentry, hk.fate, a, hsame, hjob⟩
    obtain ⟨b, a', notice, -, hw, hjob', hdue⟩ := hk.work_of_looksUp hlook
    obtain rfl : b = a := congrArg Task.activity (Option.some.inj (hw.task_eq.symm.trans htask))
    have hafter := hw.labour.task t
    rw [if_pos rfl, hsame] at hafter
    refine (hw.lookup hjob').job?_ne hinterval hdue hjob' ?_
    exact congrArg (fun task => task.activity.job?) (Option.some.inj hafter).symm

theorem until_of_le (hk : h.Searches i p n x t deadline next) (hs : h.Keeps i)
    (hinterval : 0 < ((h.state n).station i).dispatcher.interval)
    (hi : i < (h.state n).stations.length) (hle : n ≤ k) :
    (∃ next', h.Searches i p k x t deadline next') ∨
      ∃ y, (h.docket i k)[p]? = some y ∧ 2 ≤ y.fate.rank := by
  induction hle with
  | refl => exact .inl ⟨next, hk⟩
  | @step k hle ih =>
    rcases ih with ⟨next', hsought⟩ | ⟨y, hy, hrank⟩
    · have hwindow : ((h.state k).station i).dispatcher.interval =
          ((h.state n).station i).dispatcher.interval :=
        congrArg Prod.fst (h.window_of_le hi hle)
      rcases hsought.succ hs (hwindow ▸ hinterval) with ⟨-, hsame⟩ | ⟨-, -, hanswer⟩
      · exact .inl ⟨next', hsame⟩
      · cases hanswer with
        | missed _ _ again => exact .inl ⟨_, again⟩
        | found _ _ _ hentry => exact .inr ⟨_, hentry, Nat.le_refl 2⟩
        | late _ _ _ hentry => exact .inr ⟨_, hentry, Nat.le_succ 2⟩
    · obtain ⟨f, hf, hle⟩ := h.rank_le_of_le hy (Nat.le_succ k)
      exact .inr ⟨_, hf, Nat.le_trans hrank hle⟩

theorem answer_of_handsOver {id : HandlerId} (hk : h.Searches i p n x t deadline next)
    (hover : h.HandsOver i p n id) : (h.docket i (n + 1))[p]? = some { x with fate := .invoked t } ∧
      h.event n = some (i, .invoked t id) := by
  obtain ⟨u, y, hevent, hy, hheld⟩ := hover
  obtain rfl : y = x := Option.some.inj (hy.symm.trans hk.entry)
  obtain rfl : u = t := Option.some.inj (hheld.symm.trans hk.holder)
  exact ⟨h.docket_invoked hevent hy hheld, hevent⟩

end Searches

end Service

end ClusterMesh
