import ClusterMesh.Proofs.Dispatch.Duty
import ClusterMesh.Proofs.Mesh.Outcomes

/-!
# What a step leaves as it is

A step at one station passes the dispatchers of the others by. The work of a task changes its own
activity and its dispatcher, and nothing else that dispatchers and their tasks depend on.
-/

namespace ClusterMesh

namespace Activity

variable {a : Activity} {job job' : Job}

theorem isOnDuty_of_job (h : a.job? = some job) : a.IsOnDuty := by
  cases a with
  | dispatching _ => trivial
  | working _ => trivial
  | _ => cases h

@[simp] theorem job?_goOn (a : Activity) (job : Job) : (a.goOn job).job? = some job := by
  unfold goOn
  split <;> rfl

@[simp] theorem job?_layDown (a : Activity) : a.layDown.job? = none := by
  unfold layDown
  split <;> rfl

theorem IsOnDuty.not_isEnded (h : a.IsOnDuty) : ¬a.IsEnded := by
  cases a with
  | ended e => exact h.elim
  | _ => exact not_false

theorem IsLoop.not_isOnDuty (h : a.IsLoop) : ¬a.IsOnDuty := by
  cases a with
  | receiving σ => exact not_false
  | ended e => exact not_false
  | _ => exact (h.elim id id).elim

theorem layDown_cases (h : a.job? = some job) :
    (∃ job, a = .working job ∧ a.layDown = .working none) ∨
      (∃ job, a = .dispatching job ∧ a.layDown = .ended .done) := by
  cases a with
  | working job => exact Or.inl ⟨job, rfl, rfl⟩
  | dispatching job => exact Or.inr ⟨job, rfl, rfl⟩
  | _ => cases h

end Activity

namespace Dispatcher

/-- What is noticed at a station changes its dispatcher. -/
def noting (d : Dispatcher) : Option Notice → Dispatcher
  | some (.took _) => { d with queue := d.queue.tail }
  | some (.ended _ e) => d.finish e
  | _ => d

/-- The work on messages changes the queue and the counters, and nothing else. -/
theorem noting_frame (d : Dispatcher) (notice : Option Notice) :
    ∃ queue stats, d.noting notice = { d with queue := queue, stats := stats } := by
  unfold noting
  split
  · exact ⟨d.queue.tail, d.stats, rfl⟩
  · next e => exact ⟨d.queue, d.stats.finish e, rfl⟩
  · exact ⟨d.queue, d.stats, rfl⟩

theorem queue_noting (notice : Option Notice) {d : Dispatcher} (h : d.queue = []) :
    (d.noting notice).queue = [] := by
  unfold noting
  split
  · rw [h]
    rfl
  · exact h
  · exact h

theorem takeQueued?_eq_some {d d' : Dispatcher} {message : Message}
    (h : d.takeQueued? = some (message, d')) :
    d.queue = message :: d.queue.tail ∧ d' = { d with queue := d.queue.tail } := by
  unfold takeQueued? at h
  split at h
  · cases h
  · next m rest heq =>
    cases h
    rw [heq]
    exact ⟨rfl, rfl⟩

/-! ### How calls end -/

/-- A call has its message counted and goes on, whether or not it was under way. -/
inductive Enlists (d : Dispatcher) : Dispatcher → Prop
  | now (opened : d.closed = false) : Enlists d d.enlist
  | before {k : Nat} (underWay : k < d.entering.length) : Enlists d (d.resume k)

/-- How a call ends: the dispatcher is closed or its worker is gone, and the message is dropped; or
it goes to the queue, or to a task of its own. -/
inductive Disposes (d : Dispatcher) (message : Message) : Dispatcher × Admission → Prop
  | shut (closed : d.closed = true) :
      Disposes d message ({ d with stats := d.stats.refuse }, .refused)
  | lost {d' : Dispatcher} (enlists : d.Enlists d') (single : d.pool = .single)
      (gone : d.workerGone = true) :
      Disposes d message ({ d' with stats := d'.stats.withdraw }, .refused)
  | queue {d' : Dispatcher} (enlists : d.Enlists d') (sender : d.hasSender = true) :
      Disposes d message ({ d' with queue := d'.queue ++ [message] }, .queued)
  | start {d' : Dispatcher} (enlists : d.Enlists d') (direct : d.hasSender = false) :
      Disposes d message (d', .started)

variable {d d' : Dispatcher} {message : Message} {after : Dispatcher × Admission}

theorem Enlists.frame (h : d.Enlists d') :
    ∃ entering stats, d' = { d with entering := entering, stats := stats } := by
  cases h with
  | now opened => exact ⟨d.entering, d.stats.accept, rfl⟩
  | @before k underWay => exact ⟨d.entering.eraseIdx k, d.stats, rfl⟩

theorem Enlists.stats (h : d.Enlists d') {s : DispatchStats}
    (hs : d.stats = s.holding d.entering.length) :
    d'.stats = s.accept.holding d'.entering.length := by
  cases h with
  | now opened =>
    have henlist : d.enlist.stats = d.stats.accept := rfl
    rw [henlist, hs, Docket.accept_holding]
    rfl
  | @before k underWay =>
    have hlength : d.entering.length = (d.resume k).entering.length + 1 := by
      rw [resume, List.length_eraseIdx_of_lt underWay]
      omega
    rw [hlength, Docket.holding_succ] at hs
    exact hs

theorem Enlists.disposes_place (h : d.Enlists d') (message : Message) :
    d.Disposes message (d'.place message) := by
  have hsame : d'.hasSender = d.hasSender ∧ d'.workerGone = d.workerGone := by
    obtain ⟨entering, stats, rfl⟩ := h.frame
    exact ⟨rfl, rfl⟩
  unfold place
  split
  · next hsender =>
    rw [hsame.1] at hsender
    split
    · next hgone =>
      rw [hsame.2] at hgone
      rw [hasSender, Bool.and_eq_true, decide_eq_true_iff] at hsender
      exact .lost h hsender.1 hgone
    · exact .queue h hsender
  · next hnone =>
    rw [hsame.1] at hnone
    exact .start h (Bool.of_not_eq_true hnone)

theorem disposes_accept (d : Dispatcher) (message : Message) :
    d.Disposes message (d.accept message) := by
  unfold accept
  split
  · next hclosed => exact .shut hclosed
  · next hopen => exact (Enlists.now (Bool.of_not_eq_true hopen)).disposes_place message

/-- The end of a call changes the calls under way, the queue and the counters, and nothing else. -/
theorem Disposes.frame (h : d.Disposes message after) : ∃ entering queue stats,
    after.1 = { d with entering := entering, queue := queue, stats := stats } := by
  cases h with
  | shut _ => exact ⟨_, _, _, rfl⟩
  | lost enlists _ _ | queue enlists _ | start enlists _ =>
    obtain ⟨entering, stats, rfl⟩ := enlists.frame
    exact ⟨_, _, _, rfl⟩

theorem Disposes.queue_eq (h : d.Disposes message after) :
    after.1.queue = if after.2 = .queued then d.queue ++ [message] else d.queue := by
  cases h with
  | shut _ => rfl
  | lost enlists _ _ | queue enlists _ | start enlists _ =>
    obtain ⟨entering, stats, rfl⟩ := enlists.frame
    rfl

theorem Disposes.open_of_queued (h : d.Disposes message after) (hqueued : after.2 = .queued) :
    d.pool = .single ∧ d.severed = false := by
  cases h with
  | shut _ | lost _ _ _ | start _ _ => cases hqueued
  | queue _ sender => simpa [hasSender] using sender

theorem Disposes.severed_of_started (h : d.Disposes message after) (hsingle : d.pool = .single)
    (hstarted : after.2 = .started) : d.severed = true := by
  cases h with
  | shut _ | lost _ _ _ | queue _ _ => cases hstarted
  | start _ direct => simpa [hasSender, hsingle] using direct

theorem Disposes.stats_eq (h : d.Disposes message after) {s : DispatchStats}
    (hs : d.stats = s.holding d.entering.length) :
    after.1.stats =
      (if after.2 = .refused then s.refuse else s.accept).holding after.1.entering.length := by
  cases h with
  | shut _ => exact congrArg DispatchStats.refuse hs
  | lost enlists _ _ =>
    have hcounted := congrArg DispatchStats.withdraw (enlists.stats hs)
    rw [Docket.withdraw_holding] at hcounted
    exact hcounted
  | queue enlists _ | start enlists _ => exact enlists.stats hs

end Dispatcher

namespace Mesh

variable {m m' m'' : Mesh} {t u i j : Nat} {a a' : Activity} {notice : Option Notice}

theorem length_setActivity (m : Mesh) (t : Nat) (a : Activity) :
    (m.setActivity t a).tasks.length = m.tasks.length := by
  simp [setActivity]

theorem isReady_publish (m : Mesh) (message : Message) (h : m.IsReady u) :
    (m.publish message).IsReady u := by
  have hready : (m.publish message).agenda.ready =
      m.agenda.ready.insertMany (m.bus.publish message).2 := rfl
  rw [IsReady, hready]
  exact KeyedList.mem_keys_insertMany.mpr (Or.inl h)

/-! ### Passing by -/

theorem task_of_finish {e : TaskEnd} {task : Task} (h : (m.finish t e).tasks[u]? = some task)
    (hlive : ¬task.activity.IsEnded) : u ≠ t ∧ m.tasks[u]? = some task := by
  rw [tasks_finish, tasks_setActivity] at h
  split at h
  · obtain ⟨old, -, rfl⟩ := Option.map_eq_some_iff.mp h
    exact absurd trivial hlive
  · next hut => exact ⟨hut, h⟩

/-- A step passes the dispatcher of a station and its tasks by. -/
structure Beside (m m' : Mesh) (i : Nat) : Prop where
  now : m'.now = m.now
  stations : m.stations.length ≤ m'.stations.length
  dispatcher : (m'.station i).dispatcher = (m.station i).dispatcher
  worker : (m'.station i).worker = (m.station i).worker
  grows : m.tasks.length ≤ m'.tasks.length
  task : ∀ {t : Nat} {a : Activity} {aborted : Bool}, a.IsOnDuty →
    (m'.tasks[t]? = some ⟨i, a, aborted⟩ ↔ m.tasks[t]? = some ⟨i, a, aborted⟩)
  ready : ∀ {t : Nat} {a : Activity} {aborted : Bool}, m.tasks[t]? = some ⟨i, a, aborted⟩ →
    a.IsOnDuty → m.IsReady t → m'.IsReady t
  alarm : ∀ {t due : Nat} {a : Activity} {aborted : Bool}, m.tasks[t]? = some ⟨i, a, aborted⟩ →
    a.IsOnDuty → m.HasAlarm due t → m'.HasAlarm due t

theorem Beside.refl (m : Mesh) (i : Nat) : m.Beside m i where
  now := rfl
  stations := Nat.le_refl _
  dispatcher := rfl
  worker := rfl
  grows := Nat.le_refl _
  task := fun _ => Iff.rfl
  ready := fun _ _ h => h
  alarm := fun _ _ h => h

theorem Beside.trans (h : m.Beside m' i) (h' : m'.Beside m'' i) : m.Beside m'' i where
  now := h'.now.trans h.now
  stations := Nat.le_trans h.stations h'.stations
  dispatcher := h'.dispatcher.trans h.dispatcher
  worker := h'.worker.trans h.worker
  grows := Nat.le_trans h.grows h'.grows
  task := fun hduty => (h'.task hduty).trans (h.task hduty)
  ready := fun htask hduty hready =>
    h'.ready ((h.task hduty).mpr htask) hduty (h.ready htask hduty hready)
  alarm := fun htask hduty halarm =>
    h'.alarm ((h.task hduty).mpr htask) hduty (h.alarm htask hduty halarm)

theorem Apart.beside (h : m.Apart m') (i : Nat) : m.Beside m' i where
  now := h.now
  stations := Nat.le_of_eq h.stations.symm
  dispatcher := congrArg Desk.dispatcher (h.desk i)
  worker := congrArg Desk.worker (h.desk i)
  grows := h.grows
  task := fun hduty => h.task (Or.inl hduty)
  ready := h.ready
  alarm := h.alarm

theorem beside_of_tasks (hnow : m'.now = m.now) (hstations : m.stations.length ≤ m'.stations.length)
    (hdispatcher : (m'.station i).dispatcher = (m.station i).dispatcher)
    (hworker : (m'.station i).worker = (m.station i).worker) (htasks : m'.tasks = m.tasks)
    (hready : ∀ {u}, m.IsReady u → m'.IsReady u)
    (halarm : ∀ {due u}, m.HasAlarm due u → m'.HasAlarm due u) : m.Beside m' i where
  now := hnow
  stations := hstations
  dispatcher := hdispatcher
  worker := hworker
  grows := Nat.le_of_eq (congrArg List.length htasks).symm
  task := by
    intro t a aborted _
    rw [htasks]
  ready := fun _ _ h => hready h
  alarm := fun _ _ h => halarm h

theorem beside_bus (m : Mesh) (bus : Bus Message) (i : Nat) : m.Beside { m with bus := bus } i :=
  beside_of_tasks rfl (Nat.le_refl _) rfl rfl rfl id id

theorem beside_publish (m : Mesh) (message : Message) (i : Nat) :
    m.Beside (m.publish message) i :=
  beside_of_tasks rfl (Nat.le_refl _) rfl rfl rfl (isReady_publish m message) id

theorem beside_produce (m : Mesh) (j : Nat) (message : Message) (i : Nat) :
    m.Beside (m.produce j message).1 i := by
  obtain heq | heq := produce_cases m j message
  · rw [heq]
    exact .refl m i
  · rw [heq]
    exact beside_publish m _ i

theorem beside_updateStation (m : Mesh) (j : Nat) {f : Station → Station}
    (hf : ∀ s, (f s).dispatcher = s.dispatcher ∧ (f s).worker = s.worker) (i : Nat) :
    m.Beside (m.updateStation j f) i := by
  have hstation := station_updateStation m j i f
  refine beside_of_tasks rfl (Nat.le_of_eq (length_updateStation m j f).symm) ?_ ?_ rfl id id
  · rw [hstation]
    split
    · next h => rw [(hf _).1, h.1]
    · rfl
  · rw [hstation]
    split
    · next h => rw [(hf _).2, h.1]
    · rfl

theorem beside_spawn (m : Mesh) {a : Activity} (h : j = i → ¬a.IsOnDuty) :
    m.Beside (m.spawn j a).1 i where
  now := rfl
  stations := Nat.le_refl _
  dispatcher := rfl
  worker := rfl
  grows := by simp [spawn]
  task := by
    intro t a' aborted hduty
    rw [tasks_spawn]
    split
    · next ht =>
      subst ht
      constructor
      · intro heq
        cases Option.some.inj heq
        exact absurd hduty (h rfl)
      · intro heq
        rw [List.getElem?_eq_none (Nat.le_refl _)] at heq
        cases heq
    · rfl
  ready := fun _ _ hready => (isReady_spawn ..).mpr (Or.inl hready)
  alarm := fun _ _ halarm => halarm

theorem beside_beginLoop (m : Mesh) (j : Nat) (σ : Option Nat) (i : Nat) :
    m.Beside (m.beginLoop j σ) i := by
  have hspawn : m.Beside (m.spawn j (.receiving σ)).1 i := beside_spawn m fun _ => not_false
  apply hspawn.trans
  apply beside_updateStation
  exact fun _ => ⟨rfl, rfl⟩

theorem beside_startConsumer (m : Mesh) (j : Nat) (gone : Bool) (i : Nat) :
    m.Beside (m.startConsumer j gone) i := by
  unfold startConsumer
  split
  · exact .refl m i
  · split
    · exact beside_beginLoop m j none i
    · exact (beside_bus m m.bus.subscribe.1 i).trans (beside_beginLoop _ j _ i)

theorem beside_modify {f : Task → Task} (hstations : m'.stations = m.stations)
    (hnow : m'.now = m.now) (htasks : m'.tasks = m.tasks.modify t f)
    (hold : ∀ {task}, m.tasks[t]? = some task →
      ¬task.activity.IsOnDuty ∧ ¬(f task).activity.IsOnDuty)
    (hready : ∀ {u}, m.IsReady u → m'.IsReady u)
    (halarm : ∀ {due u}, u ≠ t → m.HasAlarm due u → m'.HasAlarm due u) (i : Nat) :
    m.Beside m' i := by
  have hstation : m'.station i = m.station i := by simp only [station, hstations]
  have hlength : m'.tasks.length = m.tasks.length := by rw [htasks, List.length_modify]
  refine ⟨hnow, Nat.le_of_eq (congrArg List.length hstations).symm, by rw [hstation],
    by rw [hstation], Nat.le_of_eq hlength.symm, ?_, fun _ _ => hready, ?_⟩
  · intro u a aborted hduty
    rw [htasks, List.getElem?_modify]
    by_cases htu : t = u
    · subst htu
      cases htask : m.tasks[t]? with
      | none => simp
      | some task =>
        obtain ⟨hwas, his⟩ := hold htask
        simp only [if_true, Option.map_eq_map, Option.map_some, Option.some.injEq]
        constructor
        · intro heq
          rw [heq] at his
          exact absurd hduty his
        · intro heq
          rw [heq] at hwas
          exact absurd hduty hwas
    · simp [htu]
  · intro u due a aborted htask hduty
    apply halarm
    intro hut
    subst hut
    exact (hold htask).1 hduty

/-! ### The loops of the consumers -/

/-- What a consumer knows as its loop is one, and a loop that runs is the one that its consumer
knows. -/
structure Looped (m : Mesh) : Prop where
  known : ∀ {i t : Nat}, (m.station i).consumer.loop = some t →
    ∃ task, m.tasks[t]? = some task ∧ task.activity.IsLoop
  only : ∀ {t i : Nat} {σ : Option Nat}, m.tasks[t]? = some ⟨i, .receiving σ, false⟩ →
    (m.station i).consumer.loop = some t

theorem beside_stopConsumer (h : m.Looped) (j i : Nat) : m.Beside (m.stopConsumer j) i := by
  unfold stopConsumer
  split
  · next t hloop =>
    have hupdate := beside_updateStation m j
      (f := fun s => { s with consumer := { s.consumer with loop := none } })
      (fun _ => ⟨rfl, rfl⟩) i
    apply hupdate.trans
    obtain ⟨task, htask, hknown⟩ := h.known hloop
    have hduty := hknown.not_isOnDuty
    unfold abort
    split
    · exact .refl _ i
    · apply beside_modify (t := t) (f := fun task => { task with aborted := true })
      · rfl
      · rfl
      · rfl
      · intro task' htask'
        obtain rfl : task = task' := Option.some.inj (htask.symm.trans htask')
        exact ⟨hduty, hduty⟩
      · exact fun hready => (isReady_wake _ _ _).mpr (Or.inl hready)
      · exact fun _ halarm => halarm
  · exact .refl m i

theorem beside_leave {σ : Option Nat} {aborted : Bool}
    (htask : m.tasks[t]? = some ⟨j, .receiving σ, aborted⟩) (e : TaskEnd) (i : Nat) :
    m.Beside ((m.leaveBus t σ).finish t e) i := by
  have hbus : m.Beside (m.leaveBus t σ) i := by
    cases σ with
    | none => exact .refl m i
    | some s => exact beside_bus m _ i
  have htasks : (m.leaveBus t σ).tasks = m.tasks := by
    cases σ <;> rfl
  apply hbus.trans
  apply beside_modify (t := t) (f := fun task => { task with activity := .ended e })
  · rfl
  · rfl
  · rfl
  · intro task htask'
    rw [htasks, htask] at htask'
    obtain rfl := Option.some.inj htask'
    exact ⟨not_false, not_false⟩
  · exact fun hready => hready
  · exact fun hu halarm => (hasAlarm_finish ..).mpr ⟨halarm, hu⟩

/-! ### Steps at a station -/

theorem station_finish (m : Mesh) (t j : Nat) (e : TaskEnd) :
    (m.finish t e).station j = m.station j := rfl

theorem beside_wakeWorker (m : Mesh) (j i : Nat) : m.Beside (m.wakeWorker j) i := by
  refine beside_of_tasks (now_wakeWorker m j) (Nat.le_of_eq ?_) (by rw [station_wakeWorker])
    (by rw [station_wakeWorker]) (tasks_wakeWorker m j) (fun hready => isReady_wakeWorker hready j) ?_
  · rw [stations_wakeWorker]
  · intro due u halarm
    rwa [HasAlarm, alarms_wakeWorker]

theorem beside_updateDispatcher (m : Mesh) (h : j ≠ i) (f : Dispatcher → Dispatcher) :
    m.Beside (m.updateDispatcher j f) i := by
  have hstation : (m.updateDispatcher j f).station i = m.station i :=
    (station_updateDispatcher m j i f).trans (if_neg fun hij => h hij.1.symm)
  refine beside_of_tasks rfl ?_ (by rw [hstation]) (by rw [hstation]) rfl id id
  exact Nat.le_of_eq (length_updateStation m j _).symm

theorem consume_cases (m : Mesh) (bus : Bus Message) (i : Nat) (message : Message) (place : Nat) :
    (m.arrival i message place = .called ⟨message, some place, m.fateOf i message⟩ ∧
      (m.station i).takes message = true ∧
      ({ m with bus := bus }.consume i message).1 = { m with bus := bus }.dispatch i message) ∨
    (m.arrival i message place = .passed message place ∧ (m.station i).takes message = false ∧
      ({ m with bus := bus }.consume i message).1 = { m with bus := bus }) := by
  have hstation : ({ m with bus := bus } : Mesh).station i = m.station i := rfl
  cases htakes : (m.station i).takes message with
  | true => exact Or.inl ⟨by simp [arrival, htakes], rfl, by simp [consume, hstation, htakes]⟩
  | false => exact Or.inr ⟨by simp [arrival, htakes], rfl, by simp [consume, hstation, htakes]⟩

theorem beside_deliver (m : Mesh) (message : Message) (after : Dispatcher × Admission)
    (h : j ≠ i) : m.Beside (m.deliver j message after) i := by
  have hupdate := beside_updateDispatcher m h fun _ => after.1
  obtain ⟨-, heq⟩ | ⟨-, heq⟩ | ⟨-, heq⟩ := deliver_cases m j message after
  · rw [heq]
    exact hupdate
  · rw [heq]
    exact hupdate.trans (beside_wakeWorker _ j i)
  · rw [heq]
    exact hupdate.trans (beside_spawn _ fun hji => absurd hji h)

theorem beside_sever (m : Mesh) (h : j ≠ i) : m.Beside (m.sever j) i :=
  (beside_updateDispatcher m h _).trans (beside_wakeWorker _ j i)

/-! ### The work of a task -/

/-- What the work of a task changes, apart from the queue and the counters of its dispatcher. -/
structure Labour (m m' : Mesh) (t i : Nat) (notice : Option Notice) (a' : Activity) : Prop where
  now : m'.now = m.now
  stations : m'.stations.length = m.stations.length
  station : ∀ j, m'.station j =
    if j = i ∧ i < m.stations.length then
      { m.station i with dispatcher := (m.station i).dispatcher.noting notice }
    else m.station j
  bus : m'.bus = m.bus
  length : m'.tasks.length = m.tasks.length
  task : ∀ u, m'.tasks[u]? = if u = t then some ⟨i, a', false⟩ else m.tasks[u]?
  ready : ∀ {u}, u ≠ t → m.IsReady u → m'.IsReady u
  alarm : ∀ {due u}, u ≠ t → m.HasAlarm due u → m'.HasAlarm due u

theorem task_setActivity (htask : m.tasks[t]? = some ⟨i, a, false⟩) (htasks : m'.tasks = m.tasks)
    (u : Nat) : (m'.setActivity t a').tasks[u]? =
      if u = t then some ⟨i, a', false⟩ else m.tasks[u]? := by
  rw [tasks_setActivity, htasks, htask]
  rfl

theorem station_unnoted (h : ∀ d : Dispatcher, d.noting notice = d) (m : Mesh) (i j : Nat) :
    m.station j =
      if j = i ∧ i < m.stations.length then
        { m.station i with dispatcher := (m.station i).dispatcher.noting notice }
      else m.station j := by
  split
  · next hij => rw [h, hij.1]
  · rfl

theorem Work.task_eq (h : m.Work t i a notice a' m') : m.tasks[t]? = some ⟨i, a, false⟩ := by
  cases h with
  | take _ task _ | idle task _ | quit task _ _ => exact task
  | window hand _ | invoke hand _ _ _ | search hand _ _ _ | giveUp hand _ _ _ | finish hand _ _
  | rest hand _ => exact hand.task

theorem beside_loseWorker {aborted : Bool} (htask : m.tasks[t]? = some ⟨j, a, aborted⟩)
    (h : j ≠ i) : m.Beside (m.loseWorker j t) i := by
  have hupdate := beside_updateDispatcher m h fun d => { d with workerGone := true }
  have hother : ∀ {u b aborted}, m.tasks[u]? = some ⟨i, b, aborted⟩ → u ≠ t := by
    intro u b aborted hu hut
    rw [hut, htask] at hu
    cases Option.some.inj hu
    exact h rfl
  refine ⟨rfl, hupdate.stations, hupdate.dispatcher, hupdate.worker,
    Nat.le_of_eq (length_setActivity ..).symm, ?_, fun _ _ hready => hready,
    fun hu _ halarm => (hasAlarm_finish ..).mpr ⟨halarm, hother hu⟩⟩
  intro u b aborted hduty
  constructor
  · intro heq
    exact (task_of_finish heq hduty.not_isEnded).2
  · intro heq
    rw [loseWorker, tasks_finish, tasks_setActivity, if_neg (hother heq)]
    exact heq

theorem labour_conclude (hand : m.tasks[t]? = some ⟨i, a, false⟩) {job : Job}
    (hjob : a.job? = some job) (e : DispatchEnd) :
    m.Labour (m.conclude t i a e) t i (some (.ended t e)) a.layDown := by
  have hlength := length_updateStation m i
    fun s => { s with dispatcher := s.dispatcher.finish e }
  have hstation := station_updateDispatcher m i (f := fun d => d.finish e)
  rcases a.layDown_cases hjob with ⟨job', rfl, -⟩ | ⟨job', rfl, -⟩
  · exact ⟨rfl, hlength, fun j => hstation j, rfl, length_setActivity ..,
      task_setActivity hand rfl, fun _ h => h, fun _ h => h⟩
  · exact ⟨rfl, hlength, fun j => hstation j, rfl, length_setActivity ..,
      task_setActivity hand rfl, fun _ h => h, fun hu h => (hasAlarm_finish ..).mpr ⟨h, hu⟩⟩

theorem Work.labour (h : m.Work t i a notice a' m') : m.Labour m' t i notice a' := by
  have hsame := fun j (notice : Option Notice) (hn : ∀ d : Dispatcher, d.noting notice = d) =>
    station_unnoted hn m i j
  cases h with
  | take ready task next =>
    obtain ⟨-, rfl⟩ := Dispatcher.takeQueued?_eq_some next
    have hstation := fun j => station_updateDispatcher m i j
      fun _ => { (m.station i).dispatcher with queue := (m.station i).dispatcher.queue.tail }
    exact ⟨rfl, length_updateStation .., hstation, rfl, length_setActivity ..,
      task_setActivity task rfl, fun _ h => h, fun _ h => h⟩
  | window hand timeout =>
    exact ⟨rfl, rfl, fun j => hsame j _ fun _ => rfl, rfl, length_setActivity ..,
      task_setActivity hand.task rfl, fun _ h => h, fun _ h => h⟩
  | invoke hand due found wait =>
    unfold handOver
    split
    · exact ⟨rfl, rfl, fun j => hsame j _ fun _ => rfl, rfl, length_setActivity ..,
        task_setActivity hand.task rfl, fun _ h => h, fun _ h => h⟩
    · exact ⟨rfl, rfl, fun j => hsame j _ fun _ => rfl, rfl, length_setActivity ..,
        task_setActivity hand.task rfl, fun hu h => (isReady_taken ..).mpr ⟨h, hu⟩,
        fun _ h => (hasAlarm_setAlarm ..).mpr (Or.inl h)⟩
  | search hand due missing again =>
    exact ⟨rfl, rfl, fun j => hsame j _ fun _ => rfl, rfl, length_setActivity ..,
      task_setActivity hand.task rfl, fun hu h => (isReady_taken ..).mpr ⟨h, hu⟩,
      fun _ h => (hasAlarm_setAlarm ..).mpr (Or.inl h)⟩
  | giveUp hand due missing never => exact labour_conclude hand.task hand.job _
  | finish hand ready e => exact labour_conclude hand.task hand.job _
  | rest hand pauses =>
    refine ⟨rfl, rfl, fun j => hsame j _ fun _ => rfl, rfl, rfl, ?_,
      fun hu h => (isReady_taken ..).mpr ⟨h, hu⟩, fun _ h => h⟩
    intro u
    split
    · next hu => rw [hu, tasks_taken, hand.task]
    · rfl
  | idle task empty =>
    refine ⟨rfl, rfl, fun j => hsame j _ fun _ => rfl, rfl, rfl, ?_,
      fun hu h => (isReady_taken ..).mpr ⟨h, hu⟩, fun _ h => h⟩
    intro u
    split
    · next hu => rw [hu, tasks_taken, task]
    · rfl
  | quit task empty severed =>
    exact ⟨rfl, rfl, fun j => hsame j _ fun _ => rfl, rfl, length_setActivity ..,
      task_setActivity task rfl, fun _ h => h, fun hu h => (hasAlarm_finish ..).mpr ⟨h, hu⟩⟩

theorem Labour.beside (h : m.Labour m' t j notice a') (htask : m.tasks[t]? = some ⟨j, a, false⟩)
    (hne : j ≠ i) : m.Beside m' i := by
  have hstation : m'.station i = m.station i :=
    (h.station i).trans (if_neg fun hij => hne hij.1.symm)
  have hother : ∀ {u a aborted}, m.tasks[u]? = some ⟨i, a, aborted⟩ → u ≠ t := by
    intro u a aborted hu hut
    rw [hut, htask] at hu
    cases Option.some.inj hu
    exact hne rfl
  refine ⟨h.now, Nat.le_of_eq h.stations.symm, by rw [hstation], by rw [hstation],
    Nat.le_of_eq h.length.symm, ?_, fun hu _ => h.ready (hother hu),
    fun hu _ => h.alarm (hother hu)⟩
  intro u a aborted _
  rw [h.task]
  split
  · next hut =>
    subst hut
    constructor
    · intro heq
      cases Option.some.inj heq
      exact absurd rfl hne
    · intro heq
      exact absurd rfl (hother heq)
  · rfl

theorem Duty.working {notice : Notice} (hd : m.Duty (some (i, notice)) m') (ht : notice.task? = some t) :
    ∃ a a', m.Work t i a (some notice) a' m' := by
  generalize he : some (i, notice) = e at hd
  cases hd with
  | @work u j a a' notice' m' hw =>
    cases notice' with
    | none => cases he
    | some notice' =>
      cases he
      have hu : notice.task? = some u := by
        cases hw <;> rfl
      rw [hu] at ht
      obtain rfl := Option.some.inj ht
      exact ⟨a, a', hw⟩
  | @receive _ j s _ message task placed next =>
    cases he
    unfold arrival at ht
    split at ht <;> cases ht
  | _ =>
    cases he
    try cases ht

/-! ### What a station sees of a step -/

/-- What a station sees of a step: it passes its dispatcher by, though a message may have been sent
or passed over; time passes, or a station is added; a call to the dispatcher ends, or passes the
check; the dispatcher is closed, is severed from its queue or loses its worker; or a task that works
for it goes on. -/
inductive Sight (m : Mesh) (i : Nat) : Option (Nat × Notice) → Mesh → Prop
  | aside {e : Option (Nat × Notice)} {m' : Mesh} (beside : m.Beside m' i)
      (silent : ∀ notice, e = some (i, notice) → notice.IsSilent) : Sight m i e m'
  | ring (instant : Nat) (later : m.now ≤ instant) : Sight m i none (machine.ring m instant)
  | found {s : Station} (fresh : s.IsFresh) : Sight m i none (m.addStation s).1
  | given {before : Mesh} {message : Message} {after : Dispatcher × Admission}
      (beside : m.Beside before i) (placed : i < before.stations.length)
      (disposes : (before.station i).dispatcher.Disposes message after) (origin : Option Nat) :
      Sight m i (some (i, .called ⟨message, origin, before.fateFor after.2⟩))
        (before.deliver i message after)
  | entered {before : Mesh} (beside : m.Beside before i) (placed : i < before.stations.length)
      (c : DispatchCall) : Sight m i (some (i, .entered c)) (before.beginDispatch i c)
  | closed (placed : i < m.stations.length) : Sight m i (some (i, .closed)) (m.close i)
  | severed (placed : i < m.stations.length) : Sight m i (some (i, .severed)) (m.sever i)
  | failed {t : Nat} {job : Option Job} {aborted : Bool}
      (task : m.tasks[t]? = some ⟨i, .working job, aborted⟩) :
      Sight m i (some (i, .failed)) (m.loseWorker i t)
  | worked {t : Nat} {a a' : Activity} {notice : Option Notice} {m' : Mesh}
      (work : m.Work t i a notice a' m') : Sight m i (notice.map fun notice => (i, notice)) m'

theorem sight_of_none (h : m.Beside m' i) : m.Sight i none m' :=
  .aside h fun _ heq => by cases heq

theorem sight_of_ne (h : j ≠ i) (hbeside : m.Beside m' i) (notice : Notice) :
    m.Sight i (some (j, notice)) m' := by
  refine .aside hbeside fun notice heq => ?_
  cases heq
  exact absurd rfl h

theorem Duty.sight {e : Option (Nat × Notice)} (hd : m.Duty e m') (hl : m.Looped) (i : Nat) :
    m.Sight i e m' := by
  cases hd with
  | apart ha => exact sight_of_none (ha.beside i)
  | pass instant later => exact .ring instant later
  | found fresh => exact .found fresh
  | @start j gone placed => exact sight_of_none (beside_startConsumer m j gone i)
  | stop j => exact sight_of_none (beside_stopConsumer hl j i)
  | leave e task quits => exact sight_of_none (beside_leave task e i)
  | @send j message placed =>
    refine .aside (beside_produce m j message i) fun notice heq => ?_
    cases heq
    trivial
  | @receive t j s bus message task placed next =>
    have hbus := beside_bus m bus i
    obtain ⟨hnotice, -, heq⟩ | ⟨hnotice, -, heq⟩ := consume_cases m bus j message (m.bus.place s)
    · rw [hnotice, heq]
      by_cases hj : j = i
      · subst hj
        exact .given hbus placed (Dispatcher.disposes_accept _ message) (some (m.bus.place s))
      · exact sight_of_ne hj (hbus.trans (beside_deliver _ message _ hj)) _
    · rw [hnotice, heq]
      refine .aside hbus fun notice heq => ?_
      cases heq
      trivial
  | lag task next => exact sight_of_none (beside_bus m _ i)
  | @call j message placed =>
    by_cases hj : j = i
    · subst hj
      exact .given (.refl m j) placed (Dispatcher.disposes_accept _ message) none
    · exact sight_of_ne hj (beside_deliver m message _ hj) _
  | @enter j message placed opened =>
    by_cases hj : j = i
    · subst hj
      exact .entered (.refl m j) placed ⟨message, none⟩
    · exact sight_of_ne hj (beside_updateDispatcher m hj _) _
  | @read t j s bus message task placed next takes opened =>
    have hbus := beside_bus m bus i
    by_cases hj : j = i
    · subst hj
      exact .entered hbus placed ⟨message, some (m.bus.place s)⟩
    · exact sight_of_ne hj (hbus.trans (beside_updateDispatcher _ hj _)) _
  | @resume j k c placed underWay =>
    by_cases hj : j = i
    · subst hj
      obtain ⟨hlt, -⟩ := List.getElem?_eq_some_iff.mp underWay
      exact .given (.refl m j) placed ((Dispatcher.Enlists.before hlt).disposes_place c.message)
        c.origin
    · exact sight_of_ne hj (beside_deliver m c.message _ hj) _
  | @close j placed =>
    by_cases hj : j = i
    · subst hj
      exact .closed placed
    · exact sight_of_ne hj (beside_updateDispatcher m hj _) _
  | @sever j placed closed =>
    by_cases hj : j = i
    · subst hj
      exact .severed placed
    · exact sight_of_ne hj (beside_sever m hj) _
  | @fail t j job aborted single worker task =>
    by_cases hj : j = i
    · subst hj
      exact .failed task
    · exact sight_of_ne hj (beside_loseWorker task hj) _
  | @work t j a a' notice m' hw =>
    by_cases hj : j = i
    · subst hj
      exact .worked hw
    · refine .aside (hw.labour.beside hw.task_eq hj) fun notice heq => ?_
      obtain ⟨_, -, hown⟩ := Option.map_eq_some_iff.mp heq
      cases hown
      exact absurd rfl hj

end Mesh

end ClusterMesh
