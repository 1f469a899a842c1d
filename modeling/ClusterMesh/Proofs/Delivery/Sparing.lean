import ClusterMesh.Proofs.Delivery.Inbox
import ClusterMesh.Proofs.Mesh.Moves
import ClusterMesh.Proofs.Traffic.Flow

/-!
# What a turn leaves to the others

A task that takes its turn leaves the other tasks as they are, except that a call asks its reaper to
end. What could run still can, what lies before another subscriber still does, and a loop that
waits for the next message goes on waiting or is woken.
-/

namespace ClusterMesh

namespace Activity

def IsReaper : Activity → Prop
  | .reaping _ _ _ => True
  | _ => False

def IsWorker : Activity → Prop
  | .working _ => True
  | _ => False

/-- What a task does that others have begun: a reaper, or the work on a message that has just
arrived. -/
def IsBegun : Activity → Prop
  | .reaping _ _ _ => True
  | .dispatching ⟨_, .arrived⟩ => True
  | _ => False

/-- How a task goes on. It becomes neither a loop nor a worker, and it goes on with its command, or
with its message unless it takes one off a queue. -/
structure Follows (a a' : Activity) : Prop where
  loop : ∀ {subscriber}, a' = .receiving subscriber → a = .receiving subscriber
  worker : a'.IsWorker → a.IsWorker
  call : ∀ {c' stage'}, a' = .executing c' stage' → ∃ c stage, a = .executing c stage ∧ c.id = c'.id
  held : ∀ {message}, a'.held = some message → a.held = some message ∨ a.IsWorker

variable {a a' a'' : Activity}

theorem Follows.refl (a : Activity) : a.Follows a := ⟨id, id, fun h => ⟨_, _, h, rfl⟩, Or.inl⟩

theorem Follows.trans (h : a.Follows a') (h' : a'.Follows a'') : a.Follows a'' where
  loop := fun ha => h.loop (h'.loop ha)
  worker := fun ha => h.worker (h'.worker ha)
  call := by
    intro c'' stage'' ha
    obtain ⟨c', stage', ha', hid'⟩ := h'.call ha
    obtain ⟨c, stage, ha, hid⟩ := h.call ha'
    exact ⟨c, stage, ha, hid.trans hid'⟩
  held := by
    intro message hm
    rcases h'.held hm with hm | hworker
    · exact h.held hm
    · exact Or.inr (h.worker hworker)

theorem follows_ended (a : Activity) (e : TaskEnd) : a.Follows (.ended e) :=
  ⟨fun h => (by cases h), fun h => h.elim, fun h => (by cases h), fun h => (by cases h)⟩

theorem follows_dispatching {job job' : Job} (h : job'.message = job.message) :
    (Activity.dispatching job).Follows (.dispatching job') :=
  ⟨fun h => (by cases h), fun h => h.elim, fun h => (by cases h),
    fun hm => Or.inl (by rw [← hm]; exact congrArg some h.symm)⟩

theorem follows_working (job job' : Option Job) :
    (Activity.working job).Follows (.working job') :=
  ⟨fun h => (by cases h), fun _ => trivial, fun h => (by cases h), fun _ => Or.inr trivial⟩

theorem follows_executing {c c' : Command} (h : c.id = c'.id) (stage stage' : CallStage) :
    (Activity.executing c stage).Follows (.executing c' stage') := by
  refine ⟨fun h => (by cases h), fun h => h.elim, ?_, fun h => (by cases h)⟩
  intro c'' stage'' heq
  cases heq
  exact ⟨c, stage, rfl, h⟩

theorem follows_reaping (k delay : Nat) (due due' : Option Nat) :
    (Activity.reaping k delay due).Follows (.reaping k delay due') :=
  ⟨fun h => (by cases h), fun h => h.elim, fun h => (by cases h), fun h => (by cases h)⟩

theorem follows_handling (id : HandlerId) (message : Message) (due due' : Option Nat) :
    (Activity.handling id message due).Follows (.handling id message due') :=
  ⟨fun h => (by cases h), fun h => h.elim, fun h => (by cases h), Or.inl⟩

end Activity

namespace Mesh

variable {m m' m'' : Mesh} {t u s i : Nat} {σ : Option Nat}

/-- What happens passes a loop and its subscriber by. -/
structure Passes (m m' : Mesh) (u s : Nat) : Prop where
  bus : m.bus.Keeps m'.bus s
  ready : m.IsReady u → m'.IsReady u
  quiet : m.bus.Seats s → u ∈ m.bus.waiting.keys → m.bus.unread s = 0 →
    m'.IsReady u ∨ u ∈ m'.bus.waiting.keys ∧ m'.bus.unread s = 0

theorem Passes.trans (h : Passes m m' u s) (h' : Passes m' m'' u s) : Passes m m'' u s where
  bus := h.bus.trans h'.bus
  ready := fun hr => h'.ready (h.ready hr)
  quiet := by
    intro hs hw hu
    rcases h.quiet hs hw hu with hr | ⟨hw', hu'⟩
    · exact Or.inl (h'.ready hr)
    · exact h'.quiet (h.bus.seats hs) hw' hu'

/-- A task has its turn, which may receive for a subscriber. -/
structure Spares (m : Mesh) (t : Nat) (σ : Option Nat) (m' : Mesh) : Prop where
  now : m'.now = m.now
  task : ∀ {u : Nat} {task : Task}, u ≠ t → m.tasks[u]? = some task → ∃ aborted,
    m'.tasks[u]? = some { task with aborted } ∧ (¬task.activity.IsReaper → aborted = task.aborted)
  own : ∀ {task : Task}, m.tasks[t]? = some task → ∃ task', m'.tasks[t]? = some task' ∧
    task'.station = task.station ∧ task.activity.Follows task'.activity
  fresh : ∀ {u : Nat} {task : Task}, u ≠ t → m.tasks[u]? = none → m'.tasks[u]? = some task →
    task.activity.IsBegun
  ready : ∀ {u}, u ≠ t → m.IsReady u → m'.IsReady u
  passes : ∀ {u s}, u ≠ t → σ ≠ some s → Passes m m' u s

theorem Spares.refl (m : Mesh) (t : Nat) (σ : Option Nat) : m.Spares t σ m where
  now := rfl
  task := fun _ h => ⟨_, h, fun _ => rfl⟩
  own := fun h => ⟨_, h, rfl, .refl _⟩
  fresh := by
    intro u task _ hnone hsome
    rw [hnone] at hsome
    cases hsome
  ready := fun _ h => h
  passes := fun _ _ => ⟨.refl _ _, id, fun _ hw hu => Or.inr ⟨hw, hu⟩⟩

theorem Spares.trans (h : m.Spares t σ m') (h' : m'.Spares t σ m'') : m.Spares t σ m'' where
  now := h'.now.trans h.now
  task := by
    intro u task hu htask
    obtain ⟨aborted, htask', hsame⟩ := h.task hu htask
    obtain ⟨aborted', htask'', hsame'⟩ := h'.task hu htask'
    exact ⟨aborted', htask'', fun hreaper => (hsame' hreaper).trans (hsame hreaper)⟩
  own := by
    intro task htask
    obtain ⟨task', htask', hstation, hfollows⟩ := h.own htask
    obtain ⟨task'', htask'', hstation', hfollows'⟩ := h'.own htask'
    exact ⟨task'', htask'', hstation'.trans hstation, hfollows.trans hfollows'⟩
  fresh := by
    intro u task hu hnone hsome
    cases hbetween : m'.tasks[u]? with
    | none => exact h'.fresh hu hbetween hsome
    | some task' =>
      obtain ⟨aborted, hafter, -⟩ := h'.task hu hbetween
      have hbegun := h.fresh hu hnone hbetween
      obtain rfl := Option.some.inj (hsome.symm.trans hafter)
      exact hbegun
  ready := fun hu hr => h'.ready hu (h.ready hu hr)
  passes := fun hu hs => (h.passes hu hs).trans (h'.passes hu hs)

theorem Spares.same (h : m.Spares t σ m') {task : Task} (hu : u ≠ t)
    (htask : m.tasks[u]? = some task) (hreaper : ¬task.activity.IsReaper) :
    m'.tasks[u]? = some task := by
  obtain ⟨aborted, htask', hsame⟩ := h.task hu htask
  rwa [hsame hreaper] at htask'

/-! ### Single operations -/

theorem spares_of_eq (htasks : m'.tasks = m.tasks) (hbus : m'.bus = m.bus) (hnow : m'.now = m.now)
    (hready : ∀ {u}, u ≠ t → m.IsReady u → m'.IsReady u) : m.Spares t σ m' where
  now := hnow
  task := fun _ h => ⟨_, htasks ▸ h, fun _ => rfl⟩
  own := fun h => ⟨_, htasks ▸ h, rfl, .refl _⟩
  fresh := by
    intro u task _ hnone hsome
    rw [htasks, hnone] at hsome
    cases hsome
  ready := hready
  passes := by
    intro u s hu _
    refine ⟨hbus ▸ .refl _ _, hready hu, fun _ hw hs => Or.inr ?_⟩
    rw [hbus]
    exact ⟨hw, hs⟩

theorem spares_bus {bus : Bus Message} (hkeeps : ∀ {s}, σ ≠ some s → m.bus.Keeps bus s)
    (hunread : ∀ {s}, σ ≠ some s → m.bus.unread s = 0 → bus.unread s = 0)
    (hwaiting : ∀ {u}, u ≠ t → u ∈ m.bus.waiting.keys → u ∈ bus.waiting.keys) :
    m.Spares t σ { m with bus := bus } where
  now := rfl
  task := fun _ h => ⟨_, h, fun _ => rfl⟩
  own := fun h => ⟨_, h, rfl, .refl _⟩
  fresh := by
    intro u task _ hnone hsome
    rw [show ({ m with bus := bus } : Mesh).tasks = m.tasks from rfl, hnone] at hsome
    cases hsome
  ready := fun _ h => h
  passes := by
    intro u s hu hs
    exact ⟨hkeeps hs, id, fun _ hw hzero => Or.inr ⟨hwaiting hu hw, hunread hs hzero⟩⟩

theorem spares_updateStation (m : Mesh) (i : Nat) (f : Station → Station) :
    m.Spares t σ (m.updateStation i f) := spares_of_eq rfl rfl rfl fun _ h => h

theorem spares_setAlarm (m : Mesh) (due u : Nat) : m.Spares t σ (m.setAlarm due u) :=
  spares_of_eq rfl rfl rfl fun _ h => h

theorem spares_taken (m : Mesh) (t : Nat) (σ : Option Nat) : m.Spares t σ (m.taken t) :=
  spares_of_eq rfl rfl rfl fun hu h => (isReady_taken m t _).mpr ⟨h, hu⟩

theorem spares_publish (m : Mesh) (message : Message) : m.Spares t σ (m.publish message) where
  now := rfl
  task := fun _ h => ⟨_, h, fun _ => rfl⟩
  own := fun h => ⟨_, h, rfl, .refl _⟩
  fresh := by
    intro u task _ hnone hsome
    rw [show (m.publish message).tasks = m.tasks from rfl, hnone] at hsome
    cases hsome
  ready := fun _ h => (serves_publish m message).ready h
  passes := by
    intro u s _ _
    refine ⟨Bus.keeps_publish _ _ _, (serves_publish m message).ready, fun hs hw _ => Or.inl ?_⟩
    refine KeyedList.mem_keys_insertMany.mpr (Or.inr ?_)
    rw [hs.publish_eq]
    exact hw

theorem spares_spawn (m : Mesh) (i : Nat) {a : Activity} (ha : a.IsBegun) :
    m.Spares t σ (m.spawn i a).1 := by
  have hold : ∀ {u : Nat} {task : Task}, m.tasks[u]? = some task →
      (m.spawn i a).1.tasks[u]? = some task := by
    intro u task htask
    obtain ⟨hlt, -⟩ := List.getElem?_eq_some_iff.mp htask
    rw [tasks_spawn, if_neg (Nat.ne_of_lt hlt), htask]
  refine ⟨rfl, fun _ h => ⟨_, hold h, fun _ => rfl⟩, fun h => ⟨_, hold h, rfl, .refl _⟩, ?_,
    fun _ h => (isReady_spawn m _ i a).mpr (Or.inl h), fun _ _ => ⟨.refl _ _,
    fun h => (isReady_spawn m _ i a).mpr (Or.inl h), fun _ hw hu => Or.inr ⟨hw, hu⟩⟩⟩
  intro u task _ hnone hsome
  rw [tasks_spawn] at hsome
  split at hsome
  · obtain rfl := Option.some.inj hsome
    exact ha
  · rw [hnone] at hsome
    cases hsome

theorem spares_spawn_self (m : Mesh) (i : Nat) (a : Activity) :
    m.Spares m.tasks.length σ (m.spawn i a).1 := by
  have hsame : ∀ {u : Nat}, u ≠ m.tasks.length → (m.spawn i a).1.tasks[u]? = m.tasks[u]? :=
    fun hu => (tasks_spawn ..).trans (if_neg hu)
  refine ⟨rfl, fun hu h => ⟨_, (hsame hu).trans h, fun _ => rfl⟩, ?_, ?_,
    fun _ h => (isReady_spawn m _ i a).mpr (Or.inl h), fun _ _ => ⟨.refl _ _,
    fun h => (isReady_spawn m _ i a).mpr (Or.inl h), fun _ hw hu => Or.inr ⟨hw, hu⟩⟩⟩
  · intro task h
    rw [List.getElem?_eq_none (Nat.le_refl _)] at h
    cases h
  · intro u task hu hnone hsome
    rw [hsame hu, hnone] at hsome
    cases hsome

theorem spares_setActivity {a : Activity}
    (h : ∀ {task}, m.tasks[t]? = some task → task.activity.Follows a) :
    m.Spares t σ (m.setActivity t a) where
  now := rfl
  task := by
    intro u task hu htask
    exact ⟨_, by rw [tasks_setActivity, if_neg hu, htask], fun _ => rfl⟩
  own := by
    intro task htask
    refine ⟨{ task with activity := a }, ?_, rfl, h htask⟩
    rw [tasks_setActivity, if_pos rfl, htask]
    rfl
  fresh := by
    intro u task hu hnone hsome
    rw [tasks_setActivity, if_neg hu, hnone] at hsome
    cases hsome
  ready := fun _ h => h
  passes := fun _ _ => ⟨.refl _ _, id, fun _ hw hu => Or.inr ⟨hw, hu⟩⟩

theorem spares_finish (m : Mesh) (t : Nat) (σ : Option Nat) (e : TaskEnd) :
    m.Spares t σ (m.finish t e) := by
  have hset : m.Spares t σ (m.setActivity t (.ended e)) :=
    spares_setActivity fun _ => Activity.follows_ended _ e
  exact hset.trans (spares_of_eq rfl rfl rfl fun _ h => h)

/-- Only reapers, and tasks that have ended, are asked to end. -/
theorem spares_abort {w : Nat} (hw : ∀ {task}, m.tasks[w]? = some task →
    task.activity.IsReaper ∨ task.activity.IsEnded) : m.Spares t σ (m.abort w) := by
  have hready : ∀ {u}, m.IsReady u → (m.abort w).IsReady u :=
    fun h => (isReady_abort m w _).mp (Or.inl h)
  have hbus : (m.abort w).bus = m.bus := by
    unfold abort
    split <;> rfl
  have htask : ∀ {u : Nat} {task : Task}, m.tasks[u]? = some task → ∃ aborted,
      (m.abort w).tasks[u]? = some { task with aborted } ∧
        (¬task.activity.IsReaper → aborted = task.aborted) := by
    intro u task hu
    by_cases huw : u = w
    · subst huw
      cases hended : m.hasEnded u with
      | true => exact ⟨task.aborted, by rw [abort_of_ended m u hended, hu], fun _ => rfl⟩
      | false =>
        refine ⟨true, by rw [tasks_abort m u u hended, if_pos rfl, hu]; rfl, fun hreaper => ?_⟩
        rcases hw hu with hreaps | hends
        · exact absurd hreaps hreaper
        · obtain ⟨j, a, aborted⟩ := task
          cases a with
          | ended e => simp [hasEnded, taskEnd?, hu, Task.end?] at hended
          | _ => exact hends.elim
    · exact ⟨task.aborted, by rw [tasks_abort_of_ne m w u huw, hu], fun _ => rfl⟩
  refine ⟨now_abort m w, fun _ h => htask h, ?_, ?_, fun _ h => hready h, ?_⟩
  · intro task h
    obtain ⟨aborted, htask', -⟩ := htask h
    exact ⟨_, htask', rfl, .refl _⟩
  · intro u task _ hnone hsome
    by_cases huw : u = w
    · subst huw
      cases hended : m.hasEnded u with
      | true =>
        rw [abort_of_ended m u hended, hnone] at hsome
        cases hsome
      | false =>
        rw [tasks_abort m u u hended, if_pos rfl, hnone] at hsome
        cases hsome
    · rw [tasks_abort_of_ne m w u huw, hnone] at hsome
      cases hsome
  · intro u s _ _
    refine ⟨hbus ▸ .refl _ _, hready, fun _ hw hs => Or.inr ?_⟩
    rw [hbus]
    exact ⟨hw, hs⟩

theorem spares_abort_self (m : Mesh) (t : Nat) : m.Spares t σ (m.abort t) := by
  have hready : ∀ {u}, m.IsReady u → (m.abort t).IsReady u :=
    fun h => (isReady_abort m t _).mp (Or.inl h)
  have hbus : (m.abort t).bus = m.bus := by
    unfold abort
    split <;> rfl
  refine ⟨now_abort m t, fun hu h => ⟨_, (tasks_abort_of_ne m t _ hu).trans h, fun _ => rfl⟩, ?_,
    ?_, fun _ h => hready h, ?_⟩
  · intro task h
    obtain ⟨aborted, hafter⟩ := tasks_abort_self h
    exact ⟨_, hafter, rfl, .refl _⟩
  · intro u task hu hnone hsome
    rw [tasks_abort_of_ne m t u hu, hnone] at hsome
    cases hsome
  · intro u s _ _
    refine ⟨hbus ▸ .refl _ _, hready, fun _ hw hs => Or.inr ?_⟩
    rw [hbus]
    exact ⟨hw, hs⟩

/-! ### The work on messages -/

theorem spares_produce (m : Mesh) (i : Nat) (message : Message) :
    m.Spares t σ (m.produce i message).1 := by
  rcases produce_cases m i message with heq | heq
  · rw [heq]
    exact .refl m t σ
  · rw [heq]
    exact spares_publish m _

theorem spares_wakeCaller (m : Mesh) (i k : Nat) : m.Spares t σ (m.wakeCaller i k) :=
  spares_of_eq (tasks_wakeCaller m i k) (bus_wakeCaller m i k) (now_wakeCaller m i k)
    fun _ h => (isReady_wakeCaller m _ i k).mpr (Or.inl h)

theorem spares_updateStore (m : Mesh) (i : Nat) (f : PendingStore → PendingStore) :
    m.Spares t σ (m.updateStore i f) := spares_updateStation m i _

theorem spares_timeOut (m : Mesh) (i k : Nat) : m.Spares t σ (m.timeOut i k).1 := by
  simp only [timeOut]
  split
  · exact (spares_updateStore m i _).trans (spares_wakeCaller _ i k)
  · exact spares_updateStore m i _

theorem spares_expire (m : Mesh) (i k : Nat) : m.Spares t σ (m.expire i k).1 := by
  simp only [expire]
  split
  · exact (spares_updateStore m i _).trans (spares_wakeCaller _ i k)
  · exact spares_updateStore m i _

theorem spares_correlate (m : Mesh) (i : Nat) (result : CommandResult) :
    m.Spares t σ (m.correlate i result).1 := by
  have hstore : m.Spares t σ (m.updateStore i fun _ => ((m.store i).correlate result).1) :=
    spares_updateStore m i _
  simp only [correlate]
  split
  · exact hstore.trans (spares_wakeCaller _ i _)
  · exact hstore

theorem spares_wakeWorker (m : Mesh) (i : Nat) : m.Spares t σ (m.wakeWorker i) :=
  spares_of_eq (tasks_wakeWorker m i) (bus_wakeWorker m i) (now_wakeWorker m i)
    fun _ h => isReady_wakeWorker h i

theorem spares_updateDispatcher (m : Mesh) (i : Nat) (f : Dispatcher → Dispatcher) :
    m.Spares t σ (m.updateDispatcher i f) := spares_updateStation m i _

theorem spares_consume (m : Mesh) (i : Nat) (message : Message) :
    m.Spares t σ (m.consume i message).1 := by
  have haccept : m.Spares t σ
      (m.updateDispatcher i fun _ => ((m.station i).dispatcher.accept message).1) :=
    spares_updateDispatcher m i _
  unfold consume
  split
  · rw [dispatch]
    obtain ⟨-, heq⟩ | ⟨-, heq⟩ | ⟨-, heq⟩ :=
      m.deliver_cases i message ((m.station i).dispatcher.accept message)
    · rw [heq]
      exact haccept
    · rw [heq]
      exact haccept.trans (spares_wakeWorker _ i)
    · rw [heq]
      exact haccept.trans (spares_spawn _ i trivial)
  · exact .refl m t σ

theorem spares_handle (m : Mesh) (i : Nat) (id : HandlerId) (message : Message) :
    m.Spares t σ (m.handle i id message).1 := by
  have hnote : ∀ h, m.Spares t σ (m.note h message) := fun h => spares_of_eq rfl rfl rfl fun _ h => h
  obtain heq | ⟨h, heq⟩ | ⟨h, c, resultType, -, heq⟩ | ⟨c, target, -, heq⟩ | ⟨result, -, heq⟩ :=
    handle_cases m i id message
  · rw [heq]
    exact .refl m t σ
  · rw [heq]
    exact hnote h
  · rw [heq]
    exact (hnote h).trans (spares_produce _ i _)
  · rw [heq]
    exact (spares_updateStation m i _).trans (spares_produce _ i _)
  · rw [heq]
    exact spares_correlate m i result

theorem spares_stepJob (m : Mesh) (t u i : Nat) (σ : Option Nat) (job : Job) :
    m.Spares t σ (m.stepJob u i job).1 := by
  have hcount : ∀ (m : Mesh) (e : DispatchEnd),
      m.Spares t σ (m.updateDispatcher i fun d => d.finish e) :=
    fun m _ => spares_updateDispatcher m i _
  obtain heq | ⟨due, stage, heq⟩ | heq | ⟨id, heq⟩ := stepJob_cases m u i job
  · rw [heq]
    exact .refl m t σ
  · rw [heq]
    exact spares_setAlarm m due u
  · rw [heq]
    exact hcount m .unhandled
  · rw [heq]
    exact (spares_handle m i id job.message).trans (hcount _ _)

theorem message_stepJob {job job' : Job} (h : (m.stepJob t i job).2 = some job') :
    job'.message = job.message := by
  obtain heq | ⟨due, stage, heq⟩ | heq | ⟨id, heq⟩ := stepJob_cases m t i job
  · rw [heq] at h
    cases h
    rfl
  · rw [heq] at h
    cases h
    rfl
  · rw [heq] at h
    cases h
  · rw [heq] at h
    cases h

theorem spares_runDispatch {job : Job} {aborted : Bool}
    (htask : m.tasks[t]? = some ⟨i, .dispatching job, aborted⟩) :
    m.Spares t σ (m.runDispatch t i job) := by
  have hstep := spares_stepJob m t t i σ job
  have htasks := tasks_stepJob m t i job
  unfold runDispatch
  split
  · next m' job' heq =>
    have hmessage : job'.message = job.message := message_stepJob (congrArg Prod.snd heq)
    rw [heq] at hstep htasks
    refine hstep.trans (spares_setActivity fun h => ?_)
    rw [show m'.tasks = m.tasks from htasks, htask] at h
    obtain rfl := Option.some.inj h
    exact Activity.follows_dispatching hmessage
  · next m' heq =>
    rw [heq] at hstep
    exact hstep.trans (spares_finish m' t σ _)

theorem spares_takeTurns {a : Activity} {aborted : Bool}
    (htask : m.tasks[t]? = some ⟨i, a, aborted⟩) (ha : a.IsWorker) (fuel : Nat) :
    m.Spares t σ (m.takeTurns t i fuel) := by
  have hset : ∀ {m : Mesh} (job : Option Job), m.tasks[t]? = some ⟨i, a, aborted⟩ →
      m.Spares t σ (m.setActivity t (.working job)) := by
    intro m job htask
    refine spares_setActivity fun h => ?_
    obtain rfl := Option.some.inj (htask.symm.trans h)
    cases a with
    | working job' => exact Activity.follows_working job' job
    | _ => exact ha.elim
  induction fuel generalizing m with
  | zero => exact hset none htask
  | succ fuel ih =>
    simp only [takeTurns]
    split
    · split
      · exact spares_finish m t σ _
      · exact hset none htask
    · next message d _ =>
      have htake : m.Spares t σ (m.updateDispatcher i fun _ => d) := spares_updateDispatcher m i _
      have hstep := htake.trans (spares_stepJob _ t t i σ ⟨message, .arrived⟩)
      have htasks := tasks_stepJob (m.updateDispatcher i fun _ => d) t i ⟨message, .arrived⟩
      generalize (m.updateDispatcher i fun _ => d).stepJob t i ⟨message, .arrived⟩ = after at *
      obtain ⟨m', job'⟩ := after
      have htask' : m'.tasks[t]? = some ⟨i, a, aborted⟩ := by
        rw [show m'.tasks = m.tasks from htasks, htask]
      cases job' with
      | some job' => exact hstep.trans (hset (some job') htask')
      | none => exact hstep.trans (ih htask')

theorem spares_runWorker {job : Option Job} {aborted : Bool}
    (htask : m.tasks[t]? = some ⟨i, .working job, aborted⟩) :
    m.Spares t σ (m.runWorker t i job) := by
  cases job with
  | none => exact spares_takeTurns htask trivial _
  | some job =>
    have hstep := spares_stepJob m t t i σ job
    have htasks := tasks_stepJob m t i job
    simp only [runWorker]
    generalize m.stepJob t i job = after at *
    obtain ⟨m', job'⟩ := after
    have htask' : m'.tasks[t]? = some ⟨i, .working (some job), aborted⟩ := by
      rw [show m'.tasks = m.tasks from htasks, htask]
    cases job' with
    | some job' =>
      refine hstep.trans (spares_setActivity fun h => ?_)
      obtain rfl := Option.some.inj (htask'.symm.trans h)
      exact Activity.follows_working _ _
    | none => exact hstep.trans (spares_takeTurns htask' trivial _)

theorem spares_runHandling {id : HandlerId} {message : Message} {due : Option Nat} {aborted : Bool}
    (htask : m.tasks[t]? = some ⟨i, .handling id message due, aborted⟩) :
    m.Spares t σ (m.runHandling t i id message due) := by
  have hset : ∀ instant, m.Spares t σ (m.setActivity t (.handling id message (some instant))) := by
    intro instant
    refine spares_setActivity fun h => ?_
    obtain rfl := Option.some.inj (htask.symm.trans h)
    exact Activity.follows_handling _ _ _ _
  simp only [runHandling]
  split
  · split
    · exact (hset _).trans (spares_setAlarm _ _ t)
    · exact hset _
  · exact (spares_handle m i id message).trans (spares_finish _ t σ _)

theorem spares_drainBus (m : Mesh) (t i s fuel : Nat) :
    m.Spares t (some s) (m.drainBus t i s fuel) := by
  have hreceive : ∀ (m : Mesh), m.Spares t (some s) { m with bus := (m.bus.receive s).1 } := by
    intro m
    have hne : ∀ {s' : Nat}, some s ≠ some s' → s' ≠ s := fun h heq => h (heq ▸ rfl)
    refine spares_bus (fun hs => Bus.keeps_receive_of_ne _ (hne hs)) ?_ ?_
    · intro s' hs hzero
      rw [Bus.unread_receive_of_ne _ (hne hs), hzero]
    · intro u _ hu
      rw [(m.bus.receive_fields s).2.2.2]
      exact hu
  induction fuel generalizing m with
  | zero => exact .refl m t _
  | succ fuel ih =>
    simp only [drainBus]
    split
    · next bus heq =>
      have hbus := hreceive m
      rw [heq] at hbus
      refine hbus.trans (spares_bus (fun _ => ?_) (fun _ h => h) ?_)
      · exact Bus.keeps_of_get? rfl rfl (Nat.le_refl _) fun _ => rfl
      · exact fun _ hu => Bus.mem_waiting_await.mpr (Or.inl hu)
    · next bus message heq =>
      have hbus := hreceive m
      rw [heq] at hbus
      exact (hbus.trans (spares_consume _ i message)).trans (ih _)
    · next bus missed heq =>
      have hbus := hreceive m
      rw [heq] at hbus
      exact hbus.trans (ih _)

/-! ### Calls and reapers -/

theorem spares_runReaper {k delay : Nat} {due : Option Nat} {aborted : Bool}
    (htask : m.tasks[t]? = some ⟨i, .reaping k delay due, aborted⟩) :
    m.Spares t σ (m.runReaper t i k delay due) := by
  have hset : ∀ instant, m.Spares t σ (m.setActivity t (.reaping k delay (some instant))) := by
    intro instant
    refine spares_setActivity fun h => ?_
    obtain rfl := Option.some.inj (htask.symm.trans h)
    exact Activity.follows_reaping _ _ _ _
  simp only [runReaper]
  split
  · split
    · exact (hset _).trans (spares_setAlarm _ _ t)
    · exact hset _
  · exact (spares_expire m i k).trans (spares_finish _ t σ _)

/-- A task is a reaper, or has ended, if there is one. -/
def MayAbort (m : Mesh) (w : Nat) : Prop :=
  ∀ {task : Task}, m.tasks[w]? = some task → task.activity.IsReaper ∨ task.activity.IsEnded

theorem MayAbort.of_tasks {w : Nat} (h : m.MayAbort w) (htasks : m'.tasks = m.tasks) :
    m'.MayAbort w := fun htask => h (htasks ▸ htask)

section

variable {k due reaper timeout : Nat} {c : Command}

theorem spares_returnResults (hreaper : m.MayAbort reaper) (results : Results) :
    m.Spares t σ (m.returnResults t i c k reaper results) := by
  refine ((spares_updateStore m i _).trans (spares_abort ?_)).trans (spares_finish _ t σ _)
  exact hreaper.of_tasks rfl

theorem spares_awaitResults (hreaper : m.MayAbort reaper) :
    m.Spares t σ (m.awaitResults t i c k due reaper) := by
  unfold awaitResults
  split
  · split
    · exact spares_returnResults hreaper _
    · split
      · exact .refl m t σ
      · exact (spares_timeOut m i k).trans
          (spares_returnResults (hreaper.of_tasks (tasks_timeOut m i k)) _)
  · exact .refl m t σ

theorem spares_depart {aborted : Bool}
    (htask : m.tasks[t]? = some ⟨i, .executing c (.sending k timeout reaper), aborted⟩)
    (hreaper : m.MayAbort reaper) (sent : Except MeshError Bool) :
    m.Spares t σ (m.depart t i c k timeout reaper sent) := by
  cases sent with
  | error e =>
    exact ((spares_updateStore m i _).trans (spares_abort (hreaper.of_tasks rfl))).trans
      (spares_finish _ t σ _)
  | ok went =>
    have hset : m.Spares t σ (m.beginWaiting t c k (m.now + timeout) reaper) := by
      refine (spares_setActivity fun h => ?_).trans (spares_setAlarm _ _ t)
      obtain rfl := Option.some.inj (htask.symm.trans h)
      exact Activity.follows_executing rfl _ _
    refine hset.trans (spares_awaitResults ?_)
    intro task htask'
    rw [beginWaiting, tasks_setAlarm, tasks_setActivity] at htask'
    split at htask'
    · next heq =>
      subst heq
      exact (hreaper htask).elim (fun h => h.elim) fun h => h.elim
    · exact hreaper htask'

theorem spares_send {aborted : Bool}
    (htask : m.tasks[t]? = some ⟨i, .executing c (.sending k timeout reaper), aborted⟩)
    (hreaper : m.MayAbort reaper) : m.Spares t σ (m.send t i c k timeout reaper) := by
  have htasks := (produce_keeps m i (.command c)).1
  exact (spares_produce m i (.command c)).trans
    (spares_depart (by rw [htasks, htask]) (hreaper.of_tasks htasks) _)

theorem mayAbort_enter {a : Activity} (htask : m.tasks[t]? = some ⟨i, a, false⟩) :
    (m.enter t i c).1.MayAbort (m.enter t i c).2.2 := by
  obtain ⟨hlt, -⟩ := List.getElem?_eq_some_iff.mp htask
  have hnew : ∀ timeout, t < (m.register i c timeout).2.2 ∧
      (m.register i c timeout).1.tasks[(m.register i c timeout).2.2]? =
        some ⟨i, .reaping (m.register i c timeout).2.1 timeout none, false⟩ := by
    intro timeout
    simp only [register]
    refine ⟨?_, (tasks_spawn ..).trans (if_pos rfl)⟩
    split
    · simpa [spawn] using hlt
    · exact hlt
  intro task h
  obtain ⟨hne, hreaper⟩ := hnew ((m.station i).timeoutOf c)
  have hafter := (if_neg (Nat.ne_of_gt hne)).symm.trans ((tasks_setActivity ..).symm.trans h)
  obtain rfl := Option.some.inj (hreaper.symm.trans hafter)
  exact Or.inl trivial

theorem spares_enter {c₀ : Command}
    (htask : m.tasks[t]? = some ⟨i, .executing c₀ .submitted, false⟩) (hid : c₀.id = c.id) :
    m.Spares t σ (m.enter t i c).1 := by
  have hregister : ∀ timeout, m.Spares t σ (m.register i c timeout).1 := by
    intro timeout
    simp only [register]
    refine Spares.trans ?_ (spares_spawn _ i trivial)
    split
    · exact (spares_updateStore m i _).trans (spares_timeOut _ i _)
    · exact spares_updateStore m i _
  refine (hregister ((m.station i).timeoutOf c)).trans (spares_setActivity fun h => ?_)
  obtain ⟨task', htask', -, hfollows⟩ := (hregister ((m.station i).timeoutOf c)).own htask
  obtain ⟨hlt, -⟩ := List.getElem?_eq_some_iff.mp htask
  have hsame : (m.register i c ((m.station i).timeoutOf c)).1.tasks[t]? =
      some ⟨i, .executing c₀ .submitted, false⟩ := by
    simp only [register, tasks_spawn]
    split <;> simp [htask, Nat.ne_of_lt hlt]
  obtain rfl := Option.some.inj (hsame.symm.trans h)
  exact Activity.follows_executing hid _ _

theorem spares_runCall {stage : CallStage}
    (htask : m.tasks[t]? = some ⟨i, .executing c stage, false⟩)
    (hsending : ∀ {k timeout reaper}, stage = .sending k timeout reaper → m.MayAbort reaper)
    (hwaiting : ∀ {k due reaper}, stage = .waiting k due reaper → m.MayAbort reaper) :
    m.Spares t σ (m.runCall t i c stage) := by
  cases stage with
  | submitted =>
    simp only [runCall, submit]
    split
    · exact spares_finish m t σ _
    · have henter : m.Spares t σ (m.enter t i (c.stamped (m.station i).node)).1 :=
        spares_enter htask rfl
      exact henter.trans (spares_send (tasks_enter htask _) (mayAbort_enter htask))
  | sending k timeout reaper => exact spares_send htask (hsending rfl)
  | waiting k due reaper => exact spares_awaitResults (hwaiting rfl)

end

/-! ### Turns -/

/-- The subscriber that a task receives for. -/
def subscriberOf (m : Mesh) (t : Nat) : Option Nat :=
  match m.tasks[t]? with
  | some ⟨_, .receiving subscriber, _⟩ => subscriber
  | _ => none

theorem spares_drop (m : Mesh) (t i : Nat) (a : Activity)
    (hσ : ∀ {s}, a = .receiving (some s) → σ = some s) : m.Spares t σ (m.drop t i a) := by
  unfold drop
  split
  · next s =>
    obtain rfl := hσ rfl
    have hne : ∀ {s' : Nat}, some s ≠ some s' → s' ≠ s := fun h heq => h (heq ▸ rfl)
    refine (spares_bus (fun hs => ?_) (fun hs hzero => ?_) ?_).trans (spares_finish _ t _ _)
    · exact (Bus.keeps_unsubscribe m.bus (hne hs)).trans
        (Bus.keeps_of_get? rfl rfl (Nat.le_refl _) fun _ => rfl)
    · exact (Bus.unread_unsubscribe m.bus (hne hs)).trans hzero
    · exact fun hu hw => Bus.mem_waiting_leave.mpr ⟨hw, hu⟩
  · exact (spares_updateStore m i _).trans (spares_finish _ t σ _)
  · exact (spares_updateStore m i _).trans (spares_finish _ t σ _)
  · exact spares_finish m t σ _

theorem Ledger.mayAbort {L : List Registration} (h : Ledger m L) {c : Command} {stage : CallStage}
    {aborted : Bool} (htask : m.tasks[t]? = some ⟨i, .executing c stage, aborted⟩) :
    (∀ {k timeout reaper}, stage = .sending k timeout reaper → m.MayAbort reaper) ∧
      ∀ {k due reaper}, stage = .waiting k due reaper → m.MayAbort reaper := by
  have hreaper : ∀ {r p caller reaper}, Tracks m r p caller reaper → m.MayAbort r.reaper := by
    intro r p caller reaper ht task htask
    obtain rfl := Option.some.inj (ht.reaper_at.symm.trans htask)
    cases ht.reaper_stands with
    | starting ready now => exact Or.inl trivial
    | armed timed => exact Or.inl trivial
    | ended => exact Or.inr trivial
  refine ⟨?_, ?_⟩
  · rintro k timeout reaper rfl
    obtain ⟨r, hr, p, task, rfl, ht⟩ := h.caller_of htask trivial
    obtain ⟨-, -, -, -, rfl, -⟩ := ht.caller_stands.of_sending
    exact hreaper ht
  · rintro k due reaper rfl
    obtain ⟨r, hr, p, task, rfl, ht⟩ := h.caller_of htask trivial
    obtain ⟨-, -, -, rfl, -⟩ := ht.caller_stands.of_waiting
    exact hreaper ht

/-- Whatever a task does in its turn, it spares the others. -/
theorem spares_run {L : List Registration} (h : Ledger m L) (t : Nat) :
    m.Spares t (m.subscriberOf t) ((m.taken t).run t) := by
  refine (spares_taken m t _).trans ?_
  cases htask : m.tasks[t]? with
  | none =>
    rw [run_of_missing (m := m.taken t) htask]
    exact .refl _ t _
  | some task =>
    obtain ⟨i, a, aborted⟩ := task
    have htask' : (m.taken t).tasks[t]? = some ⟨i, a, aborted⟩ := htask
    by_cases hended : a.IsEnded
    · cases a with
      | ended e =>
        rw [run_of_ended htask']
        exact .refl _ t _
      | _ => exact hended.elim
    · cases aborted with
      | true =>
        rw [run_of_aborted htask' hended]
        refine spares_drop _ t i a ?_
        rintro s rfl
        simp only [subscriberOf, htask]
      | false =>
        simp only [run, htask', if_false, Bool.false_eq_true]
        cases a with
        | receiving subscriber =>
          cases subscriber with
          | none => exact spares_finish _ t _ _
          | some s =>
            simp only [subscriberOf, htask]
            exact spares_drainBus _ t i s _
        | dispatching job => exact spares_runDispatch htask'
        | working job => exact spares_runWorker htask'
        | reaping k delay due => exact spares_runReaper htask'
        | executing c stage =>
          obtain ⟨hsending, hwaiting⟩ := h.mayAbort htask
          exact spares_runCall htask' hsending hwaiting
        | handling id message due => exact spares_runHandling htask'
        | ended e => exact absurd trivial hended

end Mesh

end ClusterMesh
