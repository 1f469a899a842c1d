import ClusterMesh.Mesh.Run
import ClusterMesh.Mesh.Setup
import ClusterMesh.Proofs.Dispatch.Docket
import ClusterMesh.Proofs.Mesh.Step

/-!
# What dispatchers do

Messages are given to the dispatchers of a mesh, from the bus or directly, and tasks work on them:
each time a handler is looked for, found or given up, each time a handler has ended, and each
message that is taken off a queue is a step. Others may come between any two steps. A call is one
step if nothing comes between its check and the rest, and two if something does; a shutdown is two.
All that does not touch the dispatchers, what lies on the bus and the tasks that serve them stands
apart.
-/

namespace ClusterMesh

namespace Activity

/-- The work that a task has in hand. -/
def job? : Activity → Option Job
  | .dispatching job => some job
  | .working job => job
  | _ => none

/-- The task works for a dispatcher. -/
def IsOnDuty : Activity → Prop
  | .dispatching _ | .working _ => True
  | _ => False

def IsListening : Activity → Prop
  | .receiving _ => True
  | _ => False

/-- What a loop does, also after it has ended. -/
def IsLoop (a : Activity) : Prop := a.IsListening ∨ a.IsEnded

def goOn (a : Activity) (job : Job) : Activity :=
  match a with
  | .working _ => .working (some job)
  | _ => .dispatching job

/-- A worker is free for another message; other tasks have done their work. -/
def layDown : Activity → Activity
  | .working _ => .working none
  | _ => .ended .done

end Activity

/-- The part of a station in which its messages are dispatched. -/
structure Desk where
  node : Node
  dispatcher : Dispatcher
  worker : Option Nat
  loop : Option Nat

def Station.desk (s : Station) : Desk := ⟨s.node, s.dispatcher, s.worker, s.consumer.loop⟩

/-- A station that nothing was done for yet. -/
structure Station.IsFresh (s : Station) : Prop where
  dispatcher : ∃ interval timeout pool, s.dispatcher = Dispatcher.start interval timeout pool
  worker : s.worker = none
  loop : s.consumer.loop = none

namespace Bus

variable {μ : Type}

/-- How many messages were published, the last ones, and how far the subscribers are. -/
def content (b : Bus μ) : Nat × List μ × Table Nat Nat := (b.published, b.kept, b.positions)

/-- The number of the message that a subscriber reads next. -/
def place (b : Bus μ) (s : Nat) : Nat := b.published - b.unread s

end Bus

namespace Mesh

/-- The dispatchers, what lies on the bus, the loops and the tasks that work for dispatchers stay as
they are, what has ended has ended, and what was to run still is. -/
structure Apart (m m' : Mesh) : Prop where
  now : m'.now = m.now
  stations : m'.stations.length = m.stations.length
  desk : ∀ i, (m'.station i).desk = (m.station i).desk
  content : m'.bus.content = m.bus.content
  grows : m.tasks.length ≤ m'.tasks.length
  task : ∀ {t : Nat} {task : Task}, task.activity.IsOnDuty ∨ task.activity.IsListening →
    (m'.tasks[t]? = some task ↔ m.tasks[t]? = some task)
  ended : ∀ {t : Nat} {task : Task}, m.tasks[t]? = some task → task.activity.IsEnded →
    ∃ task', m'.tasks[t]? = some task' ∧ task'.activity.IsEnded
  ready : ∀ {t : Nat} {task : Task}, m.tasks[t]? = some task → task.activity.IsOnDuty →
    m.IsReady t → m'.IsReady t
  alarm : ∀ {t due : Nat} {task : Task}, m.tasks[t]? = some task → task.activity.IsOnDuty →
    m.HasAlarm due t → m'.HasAlarm due t

/-- A task can go on with the work that it has in hand. -/
structure InHand (m : Mesh) (t i : Nat) (a : Activity) (job : Job) : Prop where
  ready : m.IsReady t
  task : m.tasks[t]? = some ⟨i, a, false⟩
  job : a.job? = some job

/-- What becomes of a message that a dispatcher has dealt with. -/
def fateFor (m : Mesh) : Admission → Fate
  | .refused => .refused
  | .queued => .queued
  | .started => .taken m.tasks.length

def fateOf (m : Mesh) (i : Nat) (message : Message) : Fate :=
  m.fateFor ((m.station i).dispatcher.accept message).2

/-- What it means for a station that its loop reads a message at a place. -/
def arrival (m : Mesh) (i : Nat) (message : Message) (place : Nat) : Notice :=
  if (m.station i).takes message then .called ⟨message, some place, m.fateOf i message⟩
  else .passed message place

def leaveBus (m : Mesh) (t : Nat) : Option Nat → Mesh
  | some s => { m with bus := (m.bus.unsubscribe s).leave t }
  | none => m

def loseWorker (m : Mesh) (i t : Nat) : Mesh :=
  (m.updateDispatcher i (fun d => { d with workerGone := true })).finish t .cancelled

/-- A task does not run again before an instant, unless it is woken. -/
def restUntil (m : Mesh) (t due : Nat) : Mesh := (m.setAlarm due t).taken t

/-- A task gives its message to a handler, which takes so long. -/
def handOver (m : Mesh) (t : Nat) (a : Activity) (message : Message) (id : HandlerId) (wait : Nat) :
    Mesh :=
  (if wait = 0 then m else m.restUntil t (m.now + wait)).setActivity t
    (a.goOn ⟨message, .handling id (m.now + wait)⟩)

/-- A task ends the work on its message. -/
def conclude (m : Mesh) (t i : Nat) (a : Activity) (e : DispatchEnd) : Mesh :=
  let m := m.updateDispatcher i (fun d => d.finish e)
  match a with
  | .working _ => m.setActivity t (.working none)
  | _ => m.finish t .done

def Pauses (m : Mesh) : JobStage → Prop
  | .arrived => False
  | .searching _ next => m.now < next
  | .handling _ due => m.now < due

/-- One step of the work of a task, which goes on as another activity. A handler takes any time and
ends in any way. -/
inductive Work (m : Mesh) (t i : Nat) : Activity → Option Notice → Activity → Mesh → Prop
  | take {message : Message} {d : Dispatcher} (ready : m.IsReady t)
      (task : m.tasks[t]? = some ⟨i, .working none, false⟩)
      (next : (m.station i).dispatcher.takeQueued? = some (message, d)) :
      Work m t i (.working none) (some (.took t)) (.working (some ⟨message, .arrived⟩))
        ((m.updateDispatcher i (fun _ => d)).setActivity t (.working (some ⟨message, .arrived⟩)))
  | window {a : Activity} {message : Message} {deadline : Nat}
      (hand : m.InHand t i a ⟨message, .arrived⟩)
      (timeout : deadline = m.now + (m.station i).dispatcher.timeout) :
      Work m t i a (some (.opened t deadline)) (a.goOn ⟨message, .searching deadline m.now⟩)
        (m.setActivity t (a.goOn ⟨message, .searching deadline m.now⟩))
  | invoke {a : Activity} {message : Message} {deadline next : Nat} {id : HandlerId}
      (hand : m.InHand t i a ⟨message, .searching deadline next⟩) (due : next ≤ m.now)
      (found : (m.station i).lookup? message.eventType = some id) (wait : Nat) :
      Work m t i a (some (.invoked t id)) (a.goOn ⟨message, .handling id (m.now + wait)⟩)
        (m.handOver t a message id wait)
  | search {a : Activity} {message : Message} {deadline next next' : Nat}
      (hand : m.InHand t i a ⟨message, .searching deadline next⟩) (due : next ≤ m.now)
      (missing : (m.station i).lookup? message.eventType = none)
      (again : (m.station i).dispatcher.nextLookup? m.now deadline = some next') :
      Work m t i a none (a.goOn ⟨message, .searching deadline next'⟩)
        ((m.restUntil t next').setActivity t (a.goOn ⟨message, .searching deadline next'⟩))
  | giveUp {a : Activity} {message : Message} {deadline next : Nat}
      (hand : m.InHand t i a ⟨message, .searching deadline next⟩) (due : next ≤ m.now)
      (missing : (m.station i).lookup? message.eventType = none)
      (never : (m.station i).dispatcher.nextLookup? m.now deadline = none) :
      Work m t i a (some (.ended t .unhandled)) a.layDown (m.conclude t i a .unhandled)
  | finish {a : Activity} {message : Message} {due : Nat} {id : HandlerId}
      (hand : m.InHand t i a ⟨message, .handling id due⟩) (ready : due ≤ m.now) (e : HandlerEnd) :
      Work m t i a (some (.ended t (countedAs e))) a.layDown (m.conclude t i a (countedAs e))
  | rest {a : Activity} {job : Job} (hand : m.InHand t i a job) (pauses : m.Pauses job.stage) :
      Work m t i a none a (m.taken t)
  | idle (task : m.tasks[t]? = some ⟨i, .working none, false⟩)
      (empty : (m.station i).dispatcher.queue = []) :
      Work m t i (.working none) none (.working none) (m.taken t)
  | quit (task : m.tasks[t]? = some ⟨i, .working none, false⟩)
      (empty : (m.station i).dispatcher.queue = [])
      (severed : (m.station i).dispatcher.severed = true) :
      Work m t i (.working none) none (.ended .done) (m.finish t .done)

/-- One step, and what happens at which station. Whatever a handler does are steps of their own. -/
inductive Duty (m : Mesh) : Option (Nat × Notice) → Mesh → Prop
  | apart {m' : Mesh} (h : m.Apart m') : Duty m none m'
  | pass (instant : Nat) (later : m.now ≤ instant) : Duty m none (machine.ring m instant)
  | found {s : Station} (fresh : s.IsFresh) : Duty m none (m.addStation s).1
  | start {i : Nat} (busIsGone : Bool) (placed : i < m.stations.length) :
      Duty m none (m.startConsumer i busIsGone)
  | stop (i : Nat) : Duty m none (m.stopConsumer i)
  | leave {t i : Nat} {σ : Option Nat} {aborted : Bool} (e : TaskEnd)
      (task : m.tasks[t]? = some ⟨i, .receiving σ, aborted⟩) (quits : aborted = true ∨ σ = none) :
      Duty m none ((m.leaveBus t σ).finish t e)
  | send {i : Nat} (message : Message) (placed : i < m.stations.length) :
      Duty m (some (i, .sent message (m.produce i message).2)) (m.produce i message).1
  | receive {t i s : Nat} {bus : Bus Message} {message : Message}
      (task : m.tasks[t]? = some ⟨i, .receiving (some s), false⟩) (placed : i < m.stations.length)
      (next : m.bus.receive s = (bus, .message message)) :
      Duty m (some (i, m.arrival i message (m.bus.place s)))
        ({ m with bus := bus }.consume i message).1
  | lag {t i s missed : Nat} {bus : Bus Message}
      (task : m.tasks[t]? = some ⟨i, .receiving (some s), false⟩)
      (next : m.bus.receive s = (bus, .lagged missed)) : Duty m none { m with bus := bus }
  | call {i : Nat} (message : Message) (placed : i < m.stations.length) :
      Duty m (some (i, .called ⟨message, none, m.fateOf i message⟩)) (m.dispatch i message)
  | enter {i : Nat} (message : Message) (placed : i < m.stations.length)
      (opened : (m.station i).dispatcher.closed = false) :
      Duty m (some (i, .entered ⟨message, none⟩)) (m.beginDispatch i ⟨message, none⟩)
  | read {t i s : Nat} {bus : Bus Message} {message : Message}
      (task : m.tasks[t]? = some ⟨i, .receiving (some s), false⟩) (placed : i < m.stations.length)
      (next : m.bus.receive s = (bus, .message message))
      (takes : (m.station i).takes message = true)
      (opened : (m.station i).dispatcher.closed = false) :
      Duty m (some (i, .entered ⟨message, some (m.bus.place s)⟩))
        ({ m with bus := bus }.beginDispatch i ⟨message, some (m.bus.place s)⟩)
  | resume {i k : Nat} {c : DispatchCall} (placed : i < m.stations.length)
      (underWay : (m.station i).dispatcher.entering[k]? = some c) :
      Duty m (some (i, .called ⟨c.message, c.origin,
        m.fateFor (((m.station i).dispatcher.resume k).place c.message).2⟩))
        (m.endDispatch i k c.message)
  | close {i : Nat} (placed : i < m.stations.length) : Duty m (some (i, .closed)) (m.close i)
  | sever {i : Nat} (placed : i < m.stations.length)
      (closed : (m.station i).dispatcher.closed = true) :
      Duty m (some (i, .severed)) (m.sever i)
  | fail {t i : Nat} {job : Option Job} {aborted : Bool}
      (single : (m.station i).dispatcher.pool = .single) (worker : (m.station i).worker = some t)
      (task : m.tasks[t]? = some ⟨i, .working job, aborted⟩) :
      Duty m (some (i, .failed)) (m.loseWorker i t)
  | work {t i : Nat} {a a' : Activity} {notice : Option Notice} {m' : Mesh}
      (h : m.Work t i a notice a' m') : Duty m (notice.map (fun notice => (i, notice))) m'

theorem Apart.refl (m : Mesh) : m.Apart m where
  now := rfl
  stations := rfl
  desk := fun _ => rfl
  content := rfl
  grows := Nat.le_refl _
  task := fun _ => Iff.rfl
  ended := fun htask hended => ⟨_, htask, hended⟩
  ready := fun _ _ h => h
  alarm := fun _ _ h => h

theorem Apart.trans {m m' m'' : Mesh} (h : m.Apart m') (h' : m'.Apart m'') : m.Apart m'' where
  now := h'.now.trans h.now
  stations := h'.stations.trans h.stations
  desk := fun i => (h'.desk i).trans (h.desk i)
  content := h'.content.trans h.content
  grows := Nat.le_trans h.grows h'.grows
  task := fun hserves => (h'.task hserves).trans (h.task hserves)
  ended := by
    intro t task htask hended
    obtain ⟨task', htask', hended'⟩ := h.ended htask hended
    exact h'.ended htask' hended'
  ready := fun htask hduty hready =>
    h'.ready ((h.task (Or.inl hduty)).mpr htask) hduty (h.ready htask hduty hready)
  alarm := fun htask hduty halarm =>
    h'.alarm ((h.task (Or.inl hduty)).mpr htask) hduty (h.alarm htask hduty halarm)

end Mesh

/-- A run of a mesh and its dispatchers: the states, and what happens between them. -/
structure Service where
  state : Nat → Mesh
  event : Nat → Option (Nat × Notice)
  start : ∃ capacity, state 0 = Mesh.ofCapacity capacity
  step : ∀ n, (state n).Duty (event n) (state (n + 1))

namespace Docket

/-- The docket of a station after something has happened somewhere. -/
def follow (d : Docket) (i : Nat) : Option (Nat × Notice) → Docket
  | some (j, notice) => if j = i then d.after notice else d
  | none => d

@[simp] theorem follow_own (d : Docket) (i : Nat) (notice : Notice) :
    d.follow i (some (i, notice)) = d.after notice := if_pos rfl

theorem follow_of_ne (d : Docket) {i j : Nat} (h : j ≠ i) (notice : Notice) :
    d.follow i (some (j, notice)) = d := if_neg h

theorem follow_of_silent (d : Docket) {i : Nat} {e : Option (Nat × Notice)}
    (h : ∀ notice, e = some (i, notice) → notice.IsSilent) : d.follow i e = d := by
  cases e with
  | none => rfl
  | some x =>
    obtain ⟨j, notice⟩ := x
    by_cases hj : j = i
    · subst hj
      have hsilent := h notice rfl
      rw [follow_own]
      cases notice with
      | sent _ _ | passed _ _ => rfl
      | _ => exact hsilent.elim
    · exact d.follow_of_ne hj notice

end Docket

namespace Service

/-- The docket of a station before a step. -/
def docket (h : Service) (i : Nat) : Nat → Docket
  | 0 => []
  | n + 1 => (docket h i n).follow i (h.event n)

end Service

end ClusterMesh
