import ClusterMesh.Proofs.Dispatch.Duty
import ClusterMesh.Proofs.Mesh.Turns
import ClusterMesh.Proofs.Traffic.Calm

/-!
# How messages move

A message is published, taken off the bus by a station, and dealt with by a handler, which may
answer a command or hand a result to the command that waits for it. Whatever a task does in its
turn is a sequence of such moves.
-/

namespace ClusterMesh

/-- A result that was built from a command as the answer of a node. -/
def CommandResult.Answers (result : CommandResult) (c : Command) (node : Node) : Prop :=
  ∃ resultType properties,
    result.event = { (CommandResult.replyTo c resultType node).event with properties := properties }

inductive Traffic
  | submits (station : Nat) (c : Command)
  | injects (message : Message)
  | sends (station : Nat) (c : Command)
  | arrives (station : Nat) (message : Message)
  | answers (station : Nat) (c : Command) (result : CommandResult)
  | takesIn (station : Nat) (result : CommandResult)
  | calm

namespace Traffic

/-- The message that a handler deals with. -/
def message? : Traffic → Option Message
  | answers _ c _ => some (.command c)
  | takesIn _ result => some (.result result)
  | _ => none

end Traffic

namespace Mesh

/-- One move, and what moves. A handler deals with a message that its station holds, or that it
held up to then. Only a call that is submitted and a message that is published or handed over
from outside bring anything in. -/
inductive Move (m : Mesh) : Traffic → Mesh → Prop
  | submit {i : Nat} (c : Command) (placed : i < m.stations.length) :
      Move m (.submits i c) (m.execute i c).1
  | publish (message : Message) : Move m (.injects message) (m.publish message)
  | hand {i : Nat} (message : Message) (placed : i < m.stations.length) :
      Move m (.injects message) (m.consume i message).1
  | correlate {i : Nat} (result : CommandResult) (placed : i < m.stations.length) :
      Move m (.injects (.result result)) (m.correlate i result).1
  | send {i : Nat} {c : Command} (executes : m.Executes i c) :
      Move m (.sends i (c.stamped (m.station i).node))
        (m.publish (.command (c.stamped (m.station i).node)))
  | enter {i : Nat} (message : Message) (placed : i < m.stations.length)
      (takes : (m.station i).takes message = true) :
      Move m (.injects message) (m.beginDispatch i ⟨message, none⟩)
  | arrive {i subscriber : Nat} {bus : Bus Message} {message : Message}
      (received : m.bus.receive subscriber = (bus, .message message))
      (placed : i < m.stations.length) :
      Move m (.arrives i message) ({ m with bus := bus }.consume i message).1
  | read {i subscriber : Nat} {bus : Bus Message} {message : Message}
      (received : m.bus.receive subscriber = (bus, .message message))
      (placed : i < m.stations.length) (takes : (m.station i).takes message = true) :
      Move m (.arrives i message)
        ({ m with bus := bus }.beginDispatch i ⟨message, some (m.bus.place subscriber)⟩)
  | answer {m' : Mesh} {i : Nat} {c : Command} {result : CommandResult}
      (held : m.Holds i (.command c)) (calm : m.Calm m')
      (answers : result.Answers c (m.station i).node) :
      Move m (.answers i c result) (m'.publish (.result result))
  | takeIn {m' : Mesh} {i : Nat} {result : CommandResult} (held : m.Holds i (.result result))
      (calm : m.Calm m') : Move m (.takesIn i result) (m'.correlate i result).1
  | calm {m' : Mesh} (h : m.Calm m') : Move m .calm m'

inductive Course (m : Mesh) : List Traffic → Mesh → Prop
  | stay : Course m [] m
  | move {es : List Traffic} {e : Traffic} {m' m'' : Mesh} (course : Course m es m')
      (move : m'.Move e m'') : Course m (es ++ [e]) m''

/-- There is a sequence of moves in which handlers deal with certain messages only, and nothing
comes in from outside. -/
def Flows (m : Mesh) (S : Message → Prop) (m' : Mesh) : Prop :=
  ∃ es, m.Course es m' ∧ ∀ e ∈ es, (∀ message, e.message? = some message → S message) ∧
    (∀ i c, e ≠ .submits i c) ∧ ∀ message, e ≠ .injects message

variable {m m' m'' : Mesh} {t i : Nat} {S : Message → Prop} {message : Message}

theorem Course.trans {es es' : List Traffic} (h : m.Course es m') (h' : m'.Course es' m'') :
    m.Course (es ++ es') m'' := by
  induction h' with
  | stay => rwa [List.append_nil]
  | move _ hmove ih =>
    rw [← List.append_assoc]
    exact ih.move hmove

theorem Flows.refl (m : Mesh) (S : Message → Prop) : m.Flows S m :=
  ⟨[], .stay, fun _ => List.not_mem_nil.elim⟩

theorem Flows.trans (h : m.Flows S m') (h' : m'.Flows S m'') : m.Flows S m'' := by
  obtain ⟨es, hcourse, hes⟩ := h
  obtain ⟨es', hcourse', hes'⟩ := h'
  refine ⟨es ++ es', hcourse.trans hcourse', fun e he => ?_⟩
  exact (List.mem_append.mp he).elim (hes e) (hes' e)

theorem Move.flows {e : Traffic} (h : m.Move e m')
    (hS : ∀ message, e.message? = some message → S message) (hsubmits : ∀ i c, e ≠ .submits i c)
    (hinjects : ∀ message, e ≠ .injects message) : m.Flows S m' := by
  refine ⟨[e], Course.stay.move h, fun e' he => ?_⟩
  rw [List.mem_singleton.mp he]
  exact ⟨hS, hsubmits, hinjects⟩

theorem Calm.flows (h : m.Calm m') (S : Message → Prop) : m.Flows S m' :=
  (Move.calm h).flows (fun _ heq => by cases heq) (fun _ _ heq => by cases heq)
    (fun _ heq => by cases heq)

/-! ### Handlers -/

theorem stamped_of_answers {result : CommandResult} {c : Command} {node : Node}
    (h : result.Answers c node) (n : Node) : (Message.result result).stamped n = .result result := by
  obtain ⟨resultType, properties, hevent⟩ := h
  obtain ⟨event⟩ := result
  obtain rfl : event = _ := hevent
  rfl

theorem answers_setProperty {result : CommandResult} {c : Command} {node : Node}
    (h : result.Answers c node) (name : String) (value : Json) :
    (result.setProperty name value).Answers c node := by
  obtain ⟨resultType, properties, hevent⟩ := h
  refine ⟨resultType, Table.set result.event.properties name value, ?_⟩
  simp only [CommandResult.setProperty, Event.setProperty, hevent]

theorem answers_replyTo (c : Command) (resultType : String) (node : Node) :
    (CommandResult.replyTo c resultType node).Answers c node := ⟨resultType, _, rfl⟩

theorem answers_executeControl (s : Station) (target : ControlTarget) (c : Command) :
    (s.executeControl target c).2.Answers c s.node := by
  have hreply := answers_replyTo c target.resultType s.node
  cases target <;> exact answers_setProperty (answers_setProperty hreply _ _) _ _

theorem node_executeControl (s : Station) (target : ControlTarget) (c : Command) :
    (s.executeControl target c).1.node = s.node ∧
      (s.executeControl target c).1.dispatcher = s.dispatcher := by
  obtain ⟨_, _, _, _, heq⟩ := s.executeControl_frame target c
  rw [heq]
  exact ⟨rfl, rfl⟩

theorem flows_answer {c : Command} {result : CommandResult} (hheld : m.Holds i (.command c))
    (hcalm : m.Calm m') (hanswers : result.Answers c (m.station i).node)
    (hS : S (.command c)) : m.Flows S (m'.produce i (.result result)).1 := by
  obtain heq | heq := produce_cases m' i (.result result)
  · rw [heq]
    exact hcalm.flows S
  · rw [heq, stamped_of_answers hanswers]
    refine (Move.answer hheld hcalm hanswers).flows ?_ (fun _ _ heq => by cases heq)
      (fun _ heq => by cases heq)
    intro message heq
    cases heq
    exact hS

theorem flows_handle (hheld : m.Holds i message) (hcalm : m.Calm m') (id : HandlerId)
    (hS : S message) :
    m.Flows S (m'.handle i id message).1 := by
  have hnode : (m'.station i).node = (m.station i).node := hcalm.node hheld.1
  have hnote : ∀ h, m.Calm (m'.note h message) := fun h => hcalm.trans (calm_note m' h message)
  obtain heq | ⟨h, heq⟩ | ⟨h, c, resultType, rfl, heq⟩ | ⟨c, target, rfl, heq⟩ | ⟨result, rfl, heq⟩ :=
    handle_cases m' i id message
  · rw [heq]
    exact hcalm.flows S
  · rw [heq]
    exact (hnote h).flows S
  · rw [heq, hnode]
    exact flows_answer hheld (hnote h) (answers_setProperty (answers_replyTo c resultType _) _ _) hS
  · have hcontrol := node_executeControl (m'.station i) target c
    have hstore := store_executeControl (m'.station i) target c
    rw [heq]
    refine flows_answer hheld (hcalm.trans (calm_updateStation hcontrol.1 ?_ ?_)) ?_ hS
    · rw [hcontrol.2]
      exact fun hqueue => hqueue
    · rw [hstore]
      exact .refl _
    · rw [← hnode]
      exact answers_executeControl _ target c
  · rw [heq]
    refine (Move.takeIn hheld hcalm).flows ?_ (fun _ _ heq => by cases heq)
      (fun _ heq => by cases heq)
    intro message heq
    cases heq
    exact hS

/-! ### Turns -/

theorem tasks_handle (m : Mesh) (i : Nat) (id : HandlerId) (message : Message) :
    (m.handle i id message).1.tasks = m.tasks := by
  obtain heq | ⟨h, heq⟩ | ⟨h, c, resultType, -, heq⟩ | ⟨c, target, -, heq⟩ | ⟨result, -, heq⟩ :=
    handle_cases m i id message
  · rw [heq]
  · rw [heq]
    rfl
  · rw [heq, (produce_keeps _ i _).1]
    rfl
  · rw [heq, (produce_keeps _ i _).1]
    rfl
  · rw [heq, tasks_correlate]

theorem dispatcher_updateStation {f : Station → Station}
    (hf : (f (m.station i)).dispatcher = (m.station i).dispatcher) (j : Nat) :
    ((m.updateStation i f).station j).dispatcher = (m.station j).dispatcher := by
  rw [station_updateStation]
  split
  · next h => rw [hf, h.1]
  · rfl

theorem dispatcher_handle (m : Mesh) (i : Nat) (id : HandlerId) (message : Message) (j : Nat) :
    ((m.handle i id message).1.station j).dispatcher = (m.station j).dispatcher := by
  have hproduce : ∀ (m : Mesh) (message : Message),
      ((m.produce i message).1.station j).dispatcher = (m.station j).dispatcher := by
    intro m message
    rw [station, (produce_keeps m i message).2, station]
  obtain heq | ⟨h, heq⟩ | ⟨h, c, resultType, -, heq⟩ | ⟨c, target, -, heq⟩ | ⟨result, -, heq⟩ :=
    handle_cases m i id message
  · rw [heq]
  · rw [heq]
    rfl
  · rw [heq, hproduce]
    rfl
  · rw [heq, hproduce]
    exact dispatcher_updateStation (node_executeControl (m.station i) target c).2 j
  · have hstore := dispatcher_updateStation (m := m) (i := i)
      (f := fun s => { s with store := ((m.store i).correlate result).1 }) rfl j
    rw [heq]
    simp only [correlate]
    split
    · rw [station, stations_wakeCaller]
      exact hstore
    · exact hstore

/-- The work on a message that was at the station goes on with the same message, or ends after a
handler has dealt with it, if one was found. -/
inductive JobStep (m : Mesh) (S : Message → Prop) (message : Message) (m' : Mesh) :
    Option Job → Prop
  | waits {job : Job} (same : job.message = message) (calm : m.Calm m') :
      JobStep m S message m' (some job)
  | ends (flows : m.Flows S m') : JobStep m S message m' none

theorem calm_count (m : Mesh) (i : Nat) (e : DispatchEnd) :
    m.Calm (m.updateDispatcher i fun d => d.finish e) :=
  calm_updateDispatcher fun h => h

theorem calm_setAlarm (m : Mesh) (due t : Nat) : m.Calm (m.setAlarm due t) :=
  calm_of_eq rfl rfl fun h => h

theorem jobStep_stepJob (job : Job) (hheld : m.Holds i job.message) (hcalm : m.Calm m') (t : Nat)
    (hS : S job.message) :
    m.JobStep S job.message (m'.stepJob t i job).1 (m'.stepJob t i job).2 := by
  obtain heq | ⟨due, stage, heq⟩ | heq | ⟨id, heq⟩ := stepJob_cases m' t i job
  · rw [heq]
    exact .waits rfl hcalm
  · rw [heq]
    exact .waits rfl (hcalm.trans (calm_setAlarm m' due t))
  · rw [heq]
    exact .ends ((hcalm.trans (calm_count m' i .unhandled)).flows S)
  · rw [heq]
    exact .ends ((flows_handle hheld hcalm id hS).trans ((calm_count _ i _).flows S))

theorem tasks_stepJob (m : Mesh) (t i : Nat) (job : Job) :
    (m.stepJob t i job).1.tasks = m.tasks := by
  obtain heq | ⟨due, stage, heq⟩ | heq | ⟨id, heq⟩ := stepJob_cases m t i job
  · rw [heq]
  · rw [heq]
    rfl
  · rw [heq]
    rfl
  · rw [heq]
    exact tasks_handle m i id job.message

theorem queue_stepJob (m : Mesh) (t i : Nat) (job : Job) (j : Nat) :
    ((m.stepJob t i job).1.station j).dispatcher.queue = (m.station j).dispatcher.queue := by
  have hcount : ∀ (m : Mesh) (e : DispatchEnd),
      ((m.updateDispatcher i fun d => d.finish e).station j).dispatcher.queue =
        (m.station j).dispatcher.queue := by
    intro m e
    rw [station_updateDispatcher]
    split
    · next h => rw [h.1]; rfl
    · rfl
  obtain heq | ⟨due, stage, heq⟩ | heq | ⟨id, heq⟩ := stepJob_cases m t i job
  · rw [heq]
  · rw [heq]
    rfl
  · rw [heq]
    exact hcount m .unhandled
  · rw [heq]
    exact (hcount _ _).trans (congrArg Dispatcher.queue (dispatcher_handle m i id job.message j))

theorem length_stepJob (hi : i < m.stations.length) (t : Nat) (job : Job) :
    (m.stepJob t i job).1.stations.length = m.stations.length :=
  (works_stepJob hi job 0).stations

theorem flows_runDispatch (hi : i < m.stations.length) {job : Job} {aborted : Bool}
    (htask : m.tasks[t]? = some ⟨i, .dispatching job, aborted⟩) (hS : S job.message) :
    m.Flows S (m.runDispatch t i job) := by
  have hheld : m.Holds i job.message := ⟨hi, Or.inl ⟨t, _, htask, rfl, rfl⟩⟩
  have hstep := jobStep_stepJob job hheld (.refl m) t hS
  have htasks := tasks_stepJob m t i job
  unfold runDispatch
  generalize m.stepJob t i job = after at hstep htasks
  obtain ⟨m', job'⟩ := after
  cases hstep with
  | @waits job' same calm =>
    have htask' : m'.tasks[t]? = some ⟨i, .dispatching job, aborted⟩ := by rw [htasks, htask]
    refine (calm.setActivity htask' ?_ (fun h => by cases h)).flows S
    intro message heq
    cases heq
    rwa [same]
  | ends flows => exact flows.trans ((calm_finish m' t _).flows S)

theorem flows_takeTurns (hi : i < m.stations.length) {a : Activity} {aborted : Bool}
    (htask : m.tasks[t]? = some ⟨i, a, aborted⟩) (fuel : Nat)
    (hS : ∀ message ∈ (m.station i).dispatcher.queue, S message) :
    m.Flows S (m.takeTurns t i fuel) := by
  induction fuel generalizing m with
  | zero =>
    exact ((Calm.refl m).setActivity htask (fun h => by cases h) (fun h => by cases h)).flows S
  | succ fuel ih =>
    simp only [takeTurns]
    split
    · split
      · exact (calm_finish m t _).flows S
      · exact ((Calm.refl m).setActivity htask (fun h => by cases h) (fun h => by cases h)).flows S
    · next message d htake =>
      -- the message leaves the queue before the work on it begins
      obtain ⟨hqueue, hrest, hentering⟩ : message ∈ (m.station i).dispatcher.queue ∧
          (∀ other ∈ d.queue, other ∈ (m.station i).dispatcher.queue) ∧
            d.entering = (m.station i).dispatcher.entering := by
        unfold Dispatcher.takeQueued? at htake
        split at htake
        · cases htake
        · next first rest heq =>
          cases htake
          rw [heq]
          exact ⟨List.mem_cons_self, fun other => List.mem_cons_of_mem _, rfl⟩
      have hheld : m.Holds i message := ⟨hi, Or.inr (List.mem_append_left _ hqueue)⟩
      have hcalm : m.Calm (m.updateDispatcher i fun _ => d) := by
        refine calm_updateDispatcher fun {other} h => ?_
        rw [Dispatcher.waits, hentering] at h
        exact List.mem_append.mpr ((List.mem_append.mp h).imp_left (hrest other))
      have hi' : i < (m.updateDispatcher i fun _ => d).stations.length := by
        rw [updateDispatcher, updateStation, List.length_modify]
        exact hi
      have hd : ((m.updateDispatcher i fun _ => d).station i).dispatcher = d := by
        rw [updateDispatcher, station_updateStation, if_pos ⟨rfl, hi⟩]
      have hstep := jobStep_stepJob ⟨message, .arrived⟩ hheld hcalm t (hS message hqueue)
      have htasks := tasks_stepJob (m.updateDispatcher i fun _ => d) t i ⟨message, .arrived⟩
      have hqueue' := queue_stepJob (m.updateDispatcher i fun _ => d) t i ⟨message, .arrived⟩ i
      have hlength := length_stepJob hi' t ⟨message, .arrived⟩
      generalize (m.updateDispatcher i fun _ => d).stepJob t i ⟨message, .arrived⟩ = after at *
      obtain ⟨m', job'⟩ := after
      have htask' : m'.tasks[t]? = some ⟨i, a, aborted⟩ := by
        rw [show m'.tasks = m.tasks from htasks, htask]
      cases hstep with
      | @waits job' same calm =>
        refine (calm.setActivity htask' ?_ (fun h => by cases h)).flows S
        intro other heq
        cases heq
        rwa [same]
      | ends flows =>
        refine flows.trans (ih (hlength ▸ hi') htask' ?_)
        intro other hother
        rw [hqueue', hd] at hother
        exact hS other (hrest other hother)

theorem flows_runWorker (hi : i < m.stations.length) {job : Option Job} {aborted : Bool}
    (htask : m.tasks[t]? = some ⟨i, .working job, aborted⟩)
    (hjob : ∀ job' ∈ job, S job'.message)
    (hS : ∀ message ∈ (m.station i).dispatcher.queue, S message) :
    m.Flows S (m.runWorker t i job) := by
  cases job with
  | none => exact flows_takeTurns hi htask _ hS
  | some job =>
    have hheld : m.Holds i job.message := ⟨hi, Or.inl ⟨t, _, htask, rfl, rfl⟩⟩
    have hstep := jobStep_stepJob job hheld (.refl m) t (hjob job rfl)
    have htasks := tasks_stepJob m t i job
    have hqueue := queue_stepJob m t i job i
    have hlength := length_stepJob hi t job
    simp only [runWorker]
    generalize m.stepJob t i job = after at *
    obtain ⟨m', job'⟩ := after
    have htask' : m'.tasks[t]? = some ⟨i, .working (some job), aborted⟩ := by
      rw [show m'.tasks = m.tasks from htasks, htask]
    cases hstep with
    | @waits job' same calm =>
      refine (calm.setActivity htask' ?_ (fun h => by cases h)).flows S
      intro message heq
      cases heq
      rwa [same]
    | ends flows =>
      refine flows.trans (flows_takeTurns (hlength ▸ hi) htask' _ ?_)
      intro message hmessage
      rw [hqueue] at hmessage
      exact hS message hmessage

theorem flows_drainBus (hi : i < m.stations.length) (t subscriber fuel : Nat)
    (S : Message → Prop) : m.Flows S (m.drainBus t i subscriber fuel) := by
  induction fuel generalizing m with
  | zero => exact .refl m S
  | succ fuel ih =>
    have hbus : ∀ {bus : Bus Message} {reception : Reception Message},
        m.bus.receive subscriber = (bus, reception) → bus.kept = m.bus.kept := by
      intro bus reception h
      simp only [Bus.receive] at h
      split at h
      · cases h
        rfl
      · split at h <;> cases h <;> rfl
    simp only [drainBus]
    split
    · next bus heq =>
      have hkept : bus.kept = m.bus.kept := hbus heq
      have hcalm : m.Calm { m with bus := bus.await t } :=
        calm_of_eq rfl rfl fun h => hkept ▸ h
      exact hcalm.flows S
    · next bus message heq =>
      have hlength : (({ m with bus := bus } : Mesh).consume i message).1.stations.length =
          m.stations.length := (serves_consume (m := { m with bus := bus }) hi message).stations
      have harrive := (Move.arrive heq hi).flows (S := S) (fun _ h => by cases h)
        (fun _ _ h => by cases h) (fun _ h => by cases h)
      exact harrive.trans (ih (hlength ▸ hi))
    · next bus missed heq =>
      have hkept : bus.kept = m.bus.kept := hbus heq
      have hcalm : m.Calm { m with bus := bus } := calm_of_eq rfl rfl fun h => hkept ▸ h
      exact (hcalm.flows S).trans (ih hi)

theorem flows_runHandling (hi : i < m.stations.length) {id : HandlerId} {due : Option Nat}
    {aborted : Bool} (htask : m.tasks[t]? = some ⟨i, .handling id message due, aborted⟩)
    (hS : S message) : m.Flows S (m.runHandling t i id message due) := by
  have hheld : m.Holds i message := ⟨hi, Or.inl ⟨t, _, htask, rfl, rfl⟩⟩
  have hset : ∀ instant, m.Calm (m.setActivity t (.handling id message (some instant))) := by
    intro instant
    refine (Calm.refl m).setActivity htask ?_ (fun h => by cases h)
    intro other heq
    cases heq
    exact hheld
  simp only [runHandling]
  split
  · split
    · exact ((hset _).trans (calm_setAlarm _ _ t)).flows S
    · exact (hset _).flows S
  · exact (flows_handle hheld (.refl m) id hS).trans ((calm_finish _ t _).flows S)

theorem flows_send (hi : i < m.stations.length) {c : Command} {k timeout reaper : Nat}
    {aborted : Bool}
    (htask : m.tasks[t]? = some ⟨i, .executing c (.sending k timeout reaper), aborted⟩)
    (S : Message → Prop) : m.Flows S (m.send t i c k timeout reaper) := by
  have hexecutes : m.Executes i c := ⟨hi, t, _, aborted, fun h => (by cases h), htask⟩
  have hproduce : m.Flows S (m.produce i (.command c)).1 := by
    rcases produce_cases m i (.command c) with heq | heq
    · rw [heq]
      exact .refl m S
    · rw [heq]
      exact (Move.send hexecutes).flows (fun _ h => by cases h) (fun _ _ h => by cases h)
        (fun _ h => by cases h)
  have htask' : (m.produce i (.command c)).1.tasks[t]? =
      some ⟨i, .executing c (.sending k timeout reaper), aborted⟩ := by
    rw [(produce_keeps m i _).1, htask]
  have hi' : i < (m.produce i (.command c)).1.stations.length := by
    rw [(serves_produce m i (.command c)).stations]
    exact hi
  exact hproduce.trans ((calm_depart hi' htask' _).flows S)

theorem flows_runCall (hi : i < m.stations.length) {c : Command} {stage : CallStage}
    (htask : m.tasks[t]? = some ⟨i, .executing c stage, false⟩) (S : Message → Prop) :
    m.Flows S (m.runCall t i c stage) := by
  cases stage with
  | submitted =>
    simp only [runCall, submit]
    split
    · exact (calm_endCall m t _).flows S
    · have henter := calm_enter hi htask
      have hsending := tasks_enter htask (c.stamped (m.station i).node)
      exact (henter.flows S).trans
        (flows_send (Nat.lt_of_lt_of_le hi henter.stations) hsending S)
  | sending k timeout reaper => exact flows_send hi htask S
  | waiting k due reaper => exact (calm_awaitResults m t i c k due reaper).flows S

/-- What a task works on in its turn: its own message and, if it is a worker, the queue of its
station. -/
def WorksOn (m : Mesh) (t : Nat) (message : Message) : Prop :=
  ∃ task, m.tasks[t]? = some task ∧ (task.activity.held = some message ∨
    (∃ job, task.activity = .working job) ∧ message ∈ (m.station task.station).dispatcher.queue)

/-- Whatever a task does in its turn is a sequence of moves. -/
theorem flows_run (hplaced : m.Placed) (t : Nat) : m.Flows (m.WorksOn t) ((m.taken t).run t) := by
  have htaken : m.Calm (m.taken t) := calm_of_eq rfl rfl fun h => h
  cases htask : m.tasks[t]? with
  | none =>
    rw [run_of_missing (m := m.taken t) htask]
    exact htaken.flows _
  | some task =>
    obtain ⟨i, a, aborted⟩ := task
    have hi : i < (m.taken t).stations.length := hplaced.lt htask
    have htask' : (m.taken t).tasks[t]? = some ⟨i, a, aborted⟩ := htask
    have hown : ∀ {message}, a.held = some message → m.WorksOn t message :=
      fun h => ⟨_, htask, Or.inl h⟩
    refine (htaken.flows _).trans ?_
    by_cases hended : a.IsEnded
    · cases a with
      | ended e =>
        rw [run_of_ended htask']
        exact .refl _ _
      | _ => exact hended.elim
    · cases aborted with
      | true =>
        rw [run_of_aborted htask' hended]
        exact (calm_drop _ t i a).flows _
      | false =>
        simp only [run, htask', if_false, Bool.false_eq_true]
        cases a with
        | receiving subscriber =>
          cases subscriber with
          | none => exact (calm_finish _ t _).flows _
          | some subscriber => exact flows_drainBus hi t subscriber _ _
        | dispatching job => exact flows_runDispatch hi htask' (hown rfl)
        | working job =>
          refine flows_runWorker hi htask' ?_ ?_
          · intro job' hjob
            obtain rfl := hjob
            exact hown rfl
          · intro message hmessage
            exact ⟨_, htask, Or.inr ⟨⟨job, rfl⟩, hmessage⟩⟩
        | reaping k delay due => exact (calm_runReaper htask').flows _
        | executing c stage => exact flows_runCall hi htask' _
        | handling id message due => exact flows_runHandling hi htask' (hown rfl)
        | ended e => exact absurd trivial hended

end Mesh

end ClusterMesh
