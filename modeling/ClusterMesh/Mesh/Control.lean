import ClusterMesh.Json.Printer
import ClusterMesh.Mesh.Station

/-!
# Control commands

Commands that show and set the switches of a station: that of its producer, that of its
consumer, and those of its handlers. A command without a status only asks.
-/

namespace ClusterMesh

/-- The status that a command asks for: none for a question, and an error for a value that is
no status. -/
def Command.requestedStatus (c : Command) : Except String (Option SwitchStatus) :=
  match c.event.property? "status" with
  | none | some .null => .ok none
  | some (.bool b) => .ok (some (SwitchStatus.ofBool b))
  | some (.text s) =>
    match SwitchStatus.parse s with
    | some status => .ok (some status)
    | none => .error ("unknown status '" ++ s ++ "'")
  | some other => .error ("unknown status '" ++ other.render ++ "'")

namespace Station

def switchOf (s : Station) : ControlTarget → Switch
  | .consumer => s.consumer.switch
  | _ => s.producer.switch

def setSwitch (s : Station) (target : ControlTarget) (status : SwitchStatus) : Station :=
  match target with
  | .consumer => { s with consumer := { s.consumer with switch := s.consumer.switch.set status } }
  | .producer => { s with producer := { s.producer with switch := s.producer.switch.set status } }
  | .handlers => s

/-- Set the switch of the bound handler of a name, and its toggle with it. Tells whether there
is one. -/
def toggleHandler (s : Station) (name : String) (status : SwitchStatus) : Station × Bool :=
  match s.registry.findByName? name with
  | some (id, _) =>
    ({ s with
        registry := s.registry.setSwitch id status
        properties := s.properties.setHandlerEnabled name status.isOn },
      true)
  | none => (s, false)

def switchByCommand (s : Station) (target : ControlTarget) (c : Command) : Station × Bool :=
  match c.requestedStatus with
  | .ok (some status) => (s.setSwitch target status, true)
  | .ok none => (s, true)
  | .error _ => (s, false)

def toggleByCommand (s : Station) (c : Command) : Station × Bool :=
  match c.event.propertyText? "handler", c.requestedStatus with
  | some name, .ok (some status) => s.toggleHandler name status
  | _, .ok _ => (s, true)
  | _, .error _ => (s, false)

def statusesJson (statuses : Table String SwitchStatus) : Json :=
  (Json.object (statuses.toList.map (fun e => (e.1, .text e.2.text)))).settled

/-- Execute a control command. The result tells whether it was understood, and how the switches
are after it. -/
def executeControl (s : Station) (target : ControlTarget) (c : Command) :
    Station × CommandResult :=
  let reply := CommandResult.replyTo c target.resultType s.node
  match target with
  | .handlers =>
    let after := s.toggleByCommand c
    (after.1, (reply.setProperty "success" (.bool after.2)).setProperty "handlers"
      (statusesJson after.1.statuses))
  | target =>
    let after := s.switchByCommand target c
    (after.1, (reply.setProperty "success" (.bool after.2)).setProperty "status"
      (.text (after.1.switchOf target).status.text))

def executeDetached (s : Station) (c : Command) : CommandResult :=
  ((CommandResult.replyTo c ControlTarget.handlers.resultType s.node).setProperty "success"
    (.bool false)).setProperty "handlers" (.object [])

/-- What a control command does: nothing, or it sets a switch of the station, or the switch and the
toggle of the bound handler that it names. -/
theorem executeControl_cases (s : Station) (target : ControlTarget) (c : Command) :
    (s.executeControl target c).1 = s ∨
      (∃ status, (s.executeControl target c).1 = s.setSwitch target status) ∨
      ∃ name status id h, target = .handlers ∧ c.event.propertyText? "handler" = some name ∧
        c.requestedStatus = .ok (some status) ∧ s.registry.findByName? name = some (id, h) ∧
        (s.executeControl target c).1 = { s with
          registry := s.registry.setSwitch id status
          properties := s.properties.setHandlerEnabled name status.isOn } := by
  have hswitch : ∀ target, (s.switchByCommand target c).1 = s ∨
      ∃ status, (s.switchByCommand target c).1 = s.setSwitch target status := by
    intro target
    unfold switchByCommand
    split
    · next status _ => exact Or.inr ⟨status, rfl⟩
    · exact Or.inl rfl
    · exact Or.inl rfl
  cases target with
  | producer => exact (hswitch .producer).imp_right Or.inl
  | consumer => exact (hswitch .consumer).imp_right Or.inl
  | handlers =>
    change (s.toggleByCommand c).1 = s ∨ (∃ _, (s.toggleByCommand c).1 = _) ∨
      ∃ name status id h, _ ∧ _ ∧ _ ∧ _ ∧ (s.toggleByCommand c).1 = _
    unfold toggleByCommand
    split
    · next name status hname hstatus =>
      unfold toggleHandler
      split
      · next id h hfind =>
        exact Or.inr (Or.inr ⟨name, status, id, h, rfl, hname, hstatus, hfind, rfl⟩)
      · exact Or.inl rfl
    · exact Or.inl rfl
    · exact Or.inl rfl

/-- A control command leaves all but handlers, properties and switches as it is. -/
theorem executeControl_frame (s : Station) (target : ControlTarget) (c : Command) :
    ∃ registry properties producer consumer, (s.executeControl target c).1 = { s with
      registry := registry
      properties := properties
      producer := { s.producer with switch := producer }
      consumer := { s.consumer with switch := consumer } } := by
  rcases s.executeControl_cases target c with heq | ⟨status, heq⟩ | ⟨_, _, _, _, -, -, -, -, heq⟩
  · exact ⟨_, _, _, _, heq⟩
  · cases target <;> exact ⟨_, _, _, _, heq⟩
  · exact ⟨_, _, _, _, heq⟩

end Station

end ClusterMesh
