import ClusterMesh.Mesh.Basic
import ClusterMesh.Mesh.Control

/-!
# Handling

What a handler does with a message once it has waited as long as it has to.
-/

namespace ClusterMesh.Mesh

def note (m : Mesh) (h : Handler) (message : Message) : Mesh :=
  { m with journal := m.journal ++ [(m.now, h.name ++ ":" ++ message.id)] }

def scriptedEnd (h : Handler) : Ending → HandlerEnd
  | .succeeds => .succeeded
  | .fails => .failed (.handler h.name "scripted")
  | .panics => .panicked

def reply (m : Mesh) (i : Nat) (result : CommandResult) : Mesh × HandlerEnd :=
  match m.produce i (.result result) with
  | (m, .ok _) => (m, .succeeded)
  | (m, .error e) => (m, .failed e)

/-- The result of an answerer: it carries the text of the command. -/
def scriptedResult (node : Node) (resultType : String) (c : Command) : CommandResult :=
  (CommandResult.replyTo c resultType node).setProperty "text"
    (.text ((c.event.propertyText? "text").getD ""))

def unexpected (h : Handler) (wanted : String) (message : Message) : HandlerEnd :=
  .failed (.handler h.name ("expected a " ++ wanted ++ ", got '" ++ message.eventType ++ "'"))

def handleNow (m : Mesh) (i : Nat) (h : Handler) (message : Message) : Mesh × HandlerEnd :=
  match h.role, message with
  | .listener script, _ => (m.note h message, scriptedEnd h script.ending)
  | .answerer resultType script, .command c =>
    let m := m.note h message
    match script.ending with
    | .succeeds => m.reply i (scriptedResult (m.station i).node resultType c)
    | ending => (m, scriptedEnd h ending)
  | .control target, .command c =>
    let after := (m.station i).executeControl target c
    (m.updateStation i (fun _ => after.1)).reply i after.2
  | .correlator, .result r => ((m.correlate i r).1, .succeeded)
  | .correlator, _ => (m, unexpected h "result" message)
  | _, _ => (m, unexpected h "command" message)

def handle (m : Mesh) (i : Nat) (id : HandlerId) (message : Message) : Mesh × HandlerEnd :=
  match (m.station i).registry.handler? id with
  | some h => m.handleNow i h message
  | none => (m, .succeeded)

def waitOf (m : Mesh) (i : Nat) (id : HandlerId) (message : Message) : Nat :=
  (((m.station i).registry.handler? id).map (fun h => h.wait message)).getD 0

end ClusterMesh.Mesh
