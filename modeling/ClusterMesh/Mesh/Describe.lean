import ClusterMesh.Mesh.Station
import ClusterMesh.Text.Quoted

/-!
# Descriptions

The texts that describe the parts of a station to a reader of a log.
-/

namespace ClusterMesh

def Node.describe (n : Node) : String :=
  let called :=
    match n.nickname with
    | some nickname => "Some(" ++ Text.quoted nickname ++ ")"
    | none => "None"
  "Node \x7b id: " ++ Text.quoted n.id ++ ", alias: " ++ called ++ ", host: " ++
    Text.quoted n.host ++ ", port: " ++ toString n.port.toNat ++ " \x7d"

def Pending.describe (p : Pending) : String :=
  "PendingCommand \x7b id: " ++ Text.quoted p.id ++ ", command_type: " ++
    Text.quoted p.command.commandType ++ ", received: " ++ toString p.received ++
    ", completed: " ++ toString p.completed ++ " \x7d"

/-- The text of a duration that is given in milliseconds: none at all is zero nanoseconds, and
from one second on it is in whole or broken seconds. -/
def durationText (ms : Nat) : String :=
  if ms = 0 then "0ns"
  else if ms < 1000 then toString ms ++ "ms"
  else
    let part := ms % 1000
    let digits := (toString (1000 + part)).toList.drop 1
    let kept := (digits.reverse.dropWhile (· == '0')).reverse
    toString (ms / 1000) ++ (if part = 0 then "" else "." ++ String.ofList kept) ++ "s"

def Dispatcher.describe (d : Dispatcher) (handlers : Nat) : String :=
  "EventDispatcher \x7b interval: " ++ durationText d.interval ++ ", timeout: " ++
    durationText d.timeout ++ ", handlers: " ++ toString handlers ++
    ", stats: DispatchStats \x7b dispatched: " ++ toString d.stats.dispatched ++ ", dropped: " ++
    toString d.stats.dropped ++ ", handler_failures: " ++ toString d.stats.failures ++
    ", in_flight: " ++ toString d.stats.inFlight ++ " \x7d \x7d"

def ExecutionContext.describe (c : ExecutionContext) : String :=
  "ExecutionContext \x7b store_bound: " ++ toString c.storeBound ++ ", producer_bound: " ++
    toString c.producerBound ++ ", config: CommandConfig \x7b default_timeout_ms: " ++
    toString c.settings.defaultTimeoutMs.toNat ++ ", validate_ids: " ++
    toString c.settings.validateIds ++ " \x7d \x7d"

namespace Station

def describeProducer (s : Station) : String :=
  "EventProducer \x7b local_node: " ++ s.node.describe ++ ", switch: " ++
    (if s.producer.switch.isOn then "On" else "Off") ++ " \x7d"

def describeDispatcher (s : Station) : String := s.dispatcher.describe s.registry.size

end Station

end ClusterMesh
