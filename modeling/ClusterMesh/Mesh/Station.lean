import ClusterMesh.Cluster.Group
import ClusterMesh.Config.MeshConfig
import ClusterMesh.Execution.Outcome
import ClusterMesh.Execution.Store
import ClusterMesh.Handler.Registry
import ClusterMesh.Policy.Access

/-!
# Stations

A station is a node together with the parts that work for it: its properties and groups, its
handlers and its dispatcher, its producer and consumer, the commands that it waits for, and the
context in which it executes commands.
-/

namespace ClusterMesh

/-- What a station sends messages with. Its transport may refuse them for a reason. -/
structure Producer where
  switch : Switch
  refusal : Option String

/-- What a station receives messages with. `loop` is the task that takes messages off the
bus. -/
structure Consumer where
  switch : Switch
  loop : Option Nat

/-- The context in which a station executes commands. It needs a store and a producer. -/
structure ExecutionContext where
  storeBound : Bool
  producerBound : Bool
  settings : CommandSettings

/-- A node and the parts that work for it. `worker` is the task of the single worker, if the
dispatcher has one. -/
structure Station where
  node : Node
  properties : Properties
  groups : GroupManager
  registry : Registry
  dispatcher : Dispatcher
  worker : Option Nat
  producer : Producer
  consumer : Consumer
  store : PendingStore
  context : ExecutionContext

namespace Station

def start (node : Node) (properties : Properties) (honoursToggles : Bool)
    (dispatch : DispatchSettings) (commands : CommandSettings) : Station where
  node := node
  properties := properties
  groups := GroupManager.start node
  registry := Registry.empty honoursToggles
  dispatcher := dispatch.dispatcher
  worker := none
  producer := ⟨Switch.named "producer", none⟩
  consumer := ⟨Switch.named "consumer", none⟩
  store := PendingStore.empty
  context := ⟨true, true, commands⟩

instance : Inhabited Station := ⟨start default ∅ true {} {}⟩

def lookup? (s : Station) (messageType : String) : Option HandlerId :=
  s.registry.lookup? s.properties messageType

def statuses (s : Station) : Table String SwitchStatus := s.registry.statuses s.properties

/-- Whether the producer sends a message: an unforced one only while its switch is on. -/
def sends (s : Station) (m : Message) : Bool := s.producer.switch.isOn || m.isForced

/-- Whether the consumer takes a message: it has to be addressed to the node, and an unforced
one is taken only while the switch is on. -/
def takes (s : Station) (m : Message) : Bool :=
  m.header.isAddressedTo s.node && (s.consumer.switch.isOn || m.isForced)

def timeoutOf (s : Station) (c : Command) : Nat :=
  (c.timeout.getD s.context.settings.defaultTimeoutMs).toNat

/-- The access policy of the station: its properties, and the parents that its groups
declare. -/
def policy (s : Station) (engine : Expression.Engine := .running) : AccessPolicy :=
  AccessPolicy.start s.properties (some s.groups) engine

def installControl (s : Station) : Station :=
  { s with
    registry := ControlTarget.all.foldl
      (fun r target => (r.install (Handler.control target)).install
        (Handler.correlator target.resultType)) s.registry }

end Station

end ClusterMesh
