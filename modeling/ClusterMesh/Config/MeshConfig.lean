import ClusterMesh.Cluster.Node
import ClusterMesh.Dispatch.Dispatcher
import ClusterMesh.Error
import ClusterMesh.Properties

/-!
# The configuration of a node

Typed settings in five sections. Every setting has a default, so that an empty configuration
is one of a working node. A configuration is valid when its intervals and capacities can be
worked with.
-/

namespace ClusterMesh

structure DispatchSettings where
  intervalMs : UInt64 := 1000
  timeoutMs : UInt64 := 10000
  pool : PoolMode := .cached
deriving DecidableEq, Repr, Inhabited

structure CommandSettings where
  defaultTimeoutMs : UInt64 := 10000
  validateIds : Bool := true
deriving DecidableEq, Repr, Inhabited

structure TransportSettings where
  channelCapacity : UInt64 := 1024
deriving DecidableEq, Repr, Inhabited

structure NodeSettings where
  id : Option String := none
  nickname : Option String := none
  host : String := "127.0.0.1"
  port : UInt16 := 5701
deriving DecidableEq, Repr, Inhabited

structure MeshConfig where
  dispatch : DispatchSettings := {}
  commands : CommandSettings := {}
  transport : TransportSettings := {}
  node : NodeSettings := {}
  properties : Properties := ∅

instance : Inhabited MeshConfig := ⟨{}⟩

namespace DispatchSettings

def dispatcher (s : DispatchSettings) : Dispatcher :=
  Dispatcher.start s.intervalMs.toNat s.timeoutMs.toNat s.pool

end DispatchSettings

namespace NodeSettings

/-- The node; where no id is set it is known by its host and port. -/
def toNode (s : NodeSettings) : Node :=
  ⟨s.id.getD (s.host ++ ":" ++ toString s.port.toNat), s.nickname, s.host, s.port⟩

end NodeSettings

namespace MeshConfig

def fault? (c : MeshConfig) : Option String :=
  if c.dispatch.intervalMs = 0 then some "dispatch.interval_ms must be greater than zero"
  else if c.dispatch.timeoutMs < c.dispatch.intervalMs then
    some ("dispatch.timeout_ms (" ++ toString c.dispatch.timeoutMs.toNat ++
      ") must be at least dispatch.interval_ms (" ++ toString c.dispatch.intervalMs.toNat ++ ")")
  else if c.commands.defaultTimeoutMs = 0 then
    some "commands.default_timeout_ms must be greater than zero"
  else if c.transport.channelCapacity = 0 then
    some "transport.channel_capacity must be greater than zero"
  else none

def validate (c : MeshConfig) : Except MeshError MeshConfig :=
  match c.fault? with
  | some fault => .error (.configuration fault)
  | none => .ok c

end MeshConfig

end ClusterMesh
