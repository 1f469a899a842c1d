import ClusterMesh.Config.MeshConfig
import ClusterMesh.Json.Record

/-!
# Configurations on the wire

The configuration of a node as a JSON record. A section or a setting that is left out has its
default.
-/

namespace ClusterMesh

open Json

namespace PoolMode

def names : List (String × PoolMode) := [("cached", cached), ("single", single)]

def name : PoolMode → String
  | cached => "cached"
  | single => "single"

end PoolMode

namespace DispatchSettings

def toJson (s : DispatchSettings) : Json :=
  .object [("interval_ms", .int s.intervalMs.toNat), ("timeout_ms", .int s.timeoutMs.toNat),
    ("pool", .text s.pool.name)]

def ofJson? (j : Json) : Option DispatchSettings := do
  let d : DispatchSettings := {}
  match ← partialRecord? ["interval_ms", "timeout_ms", "pool"] j with
  | [interval, timeout, pool] =>
    some ⟨← defaulted? word? d.intervalMs interval, ← defaulted? word? d.timeoutMs timeout,
      ← defaulted? (case? PoolMode.names) d.pool pool⟩
  | _ => none

end DispatchSettings

namespace CommandSettings

def toJson (s : CommandSettings) : Json :=
  .object [("default_timeout_ms", .int s.defaultTimeoutMs.toNat),
    ("validate_ids", .bool s.validateIds)]

def ofJson? (j : Json) : Option CommandSettings := do
  let d : CommandSettings := {}
  match ← partialRecord? ["default_timeout_ms", "validate_ids"] j with
  | [timeout, validate] =>
    some ⟨← defaulted? word? d.defaultTimeoutMs timeout, ← defaulted? bool? d.validateIds validate⟩
  | _ => none

end CommandSettings

namespace TransportSettings

def toJson (s : TransportSettings) : Json :=
  .object [("channel_capacity", .int s.channelCapacity.toNat)]

def ofJson? (j : Json) : Option TransportSettings := do
  let d : TransportSettings := {}
  match ← partialRecord? ["channel_capacity"] j with
  | [capacity] => some ⟨← defaulted? word? d.channelCapacity capacity⟩
  | _ => none

end TransportSettings

namespace NodeSettings

def toJson (s : NodeSettings) : Json :=
  .object [("id", ofOption .text s.id), ("alias", ofOption .text s.nickname), ("host", .text s.host),
    ("port", .int s.port.toNat)]

def ofJson? (j : Json) : Option NodeSettings := do
  let d : NodeSettings := {}
  match ← partialRecord? ["id", "alias", "host", "port"] j with
  | [id, nickname, host, port] =>
    some ⟨← optional? text? id, ← optional? text? nickname, ← defaulted? text? d.host host,
      ← defaulted? halfword? d.port port⟩
  | _ => none

end NodeSettings

namespace Properties

def toJson (p : Properties) : Json := .object (p.toList.map (fun e => (e.1, .text e.2)))

def ofJson? (j : Json) : Option Properties := (mapOf? text? j).map Table.ofPairs

end Properties

namespace MeshConfig

def toJson (c : MeshConfig) : Json :=
  .object [("dispatch", c.dispatch.toJson), ("commands", c.commands.toJson),
    ("transport", c.transport.toJson), ("node", c.node.toJson),
    ("properties", Properties.toJson c.properties)]

def ofJson? (j : Json) : Option MeshConfig := do
  match ← partialRecord? ["dispatch", "commands", "transport", "node", "properties"] j with
  | [dispatch, commands, transport, node, properties] =>
    some ⟨← defaulted? DispatchSettings.ofJson? {} dispatch,
      ← defaulted? CommandSettings.ofJson? {} commands,
      ← defaulted? TransportSettings.ofJson? {} transport,
      ← defaulted? NodeSettings.ofJson? {} node, ← defaulted? Properties.ofJson? ∅ properties⟩
  | _ => none

end MeshConfig

end ClusterMesh
