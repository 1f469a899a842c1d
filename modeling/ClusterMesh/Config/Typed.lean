import ClusterMesh.Config.MeshConfig
import ClusterMesh.Config.Setting

/-!
# Typed settings from trees

How the sections of a configuration are read from a tree of settings. A section is a table with
the names of its settings, or a list with the settings in their order; what is left out has its
default, and what is unknown does not count.
-/

namespace ClusterMesh

namespace Setting

/-- The settings of a section by position, `none` where one is left out. -/
def section? (names : List String) : Setting → Option (List (Option Setting))
  | table entries => some (names.map (fun name => entries.lookup name))
  | list items => some ((List.range names.length).map (fun i => items[i]?))
  | _ => none

def defaulted? {α : Type} (read : Setting → Option α) (fallback : α) : Option Setting → Option α
  | none => some fallback
  | some s => read s

def optional? {α : Type} (read : Setting → Option α) : Option Setting → Option (Option α)
  | none => some none
  | some null => some none
  | some s => (read s).map some

def word64? (s : Setting) : Option UInt64 := s.word?.map UInt64.ofNat

def word16? (s : Setting) : Option UInt16 :=
  s.word?.bind (fun n => if n < Nat.pow 2 16 then some (UInt16.ofNat n) else none)

/-- The name of a case: a text, or the only name of a table. -/
def caseName? : Setting → Option String
  | text s => some s
  | table [(name, _)] => some name
  | _ => none

def pool? (s : Setting) : Option PoolMode :=
  s.caseName?.bind (fun name =>
    [("cached", PoolMode.cached), ("single", PoolMode.single)].lookup (Text.toSmall name))

def properties? (s : Setting) : Option Properties := do
  let pairs ← (← s.entries?).mapM (fun e => e.2.text?.map (fun v => (e.1, v)))
  some (Table.ofPairs pairs)

end Setting

open Setting

def DispatchSettings.ofSetting? (s : Setting) : Option DispatchSettings := do
  let d : DispatchSettings := {}
  match ← section? ["interval_ms", "timeout_ms", "pool"] s with
  | [interval, timeout, pool] =>
    some ⟨← defaulted? word64? d.intervalMs interval, ← defaulted? word64? d.timeoutMs timeout,
      ← defaulted? pool? d.pool pool⟩
  | _ => none

def CommandSettings.ofSetting? (s : Setting) : Option CommandSettings := do
  let d : CommandSettings := {}
  match ← section? ["default_timeout_ms", "validate_ids"] s with
  | [timeout, validate] =>
    some ⟨← defaulted? word64? d.defaultTimeoutMs timeout,
      ← defaulted? Setting.bool? d.validateIds validate⟩
  | _ => none

def TransportSettings.ofSetting? (s : Setting) : Option TransportSettings := do
  let d : TransportSettings := {}
  match ← section? ["channel_capacity"] s with
  | [capacity] => some ⟨← defaulted? word64? d.channelCapacity capacity⟩
  | _ => none

def NodeSettings.ofSetting? (s : Setting) : Option NodeSettings := do
  let d : NodeSettings := {}
  match ← section? ["id", "alias", "host", "port"] s with
  | [id, nickname, host, port] =>
    some ⟨← optional? Setting.text? id, ← optional? Setting.text? nickname,
      ← defaulted? Setting.text? d.host host, ← defaulted? word16? d.port port⟩
  | _ => none

def MeshConfig.ofSetting? (s : Setting) : Option MeshConfig := do
  match ← section? ["dispatch", "commands", "transport", "node", "properties"] s with
  | [dispatch, commands, transport, node, properties] =>
    some ⟨← defaulted? DispatchSettings.ofSetting? {} dispatch,
      ← defaulted? CommandSettings.ofSetting? {} commands,
      ← defaulted? TransportSettings.ofSetting? {} transport,
      ← defaulted? NodeSettings.ofSetting? {} node, ← defaulted? properties? ∅ properties⟩
  | _ => none

end ClusterMesh
