/-!
# Errors of the mesh

Why an operation did not do what was asked. Errors of the wiring are fatal: the caller has to
mend the setup. The others are part of the normal life of a cluster.
-/

namespace ClusterMesh

/-- The reasons for which an operation fails. -/
inductive MeshError
  | storeUnavailable
  | transportUnavailable
  | dispatchTimeout (eventType : String)
  | commandTimeout (commandId : String) (received expected : Nat)
  | transport (reason : String)
  | configuration (reason : String)
  | handler (name reason : String)
  | invalidCommand (reason : String)
  | runtimeUnavailable (reason : String)
deriving DecidableEq, Repr, Inhabited

namespace MeshError

def kind : MeshError → String
  | storeUnavailable => "StoreUnavailable"
  | transportUnavailable => "TransportUnavailable"
  | dispatchTimeout .. => "DispatchTimeout"
  | commandTimeout .. => "CommandTimeout"
  | transport .. => "Transport"
  | configuration .. => "Configuration"
  | handler .. => "Handler"
  | invalidCommand .. => "InvalidCommand"
  | runtimeUnavailable .. => "RuntimeUnavailable"

def message : MeshError → String
  | storeUnavailable => "Command store not found"
  | transportUnavailable => "Command producer not found"
  | dispatchTimeout eventType =>
    "No handler found for event type '" ++ eventType ++ "' within the dispatch timeout"
  | commandTimeout id received expected =>
    "Command '" ++ id ++ "' timed out with " ++ toString received ++ "/" ++ toString expected ++
      " results"
  | transport reason => "Transport error: " ++ reason
  | configuration reason => "Configuration error: " ++ reason
  | handler name reason => "Handler '" ++ name ++ "' failed: " ++ reason
  | invalidCommand reason => "Invalid command: " ++ reason
  | runtimeUnavailable reason => "No Tokio runtime available: " ++ reason

/-- Whether the setup has to be mended before the operation can succeed. -/
def isFatal : MeshError → Bool
  | storeUnavailable | transportUnavailable | configuration _ | runtimeUnavailable _ => true
  | _ => false

def serialization (reason : String) : MeshError := transport ("serialization failed: " ++ reason)

end MeshError

end ClusterMesh
