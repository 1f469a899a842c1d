import ClusterMesh.Error
import ClusterMesh.Execution.Results
import ClusterMesh.Text.Blank

/-!
# Outcomes of commands

What comes back for a command, and which commands are refused before they are sent.
-/

namespace ClusterMesh

/-- The results of a command, and how many nodes had to answer; none for a broadcast. -/
structure Outcome where
  commandId : String
  expected : Option Nat
  results : Results

namespace Outcome

def isComplete (o : Outcome) : Bool :=
  match o.expected with
  | some expected => decide (expected ≤ o.results.size)
  | none => false

/-- The results, unless nodes that had to answer did not. -/
def requireComplete (o : Outcome) : Except MeshError Results :=
  match o.expected with
  | some expected =>
    if o.results.size < expected then
      .error (.commandTimeout o.commandId o.results.size expected)
    else .ok o.results
  | none => .ok o.results

end Outcome

namespace Command

def fault? (c : Command) : Option String :=
  if Text.isBlankText c.id then some "command id is empty"
  else if Text.isBlankText c.commandType then some "command type is empty"
  else if c.timeout = some 0 then some "command timeout must be greater than zero"
  else if (c.destination.map KeyedList.isEmpty).getD false then some "destination set is empty"
  else none

end Command

end ClusterMesh
