import ClusterMesh.Config.Setting
import ClusterMesh.Number.DecimalText

/-!
# Variables

The variables of the environment that belong to the program begin with its name and two underscores.
What follows is the name of a setting, in which two underscores stand for a dot. The text of a
variable is read as a truth value or a number where it can be.
-/

namespace ClusterMesh

abbrev Environment := List (String × String)

namespace Environment

def opening : List Char := "meshsync__".toList

/-- Read two underscores as a dot, from the left. -/
def dotted : List Char → List Char
  | '_' :: '_' :: rest => '.' :: dotted rest
  | c :: rest => c :: dotted rest
  | [] => []

/-- The name of the setting that a variable sets, in small letters. -/
def name? (variableName : String) : Option String :=
  let cs := (Text.toSmall variableName).toList
  if opening.isPrefixOf cs then some (String.ofList (dotted (cs.drop opening.length))) else none

/-- The value of a variable: a truth value in any case, a number, or a text. -/
def value (s : String) : Setting :=
  let word := Text.toSmall s
  if word = "true" then .bool true
  else if word = "false" then .bool false
  else
    match DecimalText.integer? s.toList, DecimalText.float? s.toList with
    | some i, _ => .int i
    | none, some x => .float x
    | none, none => .text s

/-- The settings that the variables name, with their values. -/
def settings (env : Environment) : List (String × Setting) :=
  env.filterMap fun e => (name? e.1).map (·, value e.2)

end Environment

end ClusterMesh
