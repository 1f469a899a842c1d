import ClusterMesh.Config.Ini
import ClusterMesh.Config.Path
import ClusterMesh.Config.Toml.Document
import ClusterMesh.Config.Variable
import ClusterMesh.Config.Yaml.Document

/-!
# Libraries for layered settings

Documents are read, and layers of settings are put over each other, by a library. What a
configuration relies on are a few rules of such a library: how the name of a setting is followed as
a path, how a value is written at the end of it, which setting a variable names, and how its text is
read. They say nothing about how documents are written, and of a list no more than that it is one.
-/

namespace ClusterMesh

/-- Readers of documents, the path that a name stands for, writing at the end of a path, and the
names and the values of variables. -/
structure ConfigLibrary where
  toml? : String → Option (List (String × Setting))
  yaml? : String → Option (List (String × Setting))
  ini? : String → Option (List (String × Setting))
  steps : String → List PathStep
  write : Setting → List PathStep → Setting → Setting
  name? : String → Option String
  value : String → Setting

namespace ConfigLibrary

/-- Put a layer of named values over a tree. -/
def overlay (library : ConfigLibrary) (root : Setting) (named : List (String × Setting)) :
    Setting :=
  named.foldl (fun tree e => library.write e.2 (library.steps e.1) tree) root

/-- The layer that the environment makes. -/
def settings (library : ConfigLibrary) (env : Environment) : List (String × Setting) :=
  env.filterMap fun e => (library.name? e.1).map (·, library.value e.2)

open Setting in
/-- The rules of a library. -/
structure Documented (library : ConfigLibrary) : Prop where
  /-- A name that spells a path is followed. -/
  follows : ∀ name steps, PathStep.Spells name.toList steps → library.steps name = steps
  /-- Any other name is a name as a whole. -/
  stands : ∀ name, (¬∃ steps, PathStep.Spells name.toList steps) →
    library.steps name = [.entry name]
  /-- A value that is not a table takes the place of what stands under its name in small letters. -/
  replaces : ∀ value name root, (∀ entries, value ≠ .table entries) →
    library.write value [.entry name] root =
      .table (writeEntry (Text.toSmall name) value root.entriesOrNone)
  /-- A table is merged into the one that stands there, entry by entry. -/
  merges : ∀ incoming name (root : Setting), library.write (.table incoming) [.entry name] root =
    .table (writeEntry (Text.toSmall name)
      (incoming.foldl (fun tree e => library.write e.2 [.entry e.1] tree)
        ((root.entriesOrNone.lookup (Text.toSmall name)).getD (.table [])))
      root.entriesOrNone)
  /-- A longer path passes through the table of its first name. -/
  passes : ∀ value name steps root, steps ≠ [] → library.write value (.entry name :: steps) root =
    .table (changeEntry (Text.toSmall name) (library.write value steps) root.entriesOrNone)
  /-- What is written at a position or below it is in a list. -/
  lists : ∀ value index steps root, ∃ items,
    library.write value (.position index :: steps) root = .list items
  /-- A variable names the setting behind its opening, with dots for pairs of underscores. -/
  names : ∀ variableName rest, (Text.toSmall variableName).toList = Environment.opening ++ rest →
    library.name? variableName = some (String.ofList (Environment.dotted rest))
  /-- A variable without the opening does not count. -/
  ignores : ∀ variableName, ¬Environment.opening <+: (Text.toSmall variableName).toList →
    library.name? variableName = none
  bools : ∀ s b, Text.toSmall s = toString b → library.value s = .bool b
  ints : ∀ s i, (∀ b : Bool, Text.toSmall s ≠ toString b) →
    DecimalText.integer? s.toList = some i → library.value s = .int i
  floats : ∀ s x, (∀ b : Bool, Text.toSmall s ≠ toString b) →
    DecimalText.integer? s.toList = none → DecimalText.float? s.toList = some x →
    library.value s = .float x
  texts : ∀ s, (∀ b : Bool, Text.toSmall s ≠ toString b) → DecimalText.integer? s.toList = none →
    DecimalText.float? s.toList = none → library.value s = .text s

/-- The library that reads and overlays the settings of a node. -/
def running : ConfigLibrary where
  toml? := Toml.parse
  yaml? := Yaml.parse
  ini? := Ini.parse
  steps := PathStep.ofName
  write value steps root := Setting.putPath value root steps
  name? := Environment.name?
  value := Environment.value

end ConfigLibrary

end ClusterMesh
