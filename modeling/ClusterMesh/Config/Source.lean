import ClusterMesh.Config.Library
import ClusterMesh.Config.Typed
import ClusterMesh.Json.Parser
import ClusterMesh.Json.Printer

/-!
# Loading a configuration

A configuration comes from a file, over which the environment is laid by a library for settings.
Names count without regard to case, but the properties of a TOML or JSON file keep the spelling that
their names have in the file.

Files in the formats RON and JSON5, which a library may read as well, are left out: they count as
files of an unknown format.
-/

namespace ClusterMesh

inductive ConfigFormat
  | toml
  | json
  | yaml
  | ini
deriving DecidableEq, Repr

/-- A file that is read: its path, and what it holds if there is one. -/
structure ConfigFile where
  path : String
  content : Option String

mutual

/-- The tree of a JSON value. An integer that does not fit into 64 bits with a sign is a
fraction. -/
def Setting.ofJson : Json → Setting
  | .null => .null
  | .bool b => .bool b
  | .int i => if DecimalText.inSignedRange i then .int i else .float (Binary64.ofInt i)
  | .float x => .float x
  | .text s => .text s
  | .list items => .list (ofJsonItems items)
  | .object fields => .table (ofJsonFields [] fields)

def Setting.ofJsonItems : List Json → List Setting
  | [] => []
  | item :: items => ofJson item :: ofJsonItems items

def Setting.ofJsonFields (entries : List (String × Setting)) :
    List (String × Json) → List (String × Setting)
  | [] => entries
  | (name, value) :: fields => ofJsonFields (writeEntry name (ofJson value) entries) fields

end

mutual

def Setting.toJson : Setting → Json
  | .null => .null
  | .bool b => .bool b
  | .int i => .int i
  | .float x => .float x
  | .text s => .text s
  | .list items => .list (toJsonItems items)
  | .table entries => .object (toJsonEntries entries)

def Setting.toJsonItems : List Setting → List Json
  | [] => []
  | item :: items => toJson item :: toJsonItems items

def Setting.toJsonEntries : List (String × Setting) → List (String × Json)
  | [] => []
  | (name, value) :: entries => (name, toJson value) :: toJsonEntries entries

end

namespace ConfigFormat

/-- The characters behind the last dot of a path's last name, unless the dot is in front. -/
def extension (path : String) : Option String :=
  let name := (Text.pieces '/' path.toList).getLastD []
  match (Text.pieces '.' name).reverse with
  | last :: before :: others =>
    if others.isEmpty && before.isEmpty then none else some (String.ofList last)
  | _ => none

def ofPath? (path : String) : Option ConfigFormat :=
  (extension path).bind (fun e =>
    [("toml", toml), ("json", json), ("yaml", yaml), ("yml", yaml), ("ini", ini)].lookup e)

def read? (format : ConfigFormat) (text : String) (library : ConfigLibrary := .running) :
    Option (List (String × Setting)) :=
  match format with
  | toml => library.toml? text
  | json => (Json.parse text).bind (fun j => (Setting.ofJson j).entries?)
  | yaml => library.yaml? text
  | ini => library.ini? text

def valueText : Setting → String
  | .text s => s
  | other => other.toJson.render

/-- A table of properties as they are spelled. There may be none, but anything else than a table is
faulty. -/
def spelledProperties? : Option Setting → Option Properties
  | none => some ∅
  | some (.table entries) => some (Table.ofPairs (entries.map (fun e => (e.1, valueText e.2))))
  | some _ => none

/-- The properties of a file as they are spelled there, where the format keeps the case of names;
a JSON file must not have two tables of properties. -/
def fileProperties? (format : ConfigFormat) (text : String)
    (library : ConfigLibrary := .running) : Option (Option Properties) :=
  match format with
  | toml =>
    (library.toml? text).bind (fun entries =>
      (spelledProperties? (entries.lookup "properties")).map some)
  | json =>
    match Json.parse text with
    | some (.object fields) =>
      match Json.fieldValues fields "properties" with
      | [] => (spelledProperties? none).map some
      | [j] => (spelledProperties? (some (Setting.ofJson j))).map some
      | _ => none
    | _ => none
  | yaml | ini => some none

end ConfigFormat

namespace MeshConfig

/-- Put one layered property under the spelling that its name has left, and take that spelling away. -/
def respell (spelled : Properties) (p : Properties) (e : String × String) : Properties × Properties :=
  (spelled.erase e.1, Table.set p ((Table.get? spelled e.1).getD e.1) e.2)

/-- Put the values of layered properties under the names that a file spells. A name that is in
the file alone keeps the file's value, and one that is not in the file is kept as it is. -/
def restoreSpelling (file layered : Properties) : Properties :=
  let spelled : Properties := Table.ofPairs (file.keys.map (fun k => (Text.toSmall k, k)))
  (layered.toList.foldl (fun state e => respell state.1 state.2 e) (spelled, file)).2

def unreadable (path : String) : MeshError :=
  .configuration ("the file cannot be read as a configuration: " ++ path)

def ofLayers (entries : List (String × Setting)) (env : Environment)
    (library : ConfigLibrary := .running) : Except MeshError MeshConfig :=
  let tree := library.overlay (library.overlay (.table []) entries) (library.settings env)
  match ofSetting? tree with
  | some c => .ok c
  | none => .error (.configuration "a setting does not have the form that it should have")

def load (file : Option ConfigFile) (env : Environment) (library : ConfigLibrary := .running) :
    Except MeshError MeshConfig := do
  match file with
  | none => (← ofLayers [] env library).validate
  | some ⟨path, content⟩ =>
    match ConfigFormat.ofPath? path, content with
    | some format, some text =>
      match format.read? text library, format.fileProperties? text library with
      | some entries, some spelled =>
        let c ← ofLayers entries env library
        validate { c with
          properties := (spelled.map (fun p => restoreSpelling p c.properties)).getD c.properties }
      | _, _ => .error (unreadable path)
    | _, _ => .error (unreadable path)

def loadFile (file : ConfigFile) (env : Environment) (library : ConfigLibrary := .running) :
    Except MeshError MeshConfig :=
  match file.content with
  | none => .error (.configuration ("configuration file not found: " ++ file.path))
  | some _ => load (some file) env library

end MeshConfig

end ClusterMesh
