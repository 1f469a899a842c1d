import ClusterMesh.Config.Setting
import ClusterMesh.Text.Blank

/-!
# INI documents

Sections in brackets, keys and values with an equals sign or a colon between them, and lines of
comment that begin with a semicolon or a number sign. All values are texts. A value may stand
in quotes, and a backslash makes an escape.
-/

namespace ClusterMesh.Ini

/-- The characters that an escape stands for behind its backslash, and what follows. A line end
that is escaped takes the character behind it along. -/
def escape? : List Char → Option (List Char × List Char)
  | '0' :: rest => some (['\x00'], rest)
  | 'a' :: rest => some (['\x07'], rest)
  | 'b' :: rest => some (['\x08'], rest)
  | 't' :: rest => some (['\t'], rest)
  | 'r' :: rest => some (['\r'], rest)
  | 'n' :: rest => some (['\n'], rest)
  | '\n' :: rest => some ([], rest.drop 1)
  | 'x' :: rest => (Digits.charOfHex? 4 rest).map (fun r => ([r.1], r.2))
  | c :: rest => some ([c], rest)
  | [] => none

/-- The characters up to one of the ends, which is not taken; the text may end instead of it
where `toEnd` says so. -/
def upTo? (ends : List Char) (toEnd : Bool) :
    Nat → List Char → List Char → Option (List Char × List Char)
  | 0, _, _ => none
  | _, read, [] => if toEnd then some (read.reverse, []) else none
  | fuel + 1, read, c :: rest =>
    if c ∈ ends then some (read.reverse, c :: rest)
    else if c = '\\' then
      match escape? rest with
      | some (es, rest) => upTo? ends toEnd fuel (es.reverse ++ read) rest
      | none => none
    else upTo? ends toEnd fuel (c :: read) rest

def value? (cs : List Char) : Option (List Char × List Char) :=
  let cs := cs.dropWhile (fun c => Text.isBlank c && c != '\n' && c != '\r')
  let fuel := cs.length + 1
  match cs with
  | [] => some ([], [])
  | '"' :: rest => (upTo? ['"'] false fuel [] rest).map (fun r => (r.1, r.2.drop 1))
  | '\'' :: rest => (upTo? ['\''] false fuel [] rest).map (fun r => (r.1, r.2.drop 1))
  | _ => (upTo? ['\n', '\r'] true fuel [] cs).map (fun r => (Text.trimChars r.1, r.2))

/-- The sections read so far: entries without a section, then each section with its entries. -/
structure Sections where
  general : List (String × Setting)
  named : List (String × Setting)
  current : Option String

namespace Sections

/-- Open a section; one of the same name begins anew. -/
def openSection (s : Sections) (name : String) : Sections :=
  { s with named := Setting.writeEntry name (.table []) s.named, current := some name }

def write (s : Sections) (key : String) (value : String) : Sections :=
  match s.current with
  | none => { s with general := Setting.writeEntry key (.text value) s.general }
  | some name =>
    { s with
      named := Setting.changeEntry name
        (fun t => .table (Setting.writeEntry key (.text value) t.entriesOrNone)) s.named }

end Sections

/-- Follow a document. A comment begins its line; `key` is a key whose value has not come yet. -/
def read : Nat → Sections → String → Bool → List Char → Option Sections
  | 0, _, _, _, _ => none
  | fuel + 1, s, key, lineStart, cs =>
    match cs with
    | [] => some s
    | '[' :: rest =>
      match upTo? [']'] false (rest.length + 1) [] rest with
      | some (name, rest) =>
        read fuel (s.openSection (String.ofList (Text.trimChars name))) key false (rest.drop 1)
      | none => none
    | c :: rest =>
      if Text.isBlank c then read fuel s key (c == '\n') rest
      else if c = ';' ∨ c = '#' then
        if lineStart then read fuel s key true ((rest.dropWhile (· != '\n')).drop 1) else none
      else if c = '=' ∨ c = ':' then
        if key.isEmpty then none
        else
          match value? rest with
          | some (value, rest) => read fuel (s.write key (String.ofList value)) "" false rest
          | none => none
      else
        match upTo? ['=', ':'] false (rest.length + 2) [] (c :: rest) with
        | some (name, rest) => read fuel s (String.ofList (Text.trimChars name)) false rest
        | none => none

/-- The entries of a document: those without a section, and a table for each section. -/
def parse (text : String) : Option (List (String × Setting)) :=
  let cs := text.toList
  (read (2 * cs.length + 2) ⟨[], [], none⟩ "" true cs).map
    (fun s => s.named.foldl (fun es e => Setting.writeEntry e.1 e.2 es) s.general)

end ClusterMesh.Ini
