import ClusterMesh.Config.Yaml.Scalar
import ClusterMesh.Text.Pieces

/-!
# YAML documents

Documents of nested tables and lists, which indentation holds together. Anchors, tags and block
scalars are not supported. A text may hold one document; a text without any stands for an empty
table.
-/

namespace ClusterMesh.Yaml

/-- A line with something on it: its indentation, and what stands behind it. -/
structure Line where
  indent : Nat
  content : List Char
deriving DecidableEq, Repr

def isMark (mark : Char) (cs : List Char) : Bool :=
  cs.take 3 == List.replicate 3 mark && (match cs.drop 3 with
    | [] => true
    | c :: _ => isGap c)

/-- The line of characters, if there is something on it; a tab cannot indent. -/
def line? (cs : List Char) : Option (Option Line) :=
  let spaces := cs.takeWhile (· == ' ')
  let content := dropGapsAtEnd (cs.drop spaces.length)
  match content with
  | [] => some none
  | '#' :: _ => some none
  | '\t' :: rest => if atLineEnd rest then some none else none
  | _ => some (some ⟨spaces.length, content⟩)

/-- Split lines into documents at the marks between them. `inDocument` tells whether a document
is open, and `read` holds its lines. -/
def documents? (inDocument : Bool) (read : List Line) : List (List Char) → Option (List (List Line))
  | [] => some (if inDocument then [read.reverse] else [])
  | cs :: rest =>
    if isMark '-' cs then do
      let after ← line? (List.replicate 3 ' ' ++ cs.drop 3)
      let others ← documents? true after.toList rest
      some (if inDocument then read.reverse :: others else others)
    else if isMark '.' cs then do
      let others ← documents? false [] rest
      some (if inDocument then read.reverse :: others else others)
    else
      match line? cs with
      | none => none
      | some none => documents? inDocument read rest
      | some (some l) =>
        if !inDocument && l.content.head? == some '%' then documents? inDocument read rest
        else documents? true (l :: read) rest

def blockKey? (cs : List Char) : Option (Setting × List Char) :=
  let afterColon (key : Setting) (rest : List Char) : Option (Setting × List Char) :=
    match rest with
    | [':'] => some (key, [])
    | ':' :: c :: rest => if isGap c then some (key, skipGaps rest) else none
    | _ => none
  match quoted? cs with
  | some (s, rest) => afterColon (.text s) (skipGaps rest)
  | none =>
    if beginsPlain cs then do
      let (ks, rest) := plainChars false [] cs
      afterColon (← plain? ks) rest
    else none

def itemContent? : List Char → Option (Nat × List Char)
  | ['-'] => some (1, [])
  | '-' :: c :: rest =>
    if isGap c then
      let content := skipGaps rest
      some (2 + (rest.length - content.length), content)
    else none
  | _ => none

/-- The lines that go on with a plain scalar, which is more indented than `indent`, and what
follows them. -/
def continued (indent : Int) : List Line → List (List Char) × List Line
  | [] => ([], [])
  | l :: ls =>
    if indent < l.indent then
      let (more, rest) := continued indent ls
      (l.content :: more, rest)
    else ([], l :: ls)

def flowLine? (cs : List Char) (ls : List Line) : Option (Setting × List Line) :=
  match flowValue? (cs.length + 1) cs with
  | some (v, rest) => if atLineEnd rest then some (v, ls) else none
  | none => none

def flowOver? (cs : List Char) : List Line → Option (Setting × List Line)
  | [] => flowLine? cs []
  | l :: ls => flowLine? cs (l :: ls) <|> flowOver? (cs ++ ' ' :: l.content) ls

def inlineValue? (indent : Int) (cs : List Char) (ls : List Line) : Option (Setting × List Line) :=
  match cs with
  | '[' :: _ | '\x7b' :: _ => flowOver? cs ls
  | _ =>
    match quoted? cs with
    | some (s, rest) => if atLineEnd rest then some (.text s, ls) else none
    | none =>
      if beginsPlain cs then
        let (vs, rest) := plainChars false [] cs
        if rest.isEmpty then
          let (more, ls) := continued indent ls
          if more.isEmpty then (plain? vs).map (fun v => (v, ls))
          else
            let parts := more.map (fun m => plainChars false [] m)
            if parts.all (fun p => atLineEnd p.2) then
              let words := vs :: parts.map Prod.fst
              (plain? (words.intersperse [' ']).flatten).map (fun v => (v, ls))
            else none
        else if atLineEnd rest then (plain? vs).map (fun v => (v, ls))
        else none
      else none

mutual

/-- The value that stands in lines more indented than `indent`, and what follows. -/
def block? (fuel : Nat) (indent : Int) (ls : List Line) : Option (Setting × List Line) :=
  match fuel, ls with
  | 0, _ => none
  | _, [] => some (.null, [])
  | fuel + 1, l :: rest =>
    if l.indent ≤ indent then some (.null, l :: rest)
    else if (itemContent? l.content).isSome then
      (items? fuel l.indent (l :: rest)).map (fun r => (.list r.1, r.2))
    else if (blockKey? l.content).isSome then
      (entries? fuel l.indent [] (l :: rest)).map (fun r => (.table r.1, r.2))
    else inlineValue? indent l.content rest

def items? (fuel : Nat) (indent : Nat) (ls : List Line) : Option (List Setting × List Line) :=
  match fuel, ls with
  | 0, _ => none
  | _, [] => some ([], [])
  | fuel + 1, l :: rest =>
    if l.indent < indent then some ([], l :: rest)
    else if l.indent ≠ indent then none
    else
      match itemContent? l.content with
      | none => some ([], l :: rest)
      | some (offset, content) =>
        let ls := if atLineEnd content then rest else ⟨indent + offset, content⟩ :: rest
        match block? fuel indent ls with
        | none => none
        | some (v, rest) => (items? fuel indent rest).map (fun r => (v :: r.1, r.2))

def entries? (fuel : Nat) (indent : Nat) (entries : List (String × Setting)) (ls : List Line) :
    Option (List (String × Setting) × List Line) :=
  match fuel, ls with
  | 0, _ => none
  | _, [] => some (entries, [])
  | fuel + 1, l :: rest =>
    if l.indent < indent then some (entries, l :: rest)
    else if l.indent ≠ indent then none
    else
      match blockKey? l.content with
      | none => none
      | some (key, content) =>
        let value :=
          if atLineEnd content then
            match rest with
            | next :: _ =>
              if next.indent = indent ∧ (itemContent? next.content).isSome then
                (items? fuel indent rest).map (fun r => (.list r.1, r.2))
              else block? fuel indent rest
            | [] => some (.null, [])
          else inlineValue? indent content rest
        match entryName? key, value with
        | some name, some (v, rest) =>
          entries? fuel indent (Setting.writeEntry name v entries) rest
        | _, _ => none

end

def textLines (s : String) : List (List Char) :=
  (Text.pieces '\n' s.toList).map (fun cs => if cs.getLast? == some '\r' then cs.dropLast else cs)

def parse (s : String) : Option (List (String × Setting)) := do
  match ← documents? false [] (textLines s) with
  | [] => some []
  | [ls] =>
    match block? (4 * s.length + 8) (-1) ls with
    | some (.table entries, []) => some entries
    | _ => none
  | _ => none

end ClusterMesh.Yaml
