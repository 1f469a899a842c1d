import ClusterMesh.Policy.Wildcard

/-!
# Search expressions

A wildcard pattern is put into the words of a search expression: its pieces, each with the
characters escaped that mean something there, with `.*` in place of every star, in a group that
lets `.` stand for a newline too, between the anchors `^` and `$`. An engine makes a finder from
the text of an expression and refuses an expression that is too large; a pattern that is refused
matches nothing.

Of the language of expressions this is the part that patterns need: characters and escaped
characters, `.`, a repetition `*` of one of these, groups `(?s:…)` and the two anchors. A text
that uses anything else has no reading here.
-/

namespace ClusterMesh.Expression

/-- The characters that mean something in an expression; a backslash before one takes that away. -/
def metacharacters : List Char := "\\.+*?()|[]\x7b\x7d^$#&-~".toList

/-- What one place in an item may hold. -/
inductive Place
  | only (c : Char)
  | any (newlines : Bool)
deriving DecidableEq, Repr

def Place.admits : Place → Char → Bool
  | .only c, d => c == d
  | .any newlines, d => newlines || d != '\n'

inductive Part
  | start
  | finish
  | one (p : Place)
  | many (p : Place)
deriving DecidableEq, Repr

/-! ### Reading a text -/

inductive Token
  | char (c : Char)
  | dot
  | star
  | caret
  | dollar
  | opening
  | closing
deriving DecidableEq, Repr

/-- A character that stands alone. -/
def plain? (c : Char) : Option Token :=
  if c = '.' then some .dot
  else if c = '*' then some .star
  else if c = '^' then some .caret
  else if c = '$' then some .dollar
  else if c = ')' then some .closing
  else if c ∈ metacharacters then none
  else some (.char c)

def tokens? : List Char → Option (List Token)
  | [] => some []
  | '\\' :: c :: cs => if c ∈ metacharacters then (tokens? cs).map (.char c :: ·) else none
  | '(' :: '?' :: 's' :: ':' :: cs => (tokens? cs).map (.opening :: ·)
  | c :: cs => (plain? c).bind fun t => (tokens? cs).map (t :: ·)

/-- The parts of an expression, inside `depth` groups. Only inside one does `.` stand for a
newline. -/
def parts? : Nat → List Token → Option (List Part)
  | 0, [] => some []
  | _ + 1, [] => none
  | depth, .opening :: ts => parts? (depth + 1) ts
  | depth + 1, .closing :: ts => parts? depth ts
  | 0, .closing :: _ => none
  | depth, .caret :: ts => (parts? depth ts).map (.start :: ·)
  | depth, .dollar :: ts => (parts? depth ts).map (.finish :: ·)
  | depth, .char c :: .star :: ts => (parts? depth ts).map (.many (.only c) :: ·)
  | depth, .char c :: ts => (parts? depth ts).map (.one (.only c) :: ·)
  | depth, .dot :: .star :: ts => (parts? depth ts).map (.many (.any (0 < depth)) :: ·)
  | depth, .dot :: ts => (parts? depth ts).map (.one (.any (0 < depth)) :: ·)
  | _, .star :: _ => none

def read? (text : String) : Option (List Part) := (tokens? text.toList).bind (parts? 0)

/-! ### What an expression finds -/

/-- The parts hold one after the other from where `before` ends and `rest` begins. -/
inductive Follows : List Part → List Char → List Char → Prop
  | done {before rest} : Follows [] before rest
  | start {ps rest} (h : Follows ps [] rest) : Follows (.start :: ps) [] rest
  | finish {ps before} (h : Follows ps before []) : Follows (.finish :: ps) before []
  | one {p ps c before rest} (hc : p.admits c = true) (h : Follows ps (before ++ [c]) rest) :
      Follows (.one p :: ps) before (c :: rest)
  | leave {p ps before rest} (h : Follows ps before rest) : Follows (.many p :: ps) before rest
  | again {p ps c before rest} (hc : p.admits c = true)
      (h : Follows (.many p :: ps) (before ++ [c]) rest) :
      Follows (.many p :: ps) before (c :: rest)

/-- The expression is found somewhere in the item. -/
def Occurs (ps : List Part) (item : String) : Prop :=
  ∃ before rest, item.toList = before ++ rest ∧ Follows ps before rest

/-- The places that a repetition of `p` reaches: whether one is the start, and what follows. -/
def reached (p : Place) : Bool → List Char → List (Bool × List Char)
  | first, [] => [(first, [])]
  | first, c :: cs => (first, c :: cs) :: if p.admits c then reached p false cs else []

def follows : List Part → Bool → List Char → Bool
  | [], _, _ => true
  | .start :: ps, first, cs => first && follows ps first cs
  | .finish :: ps, first, cs => cs.isEmpty && follows ps first cs
  | .one _ :: _, _, [] => false
  | .one p :: ps, _, c :: cs => p.admits c && follows ps false cs
  | .many p :: ps, first, cs => (reached p first cs).any fun spot => follows ps spot.1 spot.2

/-- Whether the expression is found in the item, tried at every place of it. -/
def occurs (ps : List Part) (item : String) : Bool :=
  (reached (.any true) true item.toList).any fun spot => follows ps spot.1 spot.2

/-! ### Engines -/

/-- What makes finders of expressions: which texts keep within its limits, and the finder made of a
text, or nothing if it is refused. -/
structure Engine where
  Fits : String → Prop
  build : String → Option (String → Bool)

/-- An engine that keeps to the language: within the limits, what reads as an expression is built
and finds exactly where that expression occurs, and beyond them nothing is built. -/
structure Engine.Documented (engine : Engine) : Prop where
  finds : ∀ text parts, read? text = some parts → engine.Fits text →
    ∃ finder, engine.build text = some finder ∧ ∀ item, finder item = true ↔ Occurs parts item
  refuses : ∀ text, ¬engine.Fits text → engine.build text = none

def Place.size : Place → Nat
  | .only c => 32 * c.utf8Size
  | .any _ => 1004

def Part.size : Part → Nat
  | .start | .finish => 0
  | .one p | .many p => p.size

/-- Units that an expression takes when it is built. -/
def size (ps : List Part) : Nat := ps.foldl (fun size p => size + p.size) 128

/-- An engine with a size limit that tries every place of an item in turn. -/
def Engine.trying (budget : Nat) : Engine where
  Fits text := ∀ parts, read? text = some parts → size parts ≤ budget
  build text :=
    match read? text with
    | some parts => if size parts ≤ budget then some (occurs parts) else none
    | none => some fun _ => false

/-! ### The engine that runs -/

/-- What is left of the expression of a pattern, read back as the pattern. The characters that were
read before come with the last one first. -/
def patternFrom? (before : List Char) : List Char → Option (List Char)
  | [')', '$'] => some before.reverse
  | '\\' :: c :: cs =>
    if c ∈ metacharacters ∧ c ≠ '*' then patternFrom? (c :: before) cs else none
  | '.' :: '*' :: cs => patternFrom? ('*' :: before) cs
  | c :: cs => if c ∈ metacharacters then none else patternFrom? (c :: before) cs
  | [] => none

/-- The pattern that a text is the expression of. -/
def patternOf? (text : String) : Option (List Char) :=
  match text.toList with
  | '^' :: '(' :: '?' :: 's' :: ':' :: cs => patternFrom? [] cs
  | _ => none

def pieceFinder (ps : List (List Char)) (item : String) : Bool := Wildcard.piecesMatch ps item.toList

/-- An engine with a size limit that takes the expression of a pattern piece by piece, and tries every
place of an item for any other one. -/
def Engine.piecewise (budget : Nat) : Engine where
  Fits := (Engine.trying budget).Fits
  build text :=
    match patternOf? text with
    | some pattern =>
      if Wildcard.compiledSize pattern ≤ budget then some (pieceFinder (Text.pieces '*' pattern))
      else none
    | none => (Engine.trying budget).build text

def Engine.running : Engine := .piecewise Wildcard.sizeBudget

end ClusterMesh.Expression

namespace ClusterMesh.Wildcard

open Expression

/-- A text in which every character stands for itself. -/
def escape (cs : List Char) : List Char :=
  cs.flatMap fun c => if c ∈ metacharacters then ['\\', c] else [c]

/-- The search expression of a pattern. -/
def expression (pattern : String) : String :=
  String.ofList ("^(?s:".toList ++
    ".*".toList.intercalate ((Text.pieces '*' pattern.toList).map escape) ++ ")$".toList)

theorem toList_expression (pattern : String) :
    (expression pattern).toList = "^(?s:".toList ++
      (".*".toList.intercalate ((Text.pieces '*' pattern.toList).map escape) ++ ")$".toList) :=
  String.toList_ofList.trans (List.append_assoc _ _ _)

/-- The finder that an engine makes of a pattern, or nothing if it refuses the pattern. -/
def compile (pattern : String) (engine : Expression.Engine := .running) : Option (String → Bool) :=
  engine.build (expression pattern)

/-- Whether the item matches a compiled pattern; nothing matches one that was refused. -/
def accepts (compiled : Option (String → Bool)) (item : String) : Bool :=
  match compiled with
  | some finder => finder item
  | none => false

/-- Whether the item matches the pattern, by the finder that an engine makes of it. -/
def matchBy (engine : Expression.Engine) (pattern item : String) : Bool :=
  accepts (compile pattern engine) item

def isMatch (pattern item : String) : Bool := matchBy .running pattern item

end ClusterMesh.Wildcard
