import ClusterMesh.Config.Setting
import ClusterMesh.Number.DecimalText

/-!
# Paths to settings

A name with dots and brackets leads through tables and lists: `a.b[2].c`. With a minus sign in front
a position is counted from the end of its list: `a[-1]` is the last item. A name that is not of this
form stands for itself.

What is written at a position behind a list comes behind nulls. A position in front of the first
item has no meaning that is set down anywhere; here the nulls stand in front of the list then.
-/

namespace ClusterMesh

/-- One step of a path: into a table by a name, or into a list by a position, which is counted from
the end of the list if it is negative. -/
inductive PathStep
  | entry (name : String)
  | position (index : Int)
deriving DecidableEq, Repr

namespace PathStep

def isNameChar (c : Char) : Bool := c.isAlphanum || c == '_' || c == '-' || c == ' '

/-- What may stand around the number between two brackets. -/
def isGap (c : Char) : Bool := c == ' ' || c == '\t'

def isNumberChar (c : Char) : Bool := c == '-' || c.isDigit

/-! ### How paths are spelled -/

/-- The spelling of what follows the first name of a path. A position is an integer of 64 bits. -/
inductive Continues : List Char → List PathStep → Prop
  | done : Continues [] []
  | entry {name rest : List Char} {steps : List PathStep} (hname : name ≠ [])
      (hchars : ∀ c ∈ name, isNameChar c = true) (hrest : Continues rest steps) :
      Continues ('.' :: name ++ rest) (entry (String.ofList name) :: steps)
  | position {before number after rest : List Char} {index : Int} {steps : List PathStep}
      (hbefore : ∀ c ∈ before, isGap c = true) (hafter : ∀ c ∈ after, isGap c = true)
      (hchars : ∀ c ∈ number, isNumberChar c = true)
      (hnumber : DecimalText.integer? number = some index) (hrest : Continues rest steps) :
      Continues ('[' :: before ++ number ++ after ++ ']' :: rest) (position index :: steps)

/-- The spelling of a path: a name, and how the path goes on. -/
inductive Spells : List Char → List PathStep → Prop
  | path {name rest : List Char} {steps : List PathStep} (hname : name ≠ [])
      (hchars : ∀ c ∈ name, isNameChar c = true) (hrest : Continues rest steps) :
      Spells (name ++ rest) (entry (String.ofList name) :: steps)

/-! ### Reading a name -/

/-- The position up to the bracket that closes, and what follows the bracket. -/
def position? (cs : List Char) : Option (Int × List Char) :=
  let cs := cs.dropWhile isGap
  let number := cs.takeWhile isNumberChar
  match (cs.drop number.length).dropWhile isGap with
  | ']' :: rest => (DecimalText.integer? number).map (·, rest)
  | _ => none

def steps? : Nat → List Char → Option (List PathStep)
  | _, [] => some []
  | 0, _ => none
  | fuel + 1, '.' :: rest =>
    let name := rest.takeWhile isNameChar
    if name.isEmpty then none
    else (steps? fuel (rest.drop name.length)).map (entry (String.ofList name) :: ·)
  | fuel + 1, '[' :: rest =>
    match position? rest with
    | some (index, rest) => (steps? fuel rest).map (position index :: ·)
    | none => none
  | _, _ => none

/-- The steps of a path; a name of another form is the one step to itself. -/
def ofName (name : String) : List PathStep :=
  let cs := name.toList
  let first := cs.takeWhile isNameChar
  let parsed :=
    if first.isEmpty then none
    else (steps? cs.length (cs.drop first.length)).map (entry (String.ofList first) :: ·)
  parsed.getD [entry name]

end PathStep

namespace Setting

def itemsOrNone : Setting → List Setting
  | list items => items
  | _ => []

/-- Change the item at a position; there is a null before there is an item. -/
def changeItem (index : Int) (f : Setting → Setting) (items : List Setting) : List Setting :=
  match index with
  | .ofNat n => (items ++ List.replicate (n + 1 - items.length) null).modify n f
  | .negSucc n =>
    let items := List.replicate (n + 1 - items.length) null ++ items
    items.modify (items.length - (n + 1)) f

/-- Write a value at the end of a path. What stands in the way becomes a table or a list. -/
def putPath (value : Setting) : Setting → List PathStep → Setting
  | root, [] => root
  | root, [.entry name] => put root name value
  | root, .entry name :: steps =>
    table (changeEntry (Text.toSmall name) (fun below => putPath value below steps)
      root.entriesOrNone)
  | root, .position index :: steps =>
    list (changeItem index
      (fun below => if steps.isEmpty then value else putPath value below steps) root.itemsOrNone)

end Setting

end ClusterMesh
