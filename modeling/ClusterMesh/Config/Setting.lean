import ClusterMesh.Number.Binary64
import ClusterMesh.Number.Digits
import ClusterMesh.Text.LetterCase

/-!
# Settings

The trees that configuration documents and environment variables are read into, and the
conversions by which a leaf becomes a number, a truth value or a text. A leaf may be written
in any scalar form that makes sense for the value that is wanted.
-/

namespace ClusterMesh

inductive Setting
  | null
  | bool (b : Bool)
  | int (i : Int)
  | float (x : Binary64)
  | text (s : String)
  | list (items : List Setting)
  | table (entries : List (String × Setting))
deriving Inhabited, Repr

namespace Setting

/-- Digits with at most one plus sign in front, as a number of at most 64 bits. -/
def wordOfText? (s : String) : Option Nat :=
  let ds :=
    match s.toList with
    | '+' :: ds => ds
    | ds => ds
  if ds.isEmpty || !ds.all Char.isDigit then none
  else
    let n := Digits.value ds
    if n ≤ wordBound then some n else none

/-- A whole number of 64 bits. Texts that spell a truth value are one or zero; fractions are
rounded, and those below zero or without a value are zero. -/
def word? : Setting → Option Nat
  | int i => if 0 ≤ i ∧ i ≤ wordBound then some i.toNat else none
  | bool b => some (if b then 1 else 0)
  | float x =>
    if x.isNaN || x.isNegative then some 0
    else if x.isInfinite then some wordBound
    else some (min x.roundAbs wordBound)
  | text s =>
    let word := Text.toSmall s
    if word = "true" ∨ word = "on" ∨ word = "yes" then some 1
    else if word = "false" ∨ word = "off" ∨ word = "no" then some 0
    else wordOfText? s
  | _ => none

/-- A truth value: numbers other than zero are true, texts spell it in any case. -/
def bool? : Setting → Option Bool
  | bool b => some b
  | int i => some (i != 0)
  | float x => some (!x.isZero)
  | text s =>
    let word := Text.toSmall s
    if word = "1" ∨ word = "true" ∨ word = "on" ∨ word = "yes" then some true
    else if word = "0" ∨ word = "false" ∨ word = "off" ∨ word = "no" then some false
    else none
  | _ => none

/-- A text: any scalar as it is written, fractions in their shortest form. -/
def text? : Setting → Option String
  | text s => some s
  | bool b => some (if b then "true" else "false")
  | int i => some (toString i)
  | float x => some x.plainText
  | _ => none

def entries? : Setting → Option (List (String × Setting))
  | table entries => some entries
  | _ => none

/-- Write an entry in the place of the one of its name, or at the end. -/
def writeEntry (name : String) (value : Setting) :
    List (String × Setting) → List (String × Setting)
  | [] => [(name, value)]
  | (k, v) :: entries =>
    if k = name then (k, value) :: entries else (k, v) :: writeEntry name value entries

/-- Change the entry of a name; there is a null before there is an entry. -/
def changeEntry (name : String) (f : Setting → Setting) (entries : List (String × Setting)) :
    List (String × Setting) :=
  writeEntry name (f ((entries.lookup name).getD .null)) entries

def entriesOrNone : Setting → List (String × Setting)
  | table entries => entries
  | _ => []

mutual

/-- Write a value under a name in small letters. A table is merged into the one that is there,
entry by entry; anything else takes the place of what was there. -/
def put (root : Setting) (name : String) : Setting → Setting
  | table incoming =>
    let name := Text.toSmall name
    let entries := root.entriesOrNone
    table (writeEntry name (putAll ((entries.lookup name).getD (table [])) incoming) entries)
  | list items => table (writeEntry (Text.toSmall name) (list items) root.entriesOrNone)
  | null => table (writeEntry (Text.toSmall name) null root.entriesOrNone)
  | bool b => table (writeEntry (Text.toSmall name) (bool b) root.entriesOrNone)
  | int i => table (writeEntry (Text.toSmall name) (int i) root.entriesOrNone)
  | float x => table (writeEntry (Text.toSmall name) (float x) root.entriesOrNone)
  | text s => table (writeEntry (Text.toSmall name) (text s) root.entriesOrNone)

def putAll (root : Setting) : List (String × Setting) → Setting
  | [] => root
  | (name, value) :: entries => putAll (put root name value) entries

end

end Setting

end ClusterMesh
