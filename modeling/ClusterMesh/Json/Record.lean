import ClusterMesh.Json.Basic
import ClusterMesh.Number.Digits

/-!
# Reading records

How the parts of a value are read where its shape is known. A record is an object with named
fields, in which a repeated field is a fault and unknown ones do not count, or a list with the
fields in their order.
-/

namespace ClusterMesh.Json

/-- The fields of a record by position, `none` where an object leaves one out. -/
def record? (names : List String) : Json → Option (List (Option Json))
  | .object fields =>
    names.mapM (fun name =>
      match fieldValues fields name with
      | [] => some none
      | [v] => some (some v)
      | _ => none)
  | .list items => if items.length = names.length then some (items.map some) else none
  | _ => none

/-- As `record?`, but a list may also end early. -/
def partialRecord? (names : List String) : Json → Option (List (Option Json))
  | .list items =>
    if items.length ≤ names.length then
      some (items.map some ++ List.replicate (names.length - items.length) none)
    else none
  | j => record? names j

def bool? : Json → Option Bool
  | .bool b => some b
  | _ => none

/-- An integer from zero up to `bound`. -/
def nat? (bound : Nat) : Json → Option Nat
  | .int i => if 0 ≤ i ∧ i ≤ bound then some i.toNat else none
  | _ => none

def word? (j : Json) : Option UInt64 := (nat? wordBound j).map UInt64.ofNat

def halfword? (j : Json) : Option UInt16 := (nat? (Nat.pow 2 16 - 1) j).map UInt16.ofNat

def listOf? {α : Type} (read : Json → Option α) : Json → Option (List α)
  | .list items => items.mapM read
  | _ => none

def optional? {α : Type} (read : Json → Option α) : Option Json → Option (Option α)
  | none => some none
  | some .null => some none
  | some j => (read j).map some

def required? {α : Type} (read : Json → Option α) (field : Option Json) : Option α :=
  field.bind read

def defaulted? {α : Type} (read : Json → Option α) (fallback : α) : Option Json → Option α
  | none => some fallback
  | some j => read j

/-- One of the named cases: its name, or an object with this name alone and null. -/
def case? {α : Type} (cases : List (String × α)) : Json → Option α
  | .text name => cases.lookup name
  | .object [(name, .null)] => cases.lookup name
  | _ => none

def mapOf? {α : Type} (read : Json → Option α) : Json → Option (List (String × α))
  | .object fields => fields.mapM (fun f => (read f.2).map (fun v => (f.1, v)))
  | _ => none

def ofTexts (ts : List String) : Json := .list (ts.map .text)

def ofOption {α : Type} (write : α → Json) : Option α → Json
  | some a => write a
  | none => .null

end ClusterMesh.Json
