import ClusterMesh.Number.Binary64

/-!
# JSON values

The trees that messages and properties are made of. A number is an integer where its text is
one that fits into 64 bits, and a floating-point number otherwise. Objects keep their
fields as they were written, repeated names included; `settled` is the value that a map of
fields has, in which the last of repeated names counts.
-/

namespace ClusterMesh

inductive Json
  | null
  | bool (b : Bool)
  | int (i : Int)
  | float (x : Binary64)
  | text (s : String)
  | list (items : List Json)
  | object (fields : List (String × Json))
deriving Inhabited, Repr

namespace Json

/-- Put a field into its place among fields in the order of their names; a field of the same
name is replaced. -/
def placeField (name : String) (value : Json) : List (String × Json) → List (String × Json)
  | [] => [(name, value)]
  | (k, v) :: fields =>
    if name = k then (name, value) :: fields
    else if name < k then (name, value) :: (k, v) :: fields
    else (k, v) :: placeField name value fields

mutual

/-- The value with the fields of every object in the order of their names, the last of each
name. -/
def settled : Json → Json
  | .list items => .list (settledItems items)
  | .object fields => .object (settledFields [] fields)
  | .null => .null
  | .bool b => .bool b
  | .int i => .int i
  | .float x => .float x
  | .text s => .text s

def settledItems : List Json → List Json
  | [] => []
  | item :: items => settled item :: settledItems items

def settledFields (done : List (String × Json)) : List (String × Json) → List (String × Json)
  | [] => done
  | (name, value) :: fields => settledFields (placeField name (settled value) done) fields

end

mutual

def same : Json → Json → Bool
  | .null, .null => true
  | .bool a, .bool b => a == b
  | .int a, .int b => a == b
  | .float a, .float b => a.sameValue b
  | .text a, .text b => a == b
  | .list as, .list bs => sameItems as bs
  | .object as, .object bs => sameFields as bs
  | _, _ => false

def sameItems : List Json → List Json → Bool
  | [], [] => true
  | a :: as, b :: bs => same a b && sameItems as bs
  | _, _ => false

def sameFields : List (String × Json) → List (String × Json) → Bool
  | [], [] => true
  | (j, a) :: as, (k, b) :: bs => j == k && same a b && sameFields as bs
  | _, _ => false

end

def fieldValues (fields : List (String × Json)) (name : String) : List Json :=
  (fields.filter (fun f => f.1 == name)).map Prod.snd

def text? : Json → Option String
  | .text s => some s
  | _ => none

end Json

end ClusterMesh
