import ClusterMesh.Json.Basic
import ClusterMesh.Number.Digits

/-!
# Reading JSON text

A recursive descent over the characters of a document. `Json.parse` accepts one value with
blanks around it and nothing else. Values may be nested less than 128 deep.
-/

namespace ClusterMesh.Json

def isSpace (c : Char) : Bool := c == ' ' || c == '\n' || c == '\t' || c == '\r'

def skipSpace (cs : List Char) : List Char := cs.dropWhile isSpace

def hexFour? : List Char → Option (Nat × List Char)
  | a :: b :: c :: d :: rest => (Digits.valueIn? 16 [a, b, c, d]).map (fun n => (n, rest))
  | _ => none

/-- The character of a `\u` escape: a code unit, or two of a surrogate pair. -/
def unicodeEscape? (cs : List Char) : Option (Char × List Char) := do
  let (high, rest) ← hexFour? cs
  if 0xD800 ≤ high ∧ high < 0xDC00 then
    match rest with
    | '\\' :: 'u' :: rest =>
      let (low, rest) ← hexFour? rest
      if 0xDC00 ≤ low ∧ low < 0xE000 then
        some (Char.ofNat (0x10000 + (high - 0xD800) * 0x400 + (low - 0xDC00)), rest)
      else none
    | _ => none
  else if 0xDC00 ≤ high ∧ high < 0xE000 then none
  else some (Char.ofNat high, rest)

def simpleEscape? : Char → Option Char
  | '"' => some '"'
  | '\\' => some '\\'
  | '/' => some '/'
  | 'b' => some '\x08'
  | 'f' => some '\x0c'
  | 'n' => some '\n'
  | 'r' => some '\r'
  | 't' => some '\t'
  | _ => none

/-- The characters of a string behind its opening quote, and what follows the closing one. -/
def stringBody (fuel : Nat) (read : List Char) (cs : List Char) :
    Option (List Char × List Char) :=
  match fuel, cs with
  | 0, _ => none
  | _, [] => none
  | _, '"' :: rest => some (read.reverse, rest)
  | fuel + 1, '\\' :: 'u' :: rest =>
    match unicodeEscape? rest with
    | some (c, rest) => stringBody fuel (c :: read) rest
    | none => none
  | fuel + 1, '\\' :: e :: rest =>
    match simpleEscape? e with
    | some c => stringBody fuel (c :: read) rest
    | none => none
  | fuel + 1, c :: rest =>
    if c = '\\' ∨ c.toNat < 0x20 then none else stringBody fuel (c :: read) rest

/-- Read digits into a significand as long as it fits into 64 bits. Also gives how many were
read. -/
def significand (start : Nat) : List Char → Nat × Nat
  | [] => (start, 0)
  | d :: ds =>
    let next := start * 10 + (d.toNat - '0'.toNat)
    if next ≤ wordBound then
      let r := significand next ds
      (r.1, r.2 + 1)
    else (start, 0)

/-- A significand times a power of ten, each rounded on its own, as is the product or the
quotient. A magnitude without a finite number is refused. -/
def scaledFloat : Nat → Binary64 → Int → Option Binary64
  | 0, f, _ => some f
  | steps + 1, f, e =>
    if e.natAbs ≤ 308 then
      let power := Binary64.ofDecimal false 1 e.natAbs
      if 0 ≤ e then
        let product := f.mulAbs power
        if product.isInfinite then none else some product
      else some (f.divAbs power)
    else if f.isZero then some f
    else if 0 ≤ e then none
    else scaledFloat steps (f.divAbs (Binary64.ofDecimal false 1 308)) (e + 308)

def numberValue (negative : Bool) (whole part : List Char) (point : Bool) (exponent : Option Int) :
    Option Json :=
  let n := Digits.value whole
  if !point && exponent.isNone && !negative && n ≤ wordBound then some (.int n)
  else if !point && exponent.isNone && negative && 0 < n && n ≤ Nat.pow 2 63 then some (.int (-n))
  else
    let (high, used) := significand 0 whole
    let (sig, places) := significand high part
    let power : Int := (whole.length - used : Nat) - (places : Int)
    let e := exponent.getD 0
    let magnitude :=
      if Nat.pow 2 31 ≤ e.natAbs then
        if sig = 0 ∨ e < 0 then some (Binary64.zero false) else none
      else scaledFloat 8 (Binary64.ofNat sig) (power + e)
    magnitude.map (fun f => .float (Binary64.signed negative f.bits.toNat))

def exponentPart? (cs : List Char) : Option (Int × List Char) :=
  let (negative, cs) :=
    match cs with
    | '-' :: rest => (true, rest)
    | '+' :: rest => (false, rest)
    | _ => (false, cs)
  let ds := cs.takeWhile Char.isDigit
  if ds.isEmpty then none
  else
    some (Digits.signedValue negative ds, cs.dropWhile Char.isDigit)

def number? (cs : List Char) : Option (Json × List Char) := do
  let (negative, cs) :=
    match cs with
    | '-' :: rest => (true, rest)
    | _ => (false, cs)
  let whole := cs.takeWhile Char.isDigit
  let cs := cs.dropWhile Char.isDigit
  if whole.isEmpty || (whole.length != 1 && whole.head? == some '0') then none
  let (part, point, cs) ←
    match cs with
    | '.' :: rest =>
      let part := rest.takeWhile Char.isDigit
      if part.isEmpty then none else some (part, true, rest.dropWhile Char.isDigit)
    | _ => some ([], false, cs)
  let (exponent, cs) ←
    match cs with
    | 'e' :: rest | 'E' :: rest => (exponentPart? rest).map (fun r => (some r.1, r.2))
    | _ => some (none, cs)
  let value ← numberValue negative whole part point exponent
  some (value, cs)

mutual

/-- A value without blanks in front, and what follows it; `depth` more levels may be opened. -/
def value? (fuel depth : Nat) (cs : List Char) : Option (Json × List Char) :=
  match fuel, cs with
  | 0, _ => none
  | _, 'n' :: 'u' :: 'l' :: 'l' :: rest => some (.null, rest)
  | _, 't' :: 'r' :: 'u' :: 'e' :: rest => some (.bool true, rest)
  | _, 'f' :: 'a' :: 'l' :: 's' :: 'e' :: rest => some (.bool false, rest)
  | fuel + 1, '"' :: rest =>
    (stringBody (fuel + 1) [] rest).map (fun r => (.text (String.ofList r.1), r.2))
  | fuel + 1, '[' :: rest =>
    match depth with
    | 0 => none
    | depth + 1 =>
      match skipSpace rest with
      | ']' :: rest => some (.list [], rest)
      | rest => (items? fuel depth rest).map (fun r => (.list r.1, r.2))
  | fuel + 1, '{' :: rest =>
    match depth with
    | 0 => none
    | depth + 1 =>
      match skipSpace rest with
      | '}' :: rest => some (.object [], rest)
      | rest => (fields? fuel depth rest).map (fun r => (.object r.1, r.2))
  | _, cs => number? cs

def items? (fuel depth : Nat) (cs : List Char) : Option (List Json × List Char) :=
  match fuel with
  | 0 => none
  | fuel + 1 =>
    match value? fuel depth cs with
    | none => none
    | some (item, rest) =>
      match skipSpace rest with
      | ',' :: rest => (items? fuel depth (skipSpace rest)).map (fun r => (item :: r.1, r.2))
      | ']' :: rest => some ([item], rest)
      | _ => none

def fields? (fuel depth : Nat) (cs : List Char) :
    Option (List (String × Json) × List Char) :=
  match fuel, cs with
  | fuel + 1, '"' :: rest =>
    match stringBody (fuel + 1) [] rest with
    | none => none
    | some (name, rest) =>
      match skipSpace rest with
      | ':' :: rest =>
        match value? fuel depth (skipSpace rest) with
        | none => none
        | some (value, rest) =>
          match skipSpace rest with
          | ',' :: rest =>
            (fields? fuel depth (skipSpace rest)).map
              (fun r => ((String.ofList name, value) :: r.1, r.2))
          | '}' :: rest => some ([(String.ofList name, value)], rest)
          | _ => none
      | _ => none
  | _, _ => none

end

def parse (s : String) : Option Json :=
  let cs := s.toList
  match value? (cs.length + 1) 127 (skipSpace cs) with
  | some (v, rest) => if (skipSpace rest).isEmpty then some v else none
  | none => none

end ClusterMesh.Json
