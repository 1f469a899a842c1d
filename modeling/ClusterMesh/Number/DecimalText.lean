import ClusterMesh.Number.Binary64
import ClusterMesh.Number.Digits

/-!
# Numbers in texts

Texts that are a decimal number as a whole: integers with a sign that may be left out, and
fractions with a point and an exponent that may be left out.
-/

namespace ClusterMesh.DecimalText

/-- A sign that may be left out, and what follows; whether it is a minus. -/
def sign (cs : List Char) : Bool × List Char :=
  match cs with
  | '-' :: rest => (true, rest)
  | '+' :: rest => (false, rest)
  | _ => (false, cs)

/-- An integer of at least `-2 ^ 63` and less than `2 ^ 63`. -/
def inSignedRange (i : Int) : Bool := -(Int.pow 2 63) ≤ i && i < Int.pow 2 63

def integer? (cs : List Char) : Option Int :=
  let (negative, ds) := sign cs
  if ds.isEmpty || !ds.all Char.isDigit then none
  else
    let i := Digits.signedValue negative ds
    if inSignedRange i then some i else none

/-- An exponent that may be left out; nothing may follow. -/
def exponent? : List Char → Option Int
  | [] => some 0
  | c :: rest =>
    if c = 'e' ∨ c = 'E' then
      let (negative, ds) := sign rest
      if ds.isEmpty || !ds.all Char.isDigit then none
      else some (Digits.signedValue negative ds)
    else none

/-- The number of digits, a point with digits and an exponent; the digits on one side of the
point may be left out. -/
def unsigned? (negative : Bool) (cs : List Char) : Option Binary64 := do
  let whole := cs.takeWhile Char.isDigit
  let (part, rest) :=
    match cs.drop whole.length with
    | '.' :: rest => (rest.takeWhile Char.isDigit, rest.dropWhile Char.isDigit)
    | rest => ([], rest)
  if whole.isEmpty && part.isEmpty then none
  else
    let e ← exponent? rest
    some (Binary64.ofDecimal negative (Digits.value (whole ++ part)) (e - part.length))

/-- The floating-point number that a text denotes; `inf`, `infinity` and `nan` in any case are
numbers too. -/
def float? (cs : List Char) : Option Binary64 :=
  let (negative, rest) := sign cs
  let word := String.ofList (rest.map Char.toLower)
  if word = "inf" ∨ word = "infinity" then some (Binary64.infinity negative)
  else if word = "nan" then some Binary64.nan
  else unsigned? negative rest

end ClusterMesh.DecimalText
