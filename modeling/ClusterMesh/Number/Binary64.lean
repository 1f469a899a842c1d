/-!
# Binary floating-point numbers of 64 bits

A `Binary64` is a word in the interchange format of binary floating-point arithmetic: a sign,
an exponent of eleven bits and a fraction of fifty-two. All operations here work on the exact
value `mantissa · 2 ^ exponent` in natural numbers; a result that has no word of its own is the
nearest that has one, the even one of two that are equally near.
-/

namespace ClusterMesh

structure Binary64 where
  bits : UInt64
deriving DecidableEq, Repr, Inhabited

/-- `num / den` rounded to the nearest natural number, a half to the even one. -/
def roundHalfEven (num den : Nat) : Nat :=
  let down := num / den
  let rest := num % den
  if 2 * rest < den then down
  else if den < 2 * rest then down + 1
  else down + down % 2

/-- `num / den` rounded to the nearest natural number, a half away from zero. -/
def roundHalfUp (num den : Nat) : Nat := (2 * num + den) / (2 * den)

namespace Binary64

def isNegative (x : Binary64) : Bool := x.bits >>> 63 == 1

def exponentField (x : Binary64) : Nat := ((x.bits >>> 52) &&& 0x7ff).toNat

def fractionField (x : Binary64) : Nat := (x.bits &&& 0xfffffffffffff).toNat

def isNaN (x : Binary64) : Bool := x.exponentField == 2047 && x.fractionField != 0

def isInfinite (x : Binary64) : Bool := x.exponentField == 2047 && x.fractionField == 0

/-- The magnitude of a finite number is `mantissa · 2 ^ exponent`. -/
def mantissa (x : Binary64) : Nat :=
  if x.exponentField = 0 then x.fractionField else Nat.pow 2 52 + x.fractionField

def exponent (x : Binary64) : Int :=
  if x.exponentField = 0 then -1074 else (x.exponentField : Int) - 1075

def isZero (x : Binary64) : Bool := x.exponentField == 0 && x.fractionField == 0

def ratio (x : Binary64) : Nat × Nat :=
  match x.exponent with
  | .ofNat e => (x.mantissa * Nat.pow 2 e, 1)
  | .negSucc e => (x.mantissa, Nat.pow 2 (e + 1))

def signed (negative : Bool) (magnitude : Nat) : Binary64 :=
  ⟨UInt64.ofNat (magnitude + if negative then Nat.pow 2 63 else 0)⟩

def infinity (negative : Bool) : Binary64 := signed negative (2047 * Nat.pow 2 52)

def zero (negative : Bool) : Binary64 := signed negative 0

def nan : Binary64 := signed false (2047 * Nat.pow 2 52 + Nat.pow 2 51)

/-- `num / (den · 2 ^ q)` rounded to the nearest natural number. -/
def scaled (num den : Nat) : Int → Nat
  | .ofNat q => roundHalfEven num (den * Nat.pow 2 q)
  | .negSucc q => roundHalfEven (num * Nat.pow 2 (q + 1)) den

/-- The number nearest to `num / den`, with the given sign. -/
def ofRatio (negative : Bool) (num den : Nat) : Binary64 :=
  if num = 0 then zero negative
  else
    let guess : Int := (num.log2 : Int) - (den.log2 : Int) - 53
    let fine := max guess (-1074)
    let q := if scaled num den fine < Nat.pow 2 53 then fine else max (guess + 1) (-1074)
    let m := scaled num den q
    let m' := if m = Nat.pow 2 53 then Nat.pow 2 52 else m
    let q' := if m = Nat.pow 2 53 then q + 1 else q
    if 971 < q' then infinity negative
    else if m' < Nat.pow 2 52 then signed negative m'
    else signed negative ((q' + 1075).toNat * Nat.pow 2 52 + (m' - Nat.pow 2 52))

/-- The number of decimal digits of a natural number; zero has one. -/
def digitCount (n : Nat) : Nat := (Nat.toDigits 10 n).length

/-- The number nearest to `digits · 10 ^ exponent`, with the given sign. Beyond the range of
exponents that a finite number can have, the answer is known without the power. -/
def ofDecimal (negative : Bool) (digits : Nat) (exponent : Int) : Binary64 :=
  if digits = 0 then zero negative
  else
    let top := exponent + digitCount digits
    if 310 < top then infinity negative
    else if top < -330 then zero negative
    else
      match exponent with
      | .ofNat e => ofRatio negative (digits * Nat.pow 10 e) 1
      | .negSucc e => ofRatio negative digits (Nat.pow 10 (e + 1))

/-- The number nearest to a natural number. -/
def ofNat (n : Nat) : Binary64 := ofRatio false n 1

/-- The number nearest to an integer. -/
def ofInt (i : Int) : Binary64 := ofRatio (i < 0) i.natAbs 1

/-- The product of two finite magnitudes, rounded. -/
def mulAbs (x y : Binary64) : Binary64 :=
  ofRatio false (x.ratio.1 * y.ratio.1) (x.ratio.2 * y.ratio.2)

/-- The quotient of two finite magnitudes, rounded; the second is not zero. -/
def divAbs (x y : Binary64) : Binary64 :=
  ofRatio false (x.ratio.1 * y.ratio.2) (x.ratio.2 * y.ratio.1)

/-- The magnitude of a finite number rounded to a natural number, a half away from zero. -/
def roundAbs (x : Binary64) : Nat := roundHalfUp x.ratio.1 x.ratio.2

/-- The digits of `x`'s two neighbours on the grid of `10 ^ e`, the nearer first; of two that
are equally near, the even one first. -/
def neighbours (x : Binary64) (e : Int) : List Nat :=
  let r := x.ratio
  let (num, den) :=
    match e with
    | .ofNat e => (r.1, r.2 * Nat.pow 10 e)
    | .negSucc e => (r.1 * Nat.pow 10 (e + 1), r.2)
  let near := roundHalfEven num den
  let down := num / den
  [near, if near = down then down + 1 else down]

/-- The first grid, from the coarsest on, on which a neighbour of `x` reads back as `x`. -/
def searchShortest (x : Binary64) : Nat → Int → Nat × Int
  | 0, e => ((neighbours x e).headD 0, e)
  | steps + 1, e =>
    match (neighbours x e).find? (fun d => decide (d ≠ 0) &&
        decide (ofDecimal x.isNegative d e = x)) with
    | some d => (d, e)
    | none => searchShortest x steps (e - 1)

/-- The power of ten below the magnitude `num / den`, or one less. -/
def decimalFloor (num den : Nat) : Int :=
  (digitCount num : Int) - (digitCount den : Int) - 1

def dropZeros : Nat → Nat × Int → Nat × Int
  | 0, p => p
  | steps + 1, (d, e) => if d ≠ 0 ∧ d % 10 = 0 then dropZeros steps (d / 10, e + 1) else (d, e)

/-- The fewest decimal digits that read back as the finite number `x ≠ 0`, and their exponent:
the nearest to `x` of those with that many digits. -/
def shortest (x : Binary64) : Nat × Int :=
  dropZeros 20 (searchShortest x 19 (decimalFloor x.ratio.1 x.ratio.2 + 1))

/-- Digits with a point after `point` of them, filled with zeros where there are none. -/
def positional (ds : List Char) (point : Int) : List Char × List Char :=
  match point with
  | .ofNat n => (ds.take n ++ List.replicate (n - ds.length) '0', ds.drop n)
  | .negSucc n => ([], List.replicate (n + 1) '0' ++ ds)

/-- The text of a number without an exponent: the fewest digits that read back, no point behind
a whole number. -/
def plainText (x : Binary64) : String :=
  if x.isNaN then "NaN"
  else
    let sign := if x.isNegative then "-" else ""
    if x.isInfinite then sign ++ "inf"
    else if x.isZero then sign ++ "0"
    else
      let (d, e) := x.shortest
      let ds := Nat.toDigits 10 d
      let (whole, rest) := positional ds (ds.length + e)
      let whole := if whole.isEmpty then ['0'] else whole
      sign ++ String.ofList (if rest.isEmpty then whole else whole ++ '.' :: rest)

/-- The text of a finite number in a document: positional with at least one place for exponents
from -5 to 15, else with an exponent. -/
def documentText (x : Binary64) : String :=
  let sign := if x.isNegative then "-" else ""
  if x.isZero then sign ++ "0.0"
  else
    let (d, e) := x.shortest
    let ds := Nat.toDigits 10 d
    let point : Int := ds.length + e
    if -5 < point ∧ point ≤ 16 then
      let (whole, rest) := positional ds point
      let whole := if whole.isEmpty then ['0'] else whole
      let rest := if rest.isEmpty then ['0'] else rest
      sign ++ String.ofList (whole ++ '.' :: rest)
    else
      let lead := ds.take 1 ++ if ds.length = 1 then [] else '.' :: ds.drop 1
      sign ++ String.ofList lead ++ "e" ++ toString (point - 1)

/-- Equality of values: zeros of both signs are equal, and no number equals a NaN. -/
def sameValue (x y : Binary64) : Bool :=
  !x.isNaN && !y.isNaN && (x == y || (x.isZero && y.isZero))

end Binary64

end ClusterMesh
