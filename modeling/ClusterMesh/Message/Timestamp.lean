import ClusterMesh.Number.Digits
import ClusterMesh.Text.Blank

/-!
# Points of time

A point of time as a date and a time of day in universal time, with nanoseconds. It is read
from a date, a time and an offset, and written with as many digits behind the second as it
takes in groups of three. A leap second is the second 60 of its minute.
-/

namespace ClusterMesh

structure Timestamp where
  year : Int
  month : Nat
  day : Nat
  hour : Nat
  minute : Nat
  second : Nat
  nano : Nat
deriving DecidableEq, Repr, Inhabited

namespace Timestamp

def epoch : Timestamp := ⟨1970, 1, 1, 0, 0, 0, 0⟩

def isLeapYear (year : Int) : Bool := year % 4 == 0 && (year % 100 != 0 || year % 400 == 0)

def daysIn (year : Int) (month : Nat) : Nat :=
  if month = 2 then if isLeapYear year then 29 else 28
  else if month = 4 ∨ month = 6 ∨ month = 9 ∨ month = 11 then 30
  else 31

def yearInRange (year : Int) : Bool := -262143 ≤ year && year ≤ 262142

def isValid (t : Timestamp) : Bool :=
  yearInRange t.year && 1 ≤ t.month && t.month ≤ 12 && 1 ≤ t.day &&
    t.day ≤ daysIn t.year t.month && t.hour ≤ 23 && t.minute ≤ 59 && t.second ≤ 60 &&
    t.nano < 1000000000

def dayBefore (t : Timestamp) : Timestamp :=
  if 1 < t.day then { t with day := t.day - 1 }
  else if 1 < t.month then
    { t with month := t.month - 1, day := daysIn t.year (t.month - 1) }
  else { t with year := t.year - 1, month := 12, day := 31 }

def dayAfter (t : Timestamp) : Timestamp :=
  if t.day < daysIn t.year t.month then { t with day := t.day + 1 }
  else if t.month < 12 then { t with month := t.month + 1, day := 1 }
  else { t with year := t.year + 1, month := 1, day := 1 }

def behind (t : Timestamp) (minutes : Int) : Timestamp :=
  let m : Int := (t.hour * 60 + t.minute : Nat) - minutes
  let day := if m < 0 then t.dayBefore else if 1440 ≤ m then t.dayAfter else t
  let m := (m % 1440).toNat
  { day with hour := m / 60, minute := m % 60 }

def padded (width n : Nat) : List Char :=
  let ds := Nat.toDigits 10 n
  List.replicate (width - ds.length) '0' ++ ds

def fraction (nano : Nat) : List Char :=
  if nano = 0 then []
  else if nano % 1000000 = 0 then '.' :: padded 3 (nano / 1000000)
  else if nano % 1000 = 0 then '.' :: padded 6 (nano / 1000)
  else '.' :: padded 9 nano

def yearText (year : Int) : List Char :=
  if 0 ≤ year ∧ year ≤ 9999 then padded 4 year.natAbs
  else (if year < 0 then '-' else '+') :: padded 4 year.natAbs

def render (t : Timestamp) : String :=
  String.ofList <|
    yearText t.year ++ '-' :: padded 2 t.month ++ '-' :: padded 2 t.day ++ 'T' ::
      padded 2 t.hour ++ ':' :: padded 2 t.minute ++ ':' :: padded 2 t.second ++
      fraction t.nano ++ ['Z']

def skipBlanks (cs : List Char) : List Char := cs.dropWhile Text.isBlank

/-- The number of the digits in front, at most `width` and at least one, and what follows. -/
def number? (width : Nat) (cs : List Char) : Option (Nat × List Char) :=
  let ds := (cs.take width).takeWhile Char.isDigit
  if ds.isEmpty then none
  else some (Digits.value ds, cs.drop ds.length)

def field? (width : Nat) (cs : List Char) : Option (Nat × List Char) :=
  number? width (skipBlanks cs)

/-- A year: four digits, or a sign and any number of them. -/
def year? (cs : List Char) : Option (Int × List Char) :=
  match skipBlanks cs with
  | '-' :: rest => (number? rest.length rest).map (fun r => (-(r.1 : Int), r.2))
  | '+' :: rest => (number? rest.length rest).map (fun r => ((r.1 : Int), r.2))
  | rest => (number? 4 rest).map (fun r => ((r.1 : Int), r.2))

def mark? (c : Char) (cs : List Char) : Option (List Char) :=
  match skipBlanks cs with
  | d :: rest => if d = c then some rest else none
  | [] => none

/-- The nanoseconds of the digits behind a point; those beyond nine count for nothing. -/
def nanos? : List Char → Option (Nat × List Char)
  | '.' :: rest =>
    let ds := rest.takeWhile Char.isDigit
    if ds.isEmpty then none
    else
      let kept := ds.take 9
      some (Digits.value kept * Nat.pow 10 (9 - kept.length), rest.drop ds.length)
  | cs => some (0, cs)

/-- Minutes of an offset: a sign, two digits of hours and two of minutes below sixty, with
colons or blanks between them. -/
def signedOffset? (cs : List Char) : Option (Int × List Char) := do
  let (negative, rest) ←
    match cs with
    | '+' :: rest => some (false, rest)
    | '-' :: rest | '−' :: rest => some (true, rest)
    | _ => none
  let (hours, rest) ←
    match rest with
    | a :: b :: rest =>
      if a.isDigit && b.isDigit then (number? 2 [a, b]).map (fun r => (r.1, rest)) else none
    | _ => none
  let rest := rest.dropWhile (fun c => c == ':' || Text.isBlank c)
  let (minutes, rest) ←
    match rest with
    | a :: b :: rest =>
      if a.isDigit && b.isDigit then (number? 2 [a, b]).map (fun r => (r.1, rest)) else none
    | _ => none
  if 60 ≤ minutes then none
  else
    let total : Int := (hours * 60 + minutes : Nat)
    some (if negative then -total else total, rest)

/-- Minutes of an offset; `Z` and `UTC`, in any case, are none. -/
def offset? (cs : List Char) : Option (Int × List Char) :=
  if ((cs.take 3).map Char.toLower) = ['u', 't', 'c'] then some (0, cs.drop 3)
  else
    match cs with
    | 'Z' :: rest | 'z' :: rest => some (0, rest)
    | _ => signedOffset? cs

/-- Read a date, a time of day and an offset. The offset is less than a day. -/
def parse (s : String) : Option Timestamp := do
  let (year, cs) ← year? s.toList
  let (month, cs) ← (mark? '-' cs).bind (field? 2)
  let (day, cs) ← (mark? '-' cs).bind (field? 2)
  let cs ←
    match cs with
    | 't' :: rest | 'T' :: rest | ' ' :: rest => some rest
    | _ => none
  let (hour, cs) ← field? 2 cs
  let (minute, cs) ← (mark? ':' cs).bind (field? 2)
  let (second, cs) ← (mark? ':' cs).bind (field? 2)
  let (nano, cs) ← nanos? cs
  let (offset, cs) ← offset? (skipBlanks cs)
  let t : Timestamp := ⟨year, month, day, hour, minute, second, nano⟩
  if (skipBlanks cs).isEmpty && t.isValid && offset.natAbs < 1440 then
    let u := t.behind offset
    if yearInRange u.year then some u else none
  else none

end Timestamp

end ClusterMesh
