/-!
# Digits

What digits denote, in base ten and in bases of up to sixteen, and the largest number that fits
into 64 bits. Reading the decimal digits of a number gives the number back.
-/

namespace ClusterMesh

def wordBound : Nat := Nat.pow 2 64 - 1

namespace Digits

def value (ds : List Char) : Nat := Nat.ofDigitChars 10 ds 0

@[simp] theorem value_toDigits (n : Nat) : value (Nat.toDigits 10 n) = n :=
  Nat.ofDigitChars_toDigits (by decide) (by decide)

def signedValue (negative : Bool) (ds : List Char) : Int :=
  if negative then -(value ds : Int) else value ds

def hex? (c : Char) : Option Nat :=
  if c.isDigit then some (c.toNat - '0'.toNat)
  else if 'a' ≤ c && c ≤ 'f' then some (c.toNat - 'a'.toNat + 10)
  else if 'A' ≤ c && c ≤ 'F' then some (c.toNat - 'A'.toNat + 10)
  else none

/-- The number that digits of a base of at most sixteen denote. -/
def valueIn? (base : Nat) (ds : List Char) : Option Nat :=
  ds.foldlM (fun n c => (hex? c).bind (fun d => if d < base then some (n * base + d) else none)) 0

/-- The character whose code so many hexadecimal digits denote, and what follows them; a code
that no character has is refused. -/
def charOfHex? (count : Nat) (cs : List Char) : Option (Char × List Char) :=
  let ds := cs.take count
  if ds.length < count then none
  else
    (valueIn? 16 ds).bind (fun n =>
      if h : n.isValidChar then some (Char.ofNatAux n h, cs.drop count) else none)

def hexChar (n : Nat) : Char := Nat.digitChar n

end Digits

end ClusterMesh
