import ClusterMesh.Message.Basic

/-!
# Identifiers of new messages

A new message is known by 128 bits, of which six say that the others are random. They are
written as hexadecimal digits in five groups.
-/

namespace ClusterMesh

namespace Identifier

def hexDigits : Nat → Nat → List Char
  | 0, _ => []
  | count + 1, n => hexDigits count (n / 16) ++ [Digits.hexChar (n % 16)]

def ofBits (high low : UInt64) : String :=
  let h := high.toNat
  let l := low.toNat
  String.ofList <| hexDigits 8 (h / Nat.pow 2 32) ++ ['-'] ++ hexDigits 4 (h / Nat.pow 2 16) ++
    ['-', '4'] ++ hexDigits 3 h ++ ['-'] ++
    hexDigits 4 (Nat.pow 2 15 + l / Nat.pow 2 48 % Nat.pow 2 14) ++ ['-'] ++ hexDigits 12 l

def isHexDigit (c : Char) : Bool := c.isDigit || ('a' ≤ c && c ≤ 'f')

def isRandom (s : String) : Bool :=
  let cs := s.toList
  cs.length == 36 &&
    cs.zipIdx.all (fun (c, i) =>
      if i = 8 ∨ i = 13 ∨ i = 18 ∨ i = 23 then c == '-'
      else if i = 14 then c == '4'
      else if i = 19 then c == '8' || c == '9' || c == 'a' || c == 'b'
      else isHexDigit c)

theorem isHexDigit_hexChar (n : Nat) : isHexDigit (Digits.hexChar (n % 16)) = true := by
  have hall : ∀ d < 16, isHexDigit (Digits.hexChar d) = true := by decide
  exact hall _ (Nat.mod_lt n (by decide))

/-- The two highest bits of the fourth group are fixed, so one of four digits leads it. -/
theorem hexChar_variant (n : Nat) :
    let c := Digits.hexChar ((Nat.pow 2 15 + n % Nat.pow 2 14) / 16 / 16 / 16 % 16)
    (c == '8' || c == '9' || c == 'a' || c == 'b') = true := by
  have hlead : (32768 + n % 16384) / 16 / 16 / 16 % 16 = 8 + n % 16384 / 4096 := by omega
  have hall : ∀ v < 4, (Digits.hexChar (8 + v) == '8' || Digits.hexChar (8 + v) == '9' ||
      Digits.hexChar (8 + v) == 'a' || Digits.hexChar (8 + v) == 'b') = true := by decide
  show (let c := Digits.hexChar ((32768 + n % 16384) / 16 / 16 / 16 % 16)
    c == '8' || c == '9' || c == 'a' || c == 'b') = true
  rw [hlead]
  exact hall _ (by omega)

theorem isRandom_ofBits (high low : UInt64) : isRandom (ofBits high low) = true := by
  have hvariant := hexChar_variant (low.toNat / Nat.pow 2 48)
  simp only [isRandom, ofBits, String.toList_ofList, hexDigits, List.nil_append, List.cons_append]
  simpa [List.zipIdx, isHexDigit_hexChar] using hvariant

end Identifier

def Event.fresh (high low : UInt64) (eventType : String) : Event :=
  Event.withId (Identifier.ofBits high low) eventType

def Command.fresh (high low : UInt64) (commandType : String) : Command :=
  Command.withId (Identifier.ofBits high low) commandType

end ClusterMesh
