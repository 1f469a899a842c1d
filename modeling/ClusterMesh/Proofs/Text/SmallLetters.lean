import ClusterMesh.Text.LetterCase

/-!
# Small letters of small letters

Putting a text into small letters twice is putting it into small letters once: no small letter that
the rule writes is again a capital one. What stands before a text changes its small letters only
where a sigma may end a word.
-/

namespace ClusterMesh.Text

/-- A character that the rule leaves as it is. -/
structure IsSettled (c : Char) : Prop where
  same : small c = c
  not_sigma : c ≠ 'Σ'
  not_dotted : c ≠ 'İ'

/-! ### The table of capital letters -/

/-- The codes of the first and the last small letter of a row of capital letters. -/
def firstSmall (row : Nat × Nat × Nat × Int) : Nat := (row.1 + row.2.2.2).toNat

def lastSmall (row : Nat × Nat × Nat × Int) : Nat := (row.2.1 + row.2.2.2).toNat

/-- The small letters of a row are not among the capital letters of another: they lie elsewhere, or
where each second letter is a capital one, and they are the letters in between. -/
def isApart (first last step : Nat) (other : Nat × Nat × Nat × Int) : Bool :=
  Nat.blt last other.1 || Nat.blt other.2.1 first ||
    (Nat.beq other.2.2.1 2 && (Nat.beq step 2 || Nat.beq first last) &&
      Nat.beq ((first + other.1) % 2) 1)

theorem all_isApart : (capitals.all fun row =>
    capitals.all (isApart (firstSmall row) (lastSmall row) row.2.2.1)) = true := by
  decide +kernel

/-- The small letters of a row are characters, none of them the dotted capital I, and those of ASCII are
small ones there. -/
theorem row_bounds : ∀ row ∈ capitals, row.1 ≤ row.2.1 ∧ (row.2.2.1 = 1 ∨ row.2.2.1 = 2) ∧
    0 ≤ row.1 + row.2.2.2 ∧ (lastSmall row < 0xd800 ∨ 0xdfff < firstSmall row) ∧
    lastSmall row < 0x110000 ∧ (lastSmall row < 0x130 ∨ 0x130 < firstSmall row) ∧
    (128 ≤ firstSmall row ∨ 97 ≤ firstSmall row ∧ lastSmall row ≤ 122) := by
  decide +kernel

def isCapitalIn (n : Nat) (row : Nat × Nat × Nat × Int) : Bool :=
  row.1 ≤ n && n ≤ row.2.1 && (n - row.1) % row.2.2.1 == 0

theorem isCapitalIn_iff {n : Nat} {row : Nat × Nat × Nat × Int} :
    isCapitalIn n row = true ↔ row.1 ≤ n ∧ n ≤ row.2.1 ∧ (n - row.1) % row.2.2.1 = 0 := by
  simp [isCapitalIn, and_assoc]

theorem small_of_ascii {c : Char} (h : c.toNat < 128) : small c = c.toLower := if_pos h

theorem small_of_capital {c : Char} {row : Nat × Nat × Nat × Int} (h : 128 ≤ c.toNat)
    (hrow : capitals.find? (isCapitalIn c.toNat) = some row) :
    small c = Char.ofNat ((c.toNat : Int) + row.2.2.2).toNat := by
  change (capitals.find? fun r => r.1 ≤ c.toNat && c.toNat ≤ r.2.1 &&
    (c.toNat - r.1) % r.2.2.1 == 0) = some row at hrow
  rw [small, if_neg (Nat.not_lt.mpr h), hrow]

theorem small_of_not_capital {c : Char} (h : 128 ≤ c.toNat)
    (hnone : capitals.find? (isCapitalIn c.toNat) = none) : small c = c := by
  change (capitals.find? fun r => r.1 ≤ c.toNat && c.toNat ≤ r.2.1 &&
    (c.toNat - r.1) % r.2.2.1 == 0) = none at hnone
  rw [small, if_neg (Nat.not_lt.mpr h), hnone]

theorem not_capital_of_small {row : Nat × Nat × Nat × Int} {n : Nat} (hrow : row ∈ capitals)
    (hn : isCapitalIn n row = true) :
    capitals.find? (isCapitalIn ((n : Int) + row.2.2.2).toNat) = none := by
  obtain ⟨hfrom, hto, hstep⟩ := isCapitalIn_iff.mp hn
  obtain ⟨-, hsteps, hpos, -⟩ := row_bounds row hrow
  refine List.find?_eq_none.mpr fun other hother hcapital => ?_
  obtain ⟨hfrom', hto', hstep'⟩ := isCapitalIn_iff.mp hcapital
  have hapart := List.all_eq_true.mp (List.all_eq_true.mp all_isApart row hrow) other hother
  simp only [isApart, firstSmall, lastSmall, Bool.or_eq_true, Bool.and_eq_true, Nat.blt_eq,
    Nat.beq_eq] at hapart
  rcases hapart with (hbelow | habove) | ⟨⟨hsecond, hown⟩, hodd⟩
  · omega
  · omega
  · -- the other row has every second letter, and the small letters of this one the rest
    rw [hsecond] at hstep'
    rcases hown with htwo | hone
    · rw [htwo] at hstep
      omega
    · omega

theorem toNat_ofNat {n : Nat} (h : n < 0xd800 ∨ 0xdfff < n ∧ n < 0x110000) :
    (Char.ofNat n).toNat = n := by
  have hvalid : n.isValidChar := h
  rw [Char.ofNat, dif_pos hvalid]
  rfl

theorem isSettled_of_ascii {c : Char} (h : c.toNat < 128) : IsSettled (small c) := by
  have hall : ∀ n < 128, (Char.ofNat n).toLower.toNat < 128 ∧
      (Char.ofNat n).toLower.toLower = (Char.ofNat n).toLower := by decide
  obtain ⟨hascii, hsame⟩ := hall c.toNat h
  rw [Char.ofNat_toNat] at hascii hsame
  rw [small_of_ascii h]
  refine ⟨(small_of_ascii hascii).trans hsame, fun he => ?_, fun he => ?_⟩
  · exact absurd (he ▸ hascii) (by decide)
  · exact absurd (he ▸ hascii) (by decide)

theorem isSettled_small {c : Char} (hdotted : c ≠ 'İ') : IsSettled (small c) := by
  by_cases hascii : c.toNat < 128
  · exact isSettled_of_ascii hascii
  have hbeyond : 128 ≤ c.toNat := Nat.not_lt.mp hascii
  cases hfind : capitals.find? (isCapitalIn c.toNat) with
  | none =>
    have hsame := small_of_not_capital hbeyond hfind
    rw [hsame]
    refine ⟨hsame, fun he => ?_, hdotted⟩
    have hsigma : (capitals.find? (isCapitalIn 'Σ'.toNat)).isSome = true := by decide
    rw [← he, hfind] at hsigma
    cases hsigma
  | some row =>
    have hrow := List.mem_of_find?_eq_some hfind
    obtain ⟨hle, hsteps, hpos, hchar, hmax, hdot, hletter⟩ := row_bounds row hrow
    obtain ⟨hfrom, hto, -⟩ := isCapitalIn_iff.mp (List.find?_some hfind)
    have hnone := not_capital_of_small hrow (List.find?_some hfind)
    rw [small_of_capital hbeyond hfind]
    generalize hm : ((c.toNat : Int) + row.2.2.2).toNat = m at hnone ⊢
    have hfirst : firstSmall row ≤ m := by
      rw [firstSmall, ← hm]
      omega
    have hlast : m ≤ lastSmall row := by
      rw [lastSmall, ← hm]
      omega
    have hto : (Char.ofNat m).toNat = m := toNat_ofNat (by omega)
    refine ⟨?_, fun he => ?_, fun he => ?_⟩
    · by_cases hsmall : m < 128
      · have hlower : ∀ n < 128, 97 ≤ n → (Char.ofNat n).toLower = Char.ofNat n := by decide
        rw [small_of_ascii (hto.symm ▸ hsmall), hlower m hsmall (by omega)]
      · exact small_of_not_capital (by omega) (hto.symm ▸ hnone)
    · have hsigma : (capitals.find? (isCapitalIn 'Σ'.toNat)).isSome = true := by decide
      rw [← he, hto, hnone] at hsigma
      cases hsigma
    · have hdotted : m = 'İ'.toNat := hto.symm.trans (congrArg Char.toNat he)
      have hcode : 'İ'.toNat = 0x130 := rfl
      omega

/-! ### Texts in small letters -/

theorem isSettled_of_mem_smallChars {c : Char} {before cs : List Char}
    (h : c ∈ smallChars before cs) : IsSettled c := by
  induction cs generalizing before with
  | nil => cases h
  | cons d cs ih =>
    rw [smallChars] at h
    rcases List.mem_append.mp h with hfirst | hrest
    · split at hfirst
      next =>
        rcases List.mem_singleton.mp hfirst with rfl
        split <;> exact ⟨by decide, by decide, by decide⟩
      next =>
        split at hfirst
        next =>
          have htwo : IsSettled 'i' ∧ IsSettled '\u0307' :=
            ⟨⟨by decide, by decide, by decide⟩, ⟨by decide, by decide, by decide⟩⟩
          rcases List.mem_cons.mp hfirst with rfl | hsecond
          · exact htwo.1
          · exact List.mem_singleton.mp hsecond ▸ htwo.2
        next hdotted => exact List.mem_singleton.mp hfirst ▸ isSettled_small hdotted
    · exact ih hrest

theorem smallChars_of_isSettled {before cs : List Char} (h : ∀ c ∈ cs, IsSettled c) :
    smallChars before cs = cs := by
  induction cs generalizing before with
  | nil => rfl
  | cons c cs ih =>
    have hc := h c List.mem_cons_self
    rw [smallChars, if_neg hc.not_sigma, if_neg hc.not_dotted, hc.same,
      ih fun d hd => h d (List.mem_cons_of_mem c hd), List.singleton_append]

theorem isSettled_of_mem_toSmall {s : String} {c : Char} (h : c ∈ (toSmall s).toList) :
    IsSettled c := by
  rw [toSmall, String.toList_ofList] at h
  exact isSettled_of_mem_smallChars h

theorem toSmall_of_isSettled {s : String} (h : ∀ c ∈ s.toList, IsSettled c) : toSmall s = s := by
  rw [toSmall, smallChars_of_isSettled h, String.ofList_toList]

@[simp] theorem toSmall_toSmall (s : String) : toSmall (toSmall s) = toSmall s :=
  toSmall_of_isSettled fun _ h => isSettled_of_mem_toSmall h

/-! ### Texts behind others -/

theorem meetsCased_cons (c : Char) (cs : List Char) :
    meetsCased (c :: cs) = if isTransparent c then meetsCased cs else isCased c := by
  rw [meetsCased, List.dropWhile_cons]
  cases isTransparent c <;> rfl

/-- What was read before matters for no more than the end of a word. -/
theorem smallChars_congr {before before' : List Char} (h : meetsCased before = meetsCased before')
    (cs : List Char) : smallChars before cs = smallChars before' cs := by
  induction cs generalizing before before' with
  | nil => rfl
  | cons c cs ih =>
    have hnext : meetsCased (c :: before) = meetsCased (c :: before') := by
      rw [meetsCased_cons, meetsCased_cons, h]
    rw [smallChars, smallChars, h, ih hnext]

theorem smallChars_append {before cs : List Char} (h : 'Σ' ∉ cs) (ds : List Char) :
    smallChars before (cs ++ ds) = smallChars before cs ++ smallChars (cs.reverse ++ before) ds := by
  induction cs generalizing before with
  | nil => rfl
  | cons c cs ih =>
    obtain ⟨hc, hcs⟩ := not_or.mp (mt List.mem_cons.mpr h)
    rw [List.cons_append, smallChars, smallChars, ih hcs, if_neg (Ne.symm hc), if_neg (Ne.symm hc),
      List.append_assoc, List.reverse_cons, List.append_assoc, List.singleton_append]

/-- A text behind one without a sigma, at whose end no word is open, has the small letters that it has by
itself. -/
theorem toSmall_append {s : String} (hsigma : 'Σ' ∉ s.toList)
    (hend : meetsCased s.toList.reverse = false) (t : String) :
    toSmall (s ++ t) = toSmall s ++ toSmall t := by
  have hopen : meetsCased (s.toList.reverse ++ []) = meetsCased [] := by
    rw [List.append_nil]
    exact hend
  rw [toSmall, String.toList_append, smallChars_append hsigma, smallChars_congr hopen,
    String.ofList_append]
  rfl

end ClusterMesh.Text
