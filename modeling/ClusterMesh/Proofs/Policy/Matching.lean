import ClusterMesh.Policy.Wildcard
import Mathlib.Data.List.Basic

/-!
# What a wildcard pattern matches

An item matches a pattern exactly if it is made of the pieces of the pattern in their order with
some texts between neighbours. To take each piece where it first occurs never misses a match.
-/

namespace ClusterMesh.Wildcard

/-- The pieces one after the other, with any text in place of each star between them. -/
inductive Fills : List (List Char) → List Char → Prop
  | last (p : List Char) : Fills [p] p
  | more {ps : List (List Char)} {rest : List Char} (p filling : List Char) (h : Fills ps rest) :
      Fills (p :: ps) (p ++ (filling ++ rest))

variable {p q cs rest : List Char} {ps : List (List Char)}

theorem fills_singleton : Fills [p] cs ↔ cs = p := by
  constructor
  · intro h
    cases h with
    | last => rfl
    | more _ _ h => cases h
  · rintro rfl
    exact .last cs

theorem fills_cons_cons :
    Fills (p :: q :: ps) cs ↔ ∃ filling rest, cs = p ++ (filling ++ rest) ∧ Fills (q :: ps) rest := by
  constructor
  · intro h
    cases h with
    | more _ filling h => exact ⟨filling, _, rfl, h⟩
  · rintro ⟨filling, rest, rfl, h⟩
    exact .more p filling h

theorem eq_of_afterFirst (h : afterFirst p cs = some rest) : ∃ filling, cs = filling ++ (p ++ rest) := by
  induction cs with
  | nil =>
    simp only [afterFirst, Option.ite_none_right_eq_some, List.isEmpty_iff] at h
    obtain ⟨rfl, heq⟩ := h
    obtain rfl := Option.some.inj heq
    exact ⟨[], rfl⟩
  | cons c cs ih =>
    simp only [afterFirst] at h
    split at h
    · next hbegins =>
      obtain ⟨tail, htail⟩ := List.isPrefixOf_iff_prefix.mp hbegins
      rw [← htail, List.drop_left] at h
      obtain rfl := Option.some.inj h
      exact ⟨[], htail.symm⟩
    · obtain ⟨filling, rfl⟩ := ih h
      exact ⟨c :: filling, rfl⟩

theorem afterFirst_of_occurs (p : List Char) (filling rest : List Char) :
    ∃ first, afterFirst p (filling ++ (p ++ rest)) = some first ∧ rest <:+ first := by
  generalize heq : filling ++ (p ++ rest) = cs
  induction cs generalizing filling with
  | nil =>
    obtain ⟨-, htail⟩ := List.append_eq_nil_iff.mp heq
    obtain ⟨rfl, rfl⟩ := List.append_eq_nil_iff.mp htail
    exact ⟨[], rfl, List.suffix_refl []⟩
  | cons c cs ih =>
    simp only [afterFirst]
    split
    · next hbegins =>
      refine ⟨_, rfl, ?_⟩
      have hrest : rest <:+ c :: cs := ⟨filling ++ p, by rw [List.append_assoc, heq]⟩
      refine List.suffix_of_suffix_length_le hrest (List.drop_suffix _ _) ?_
      have hlength := congrArg List.length heq
      simp only [List.length_append] at hlength
      rw [List.length_drop]
      omega
    · next hbegins =>
      cases filling with
      | nil => exact absurd (List.isPrefixOf_iff_prefix.mpr ⟨rest, heq⟩) hbegins
      | cons d filling =>
        rw [List.cons_append, List.cons.injEq] at heq
        exact ih filling heq.2

theorem tailMatches_iff (h : ps ≠ []) :
    tailMatches ps cs = true ↔ ∃ filling rest, cs = filling ++ rest ∧ Fills ps rest := by
  induction ps generalizing cs with
  | nil => exact absurd rfl h
  | cons p ps ih =>
    cases ps with
    | nil =>
      simp only [tailMatches, List.isSuffixOf_iff_suffix, fills_singleton]
      constructor
      · rintro ⟨filling, heq⟩
        exact ⟨filling, p, heq.symm, rfl⟩
      · rintro ⟨filling, rest, heq, rfl⟩
        exact ⟨filling, heq.symm⟩
    | cons q ps =>
      have htail : ∀ first, tailMatches (q :: ps) first = true ↔ _ := fun first => ih (by simp)
      simp only [tailMatches, fills_cons_cons]
      constructor
      · intro hmatch
        cases hfirst : afterFirst p cs with
        | none =>
          rw [hfirst] at hmatch
          cases hmatch
        | some first =>
          rw [hfirst] at hmatch
          obtain ⟨filling', rest, rfl, hfills⟩ := (htail first).mp hmatch
          obtain ⟨filling, rfl⟩ := eq_of_afterFirst hfirst
          exact ⟨filling, _, rfl, filling', rest, rfl, hfills⟩
      · rintro ⟨filling, _, rfl, filling', rest, rfl, hfills⟩
        obtain ⟨first, hfirst, more, hsuffix⟩ := afterFirst_of_occurs p filling (filling' ++ rest)
        rw [hfirst]
        refine (htail first).mpr ⟨more ++ filling', rest, ?_, hfills⟩
        rw [← hsuffix, List.append_assoc]

theorem piecesMatch_iff (h : ps ≠ []) : piecesMatch ps cs = true ↔ Fills ps cs := by
  cases ps with
  | nil => exact absurd rfl h
  | cons p ps =>
    cases ps with
    | nil => rw [piecesMatch, fills_singleton, beq_iff_eq, eq_comm]
    | cons q ps =>
      simp only [piecesMatch, Bool.and_eq_true, List.isPrefixOf_iff_prefix, fills_cons_cons]
      constructor
      · rintro ⟨⟨tail, rfl⟩, hmatch⟩
        rw [List.drop_left] at hmatch
        obtain ⟨filling, rest, rfl, hfills⟩ := (tailMatches_iff (by simp)).mp hmatch
        exact ⟨filling, rest, rfl, hfills⟩
      · rintro ⟨filling, rest, rfl, hfills⟩
        refine ⟨List.prefix_append _ _, ?_⟩
        rw [List.drop_left]
        exact (tailMatches_iff (by simp)).mpr ⟨filling, rest, rfl, hfills⟩

end ClusterMesh.Wildcard
