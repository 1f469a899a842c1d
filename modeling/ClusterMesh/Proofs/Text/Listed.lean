import ClusterMesh.Collection.KeyedList
import ClusterMesh.Text.Blank
import ClusterMesh.Text.Pieces
import Mathlib.Data.List.Basic

/-!
# The items between commas

Lists in properties and in tagged texts are read alike: what stands between two commas is trimmed,
and it is an item unless nothing is left of it. To read texts that were joined by commas is to read
each of them, so that an item is read back as it was written.
-/

namespace ClusterMesh.Text

theorem pieces_eq_splitOn (sep : Char) (cs : List Char) : pieces sep cs = cs.splitOn sep := by
  induction cs with
  | nil => rfl
  | cons c cs ih =>
    have hcons : (c :: cs).splitOn sep =
        if c == sep then [] :: cs.splitOn sep else (cs.splitOn sep).modifyHead (List.cons c) :=
      List.splitOnP_cons_eq_if_modifyHead ..
    rw [hcons, ← ih, pieces]
    by_cases hc : c = sep
    · simp [hc]
    · obtain ⟨p, ps, hps⟩ := List.exists_cons_of_ne_nil (pieces_ne_nil sep cs)
      simp [hc, hps]

/-- The items of a text in their order, with those that are repeated. -/
def listed (cs : List Char) : List String :=
  ((pieces ',' cs).map fun p => String.ofList (trimChars p)).filter fun item => !item.isEmpty

theorem mem_listed {cs : List Char} {item : String} :
    item ∈ listed cs ↔
      item ≠ "" ∧ ∃ p ∈ pieces ',' cs, item = String.ofList (trimChars p) := by
  simp only [listed, List.mem_filter, List.mem_map, Bool.not_eq_true', String.isEmpty_eq_false_iff]
  constructor
  · rintro ⟨⟨p, hp, rfl⟩, hne⟩
    exact ⟨hne, p, hp, rfl⟩
  · rintro ⟨hne, p, hp, rfl⟩
    exact ⟨⟨p, hp, rfl⟩, hne⟩

theorem listed_nil : listed [] = [] := by
  simp [listed, pieces]

theorem listed_joined (ps : List (List Char)) : listed (joined ',' ps) = ps.flatMap listed := by
  by_cases h : ps = []
  · rw [h]
    exact listed_nil
  · simp only [listed, pieces_joined ',' h, List.map_flatMap, List.filter_flatMap]
    rfl

theorem mem_joined_of_mem {sep : Char} {ps : List (List Char)} {p : List Char} {c : Char}
    (hp : p ∈ ps) (hc : c ∈ p) : c ∈ joined sep ps := by
  induction ps with
  | nil => cases hp
  | cons q ps ih =>
    by_cases hps : ps = []
    · subst hps
      rwa [List.mem_singleton.mp hp] at hc
    · rw [joined_cons_of_ne_nil sep q hps, List.mem_append]
      rcases List.mem_cons.mp hp with rfl | hp
      · exact Or.inl hc
      · exact Or.inr (List.mem_cons_of_mem sep (ih hp))

theorem mem_of_mem_listed {cs : List Char} {item : String} {c : Char} (h : item ∈ listed cs)
    (hc : c ∈ item.toList) : c ∈ cs := by
  obtain ⟨-, p, hp, rfl⟩ := mem_listed.mp h
  rw [String.toList_ofList] at hc
  rw [← joined_pieces ',' cs]
  exact mem_joined_of_mem hp (mem_of_mem_trimChars hc)

theorem trimChars_of_mem_listed {cs : List Char} {item : String} (h : item ∈ listed cs) :
    trimChars item.toList = item.toList := by
  obtain ⟨-, p, -, rfl⟩ := mem_listed.mp h
  rw [String.toList_ofList, trimChars_trimChars]

theorem comma_not_mem_of_mem_listed {cs : List Char} {item : String} (h : item ∈ listed cs) :
    ',' ∉ item.toList := by
  obtain ⟨-, p, hp, rfl⟩ := mem_listed.mp h
  rw [String.toList_ofList]
  exact fun hc => not_mem_of_mem_pieces hp (mem_of_mem_trimChars hc)

theorem listed_eq_singleton {item : String} (hne : item ≠ "")
    (htrim : trimChars item.toList = item.toList) (hcomma : ',' ∉ item.toList) :
    listed item.toList = [item] := by
  have hkept : item.isEmpty = false := String.isEmpty_eq_false_iff.mpr hne
  simp [listed, pieces_of_not_mem hcomma, htrim, hkept]

theorem flatMap_eq_self {f : String → List String} {ts : List String} (h : ∀ t ∈ ts, f t = [t]) :
    ts.flatMap f = ts :=
  (List.flatMap_congr h).trans (List.flatMap_singleton' ts)

/-! ### How much room texts take -/

/-- The characters of texts, with one more for each text: what they take with a separator behind
each of them. -/
def extent : List (List Char) → Nat
  | [] => 0
  | t :: ts => t.length + 1 + extent ts

theorem extent_joined (sep : Char) {ps : List (List Char)} (h : ps ≠ []) :
    extent ps = (joined sep ps).length + 1 := by
  induction ps with
  | nil => exact absurd rfl h
  | cons p ps ih =>
    by_cases hps : ps = []
    · simp [hps, extent, joined]
    · rw [extent, ih hps, joined_cons_of_ne_nil sep p hps, List.length_append, List.length_cons]
      omega

theorem extent_pieces (sep : Char) (cs : List Char) : extent (pieces sep cs) = cs.length + 1 := by
  rw [extent_joined sep (pieces_ne_nil sep cs), joined_pieces]

theorem extent_map_le {f : List Char → List Char} (h : ∀ p, (f p).length ≤ p.length)
    (ps : List (List Char)) : extent (ps.map f) ≤ extent ps := by
  induction ps with
  | nil => exact Nat.le_refl 0
  | cons p ps ih =>
    have hp := h p
    simp only [List.map_cons, extent]
    omega

theorem extent_perm {ts us : List (List Char)} (h : ts.Perm us) : extent ts = extent us := by
  induction h with
  | nil => rfl
  | cons t _ ih => rw [extent, extent, ih]
  | swap t u ts =>
    simp only [extent]
    omega
  | trans _ _ ih ih' => rw [ih, ih']

theorem extent_sublist {ts us : List (List Char)} (h : ts.Sublist us) :
    extent ts ≤ extent us := by
  induction h with
  | slnil => exact Nat.le_refl 0
  | cons u _ ih =>
    rw [extent]
    omega
  | cons_cons t _ ih =>
    rw [extent, extent]
    omega

theorem extent_subperm {ts us : List (List Char)} (h : ts.Subperm us) :
    extent ts ≤ extent us := by
  obtain ⟨vs, hperm, hsub⟩ := h
  rw [← extent_perm hperm]
  exact extent_sublist hsub

theorem extent_listed_le (cs : List Char) :
    extent ((listed cs).map String.toList) ≤ cs.length + 1 := by
  have hsub : ((listed cs).map String.toList).Sublist ((pieces ',' cs).map trimChars) := by
    have hkept := (List.filter_sublist (p := fun item : String => !item.isEmpty)
      (l := (pieces ',' cs).map fun p => String.ofList (trimChars p))).map String.toList
    simpa [listed, Function.comp_def] using hkept
  calc extent ((listed cs).map String.toList)
      ≤ extent ((pieces ',' cs).map trimChars) := extent_sublist hsub
    _ ≤ extent (pieces ',' cs) := extent_map_le length_trimChars_le _
    _ = cs.length + 1 := extent_pieces ',' cs

end ClusterMesh.Text
