import ClusterMesh.Proofs.Merge.Monoid

/-!
# Merging two texts

Two texts of which at least one is tagged become one that holds the items of both, the incoming
ones first, and it is tagged again unless there is no item at all. Of two plain texts the existing
one stays. The tag of a text is found by its bytes, and what stands between the brackets is cut out
between two places that are counted in bytes: such a cut never parts a character.
-/

namespace ClusterMesh.Tagged

variable {s body incoming existing : String}

/-! ### Cutting by places in bytes -/

/-- A text is what stands between two places of another one. Both lie between two characters or at
an end. -/
structure CutsOut (s : String) (i j : Nat) (piece : String) : Prop where
  first : (String.Pos.Raw.mk i).IsValid s
  last : (String.Pos.Raw.mk j).IsValid s
  ordered : i ≤ j
  bytes : s.toByteArray.extract i j = piece.toByteArray

theorem cutsOut_append (before piece after : String) :
    CutsOut (before ++ piece ++ after) before.utf8ByteSize
      (before.utf8ByteSize + piece.utf8ByteSize) piece where
  first := String.Pos.Raw.isValid_iff_exists_append.mpr
    ⟨before, piece ++ after, String.append_assoc .., rfl⟩
  last := String.Pos.Raw.isValid_iff_exists_append.mpr
    ⟨before ++ piece, after, rfl, congrArg String.Pos.Raw.mk String.utf8ByteSize_append.symm⟩
  ordered := Nat.le_add_right _ _
  bytes := by
    rw [String.toByteArray_append, String.toByteArray_append, ByteArray.append_assoc]
    have hskip := ByteArray.extract_append_size_add (i := 0) (j := piece.utf8ByteSize)
      (a := before.toByteArray) (b := piece.toByteArray ++ after.toByteArray)
    exact hskip.trans (ByteArray.extract_append_eq_left rfl)

/-! ### The brackets of a tagged text -/

def front : String := "MERGABLE["

def back : String := "]"

theorem toList_bracketed (body : String) :
    (front ++ body ++ back).toList = opening ++ body.toList ++ [closing] := by
  have hclosing : back.toList = [closing] := rfl
  rw [String.toList_append, String.toList_append, hclosing]
  rfl

theorem body?_eq_some : body? s.toList = some body.toList ↔ s = front ++ body ++ back := by
  rw [body?_eq_some_iff, ← toList_bracketed, String.toList_inj]

theorem isTagged_iff : isTagged s = true ↔ ∃ body : String, s = front ++ body ++ back := by
  rw [isTagged, Option.isSome_iff_exists]
  constructor
  · rintro ⟨body, hbody⟩
    refine ⟨String.ofList body, body?_eq_some.mp ?_⟩
    rw [String.toList_ofList, hbody]
  · rintro ⟨body, hs⟩
    exact ⟨body.toList, body?_eq_some.mpr hs⟩

/-- A text is tagged if it is long enough, begins as the tag begins and ends as it ends. -/
theorem isTagged_iff_bytes : isTagged s = true ↔
    front.utf8ByteSize + back.utf8ByteSize ≤ s.utf8ByteSize ∧ front.toList <+: s.toList ∧
      back.toList <:+ s.toList := by
  rw [isTagged_iff]
  constructor
  · rintro ⟨body, rfl⟩
    refine ⟨?_, ?_, ?_⟩
    · rw [String.utf8ByteSize_append, String.utf8ByteSize_append]
      omega
    · exact ⟨(body ++ back).toList, by rw [← String.toList_append, String.append_assoc]⟩
    · exact ⟨(front ++ body).toList, by rw [← String.toList_append]⟩
  · rintro ⟨hlong, ⟨rest, hrest⟩, hback⟩
    -- the tag begins with more bytes than it ends with, so that the two cannot overlap in one
    have hs : s = front ++ String.ofList rest := by
      rw [← String.toList_inj, String.toList_append, String.toList_ofList, hrest]
    have hne : rest ≠ [] := by
      rintro rfl
      rw [hs] at hlong
      exact absurd hlong (by decide)
    have hlast : rest.getLast? = some closing := by
      rw [← hrest] at hback
      obtain ⟨initial, hinitial⟩ := hback
      have hend := congrArg List.getLast? hinitial
      rw [List.getLast?_append_of_ne_nil _ hne] at hend
      rw [← hend]
      exact List.getLast?_concat ..
    refine ⟨String.ofList rest.dropLast, ?_⟩
    rw [hs, ← String.toList_inj, toList_bracketed, String.toList_append, String.toList_ofList,
      String.toList_ofList, List.append_assoc, List.dropLast_append_getLast? closing hlast]
    rfl

/-- What stands between the brackets is cut out of a tagged text; of any other text nothing is. -/
structure Strips (s : String) : Prop where
  tagged : isTagged s = true ↔ front.utf8ByteSize + back.utf8ByteSize ≤ s.utf8ByteSize ∧
    front.toList <+: s.toList ∧ back.toList <:+ s.toList
  cut : isTagged s = true → ∃ body : String, body? s.toList = some body.toList ∧
    CutsOut s front.utf8ByteSize (s.utf8ByteSize - back.utf8ByteSize) body
  whole : isTagged s = false → (body? s.toList).getD s.toList = s.toList

theorem strips (s : String) : Strips s where
  tagged := isTagged_iff_bytes
  cut := by
    intro htagged
    obtain ⟨body, rfl⟩ := isTagged_iff.mp htagged
    have hlast : (front ++ body ++ back).utf8ByteSize - back.utf8ByteSize =
        front.utf8ByteSize + body.utf8ByteSize := by
      rw [String.utf8ByteSize_append, String.utf8ByteSize_append]
      omega
    rw [hlast]
    exact ⟨body, body?_eq_some.mpr rfl, cutsOut_append front body back⟩
  whole := by
    intro hplain
    rw [Option.isSome_eq_false_iff.mp hplain |> Option.isNone_iff_eq_none.mp]
    rfl

/-! ### What becomes of two texts -/

/-- The items of two texts: those of the incoming one in their order, and then those of the existing
one that are new. -/
def unitedItems (incoming existing : String) : List String :=
  (items incoming).toList ++
    (items existing).toList.filter (fun item => decide (item ∉ (items incoming).toList))

theorem toList_items_union (incoming existing : String) :
    ((items incoming).union (items existing)).toList = unitedItems incoming existing := by
  rw [KeyedList.toList_union, KeyedList.keys_textSet]
  rfl

/-- One text for two. The tag is lost only where neither has an item and the existing text is
plain. -/
structure Joins (incoming existing merged : String) : Prop where
  plain : isTagged incoming = false → isTagged existing = false → merged = existing
  items : isTagged incoming = true ∨ isTagged existing = true →
    (Tagged.items merged).toList = unitedItems incoming existing
  tagged : isTagged incoming = true ∨ isTagged existing = true →
    unitedItems incoming existing ≠ [] → isTagged merged = true
  bare : isTagged incoming = true ∨ isTagged existing = true →
    unitedItems incoming existing = [] → merged = existing
  loses : isTagged incoming = true ∨ isTagged existing = true →
    (isTagged merged = false ↔ (Tagged.items incoming).toList = [] ∧
      (Tagged.items existing).toList = [] ∧ isTagged existing = false)

theorem unitedItems_eq_nil : unitedItems incoming existing = [] ↔
    (items incoming).toList = [] ∧ (items existing).toList = [] := by
  rw [unitedItems, List.append_eq_nil_iff]
  constructor
  · rintro ⟨hincoming, hexisting⟩
    rw [hincoming] at hexisting
    exact ⟨hincoming, by simpa using hexisting⟩
  · rintro ⟨hincoming, hexisting⟩
    exact ⟨hincoming, by rw [hexisting, List.filter_nil]⟩

theorem merge_of_nil (h : unitedItems incoming existing = []) :
    merge incoming existing = existing := by
  refine merge_of_isEmpty ?_
  rw [KeyedList.isEmpty, toList_items_union, h]
  rfl

theorem isTagged_merge_of_ne_nil (h : unitedItems incoming existing ≠ []) :
    isTagged (merge incoming existing) = true := by
  rw [merge_of_not_isEmpty, isTagged_render]
  rwa [KeyedList.isEmpty, toList_items_union, List.isEmpty_iff]

theorem joins_merge (h : isTagged incoming = true ∨ isTagged existing = true) :
    Joins incoming existing (merge incoming existing) where
  plain := by
    intro hincoming hexisting
    rw [hincoming, hexisting] at h
    exact absurd h (by decide)
  items := fun _ => by rw [items_merge, toList_items_union]
  tagged := fun _ => isTagged_merge_of_ne_nil
  bare := fun _ => merge_of_nil
  loses := by
    intro _
    by_cases hnil : unitedItems incoming existing = []
    · obtain ⟨hincoming, hexisting⟩ := unitedItems_eq_nil.mp hnil
      rw [merge_of_nil hnil]
      exact ⟨fun hplain => ⟨hincoming, hexisting, hplain⟩, fun hall => hall.2.2⟩
    · have htagged := isTagged_merge_of_ne_nil hnil
      rw [htagged]
      refine ⟨nofun, fun hall => absurd (unitedItems_eq_nil.mpr ⟨hall.1, hall.2.1⟩) hnil⟩

theorem joins_existing (hincoming : isTagged incoming = false)
    (hexisting : isTagged existing = false) : Joins incoming existing existing := by
  have hnot : ¬(isTagged incoming = true ∨ isTagged existing = true) := by
    rw [hincoming, hexisting]
    decide
  exact ⟨fun _ _ => rfl, fun h => absurd h hnot, fun h => absurd h hnot, fun h => absurd h hnot,
    fun h => absurd h hnot⟩

end ClusterMesh.Tagged

namespace ClusterMesh.ReplicatedValue

/-- Two texts under one key become one text that joins them, and a tag is never cut off in the
middle of a character or past an end. -/
theorem merge_texts (incoming existing : String) :
    (∃ merged, merge (some (text incoming)) (some (text existing)) = some (text merged) ∧
      Tagged.Joins incoming existing merged) ∧
    ∀ s, Tagged.Strips s := by
  refine ⟨?_, Tagged.strips⟩
  by_cases htagged : Tagged.isTagged incoming = true ∨ Tagged.isTagged existing = true
  · refine ⟨Tagged.merge incoming existing, ?_, Tagged.joins_merge htagged⟩
    have hboth : (Tagged.isTagged incoming || Tagged.isTagged existing) = true := by
      rwa [Bool.or_eq_true]
    rw [merge, mergeBoth, if_pos hboth]
  · rw [not_or, Bool.not_eq_true, Bool.not_eq_true] at htagged
    obtain ⟨hincoming, hexisting⟩ := htagged
    refine ⟨existing, ?_, Tagged.joins_existing hincoming hexisting⟩
    exact congrArg some (mergeBoth_plain hincoming hexisting)

end ClusterMesh.ReplicatedValue
