import ClusterMesh.Merge.Replicated
import ClusterMesh.Proofs.Text.Listed

/-!
# Tagged texts

A tagged text is read back as the items that it was written with, so that texts are united as
the sets of their items are.
-/

namespace ClusterMesh.Tagged

theorem body?_eq_some_iff {cs body : List Char} :
    body? cs = some body ↔ cs = opening ++ body ++ [closing] := by
  constructor
  · intro h
    unfold body? at h
    split at h
    · next hcond =>
      simp only [Bool.and_eq_true, decide_eq_true_eq, beq_iff_eq] at hcond
      obtain ⟨⟨hopen, hlong⟩, hlast⟩ := hcond
      obtain ⟨rest, rfl⟩ := List.isPrefixOf_iff_prefix.mp hopen
      have hrest : rest ≠ [] := by
        rintro rfl
        simp at hlong
      rw [List.getLast?_append_of_ne_nil _ hrest] at hlast
      rw [List.drop_left] at h
      obtain rfl := Option.some.inj h
      rw [List.append_assoc, ← List.dropLast_append_getLast? closing hlast]
      simp
    · cases h
  · rintro rfl
    simp [body?, List.append_assoc]

theorem toList_render (items : TextSet) :
    (render items).toList = opening ++ (plain items).toList ++ [closing] := by
  have hclosing : "]".toList = [closing] := rfl
  unfold render opening
  rw [String.toList_append, String.toList_append, hclosing]

theorem body?_render (items : TextSet) : body? (render items).toList = some (plain items).toList :=
  body?_eq_some_iff.mpr (toList_render items)

theorem isTagged_render (items : TextSet) : isTagged (render items) = true := by
  rw [isTagged, body?_render]
  rfl

theorem toList_plain (items : TextSet) :
    (plain items).toList = Text.joined ',' (items.toList.map String.toList) := by
  rw [plain, Text.joinWith, String.toList_ofList]

theorem items_eq_ofList (s : String) :
    items s = KeyedList.ofList (Text.listed ((body? s.toList).getD s.toList)) := rfl

theorem mem_items {s item : String} :
    item ∈ (items s).keys ↔ item ∈ Text.listed ((body? s.toList).getD s.toList) := by
  rw [items_eq_ofList, KeyedList.keys_textSet, KeyedList.mem_ofList]

/-- A text that stays as it is when it is written among others and read back. -/
structure IsItem (item : String) : Prop where
  separator : ',' ∉ item.toList
  trimmed : Text.trimChars item.toList = item.toList
  nonempty : item ≠ ""

theorem isItem_of_mem_listed {cs : List Char} {item : String} (h : item ∈ Text.listed cs) :
    IsItem item where
  separator := Text.comma_not_mem_of_mem_listed h
  trimmed := Text.trimChars_of_mem_listed h
  nonempty := (Text.mem_listed.mp h).1

theorem isItem_of_mem_items {s item : String} (h : item ∈ (items s).keys) : IsItem item :=
  isItem_of_mem_listed (mem_items.mp h)

/-! ### The parts of a text -/

/-- What stands between the commas of a text, trimmed. A piece of which nothing is left is no
part. -/
def partsOf (text : String) : List String :=
  ((text.toList.splitOn ',').map fun piece => Text.trim (String.ofList piece)).filter (· ≠ "")

theorem partsOf_eq_listed (text : String) : partsOf text = Text.listed text.toList := by
  have hkept : ∀ part : String, decide (part ≠ "") = !part.isEmpty := by
    intro part
    rw [Bool.eq_iff_iff]
    simp
  rw [partsOf, Text.listed, Text.pieces_eq_splitOn]
  simp only [Text.trim, String.toList_ofList, hkept]

theorem isItem_of_mem_partsOf {text item : String} (h : item ∈ partsOf text) : IsItem item := by
  rw [partsOf_eq_listed] at h
  exact isItem_of_mem_listed h

theorem partsOf_of_isItem {item : String} (h : IsItem item) : partsOf item = [item] := by
  rw [partsOf_eq_listed, Text.listed_eq_singleton h.nonempty h.trimmed h.separator]

theorem listed_plain (set : TextSet) :
    Text.listed (plain set).toList = set.toList.flatMap partsOf := by
  rw [toList_plain, Text.listed_joined, List.flatMap_map]
  exact List.flatMap_congr fun item _ => (partsOf_eq_listed item).symm

theorem items_render_eq_ofList (set : TextSet) :
    items (render set) = KeyedList.ofList (set.toList.flatMap partsOf) := by
  rw [items_eq_ofList, body?_render, Option.getD_some, listed_plain]

theorem ofList_flatMap_partsOf {set : TextSet} (h : ∀ item ∈ set.toList, IsItem item) :
    KeyedList.ofList (set.toList.flatMap partsOf) = set := by
  rw [Text.flatMap_eq_self fun item hitem => partsOf_of_isItem (h item hitem),
    KeyedList.ofList_toList]

theorem items_render {set : TextSet} (h : ∀ item ∈ set.keys, IsItem item) :
    items (render set) = set := by
  rw [KeyedList.keys_textSet] at h
  rw [items_render_eq_ofList, ofList_flatMap_partsOf h]

theorem items_render_items (s : String) : items (render (items s)) = items s :=
  items_render fun _ => isItem_of_mem_items

/-! ### Tagged texts that are merged -/

theorem merge_of_isEmpty {incoming existing : String}
    (h : ((items incoming).union (items existing)).isEmpty = true) :
    merge incoming existing = existing := by
  rw [merge]
  exact if_pos h

theorem merge_of_not_isEmpty {incoming existing : String}
    (h : ¬((items incoming).union (items existing)).isEmpty = true) :
    merge incoming existing = render ((items incoming).union (items existing)) := by
  rw [merge]
  exact if_neg h

/-- Texts are united as the sets of their items are, also where neither has an item. -/
theorem items_merge (incoming existing : String) :
    items (merge incoming existing) = (items incoming).union (items existing) := by
  by_cases hempty : ((items incoming).union (items existing)).isEmpty = true
  · have hnone := KeyedList.isEmpty_iff.mp hempty
    have hitems : (items existing).isEmpty = true :=
      KeyedList.isEmpty_iff.mpr fun item h => hnone item (KeyedList.mem_keys_union.mpr (Or.inr h))
    rw [merge_of_isEmpty hempty, KeyedList.eq_empty_of_isEmpty hempty,
      KeyedList.eq_empty_of_isEmpty hitems]
  · rw [merge_of_not_isEmpty hempty]
    refine items_render fun i hi => ?_
    rcases KeyedList.mem_keys_union.mp hi with hin | hex
    · exact isItem_of_mem_items hin
    · exact isItem_of_mem_items hex

theorem mem_items_merge {incoming existing item : String} :
    item ∈ (items (merge incoming existing)).keys ↔
      item ∈ (items incoming).keys ∨ item ∈ (items existing).keys := by
  rw [items_merge, KeyedList.mem_keys_union]

/-- To merge three texts it does not matter where one begins. Where none of them has an item the
last one stays, as it is written. -/
theorem merge_assoc (a b c : String) : merge a (merge b c) = merge (merge a b) c := by
  have hunited : (items a).union (items (merge b c)) = (items (merge a b)).union (items c) := by
    rw [items_merge, items_merge, KeyedList.union_assoc]
  by_cases hempty : ((items a).union (items (merge b c))).isEmpty = true
  · have hinner : ((items b).union (items c)).isEmpty = true := by
      rw [← items_merge]
      refine KeyedList.isEmpty_iff.mpr fun item h => ?_
      exact KeyedList.isEmpty_iff.mp hempty item (KeyedList.mem_keys_union.mpr (Or.inr h))
    rw [merge_of_isEmpty hempty, merge_of_isEmpty hinner]
    rw [hunited] at hempty
    exact (merge_of_isEmpty hempty).symm
  · rw [merge_of_not_isEmpty hempty, hunited]
    rw [hunited] at hempty
    exact (merge_of_not_isEmpty hempty).symm

theorem merge_congr_items {incoming incoming' : String} (h : items incoming' = items incoming)
    (existing : String) : merge incoming' existing = merge incoming existing := by
  rw [merge, merge, h]

theorem merge_merge (incoming existing : String) :
    merge incoming (merge incoming existing) = merge incoming existing := by
  rw [merge_assoc, merge_congr_items]
  rw [items_merge, KeyedList.union_self]

/-- A text that is merged with itself is written anew, unless it has no item. -/
theorem merge_self_cases (s : String) : merge s s = s ∨
    merge s s = render (items s) ∧ items (render (items s)) = items s := by
  by_cases hempty : ((items s).union (items s)).isEmpty = true
  · exact Or.inl (merge_of_isEmpty hempty)
  · have hself : merge s s = render (items s) := by
      rw [merge_of_not_isEmpty hempty, KeyedList.union_self]
    exact Or.inr ⟨hself, items_render_items s⟩

theorem isTagged_merge {incoming existing : String} (h : isTagged existing = true) :
    isTagged (merge incoming existing) = true := by
  simp only [merge]
  split
  · exact h
  · exact isTagged_render _

end ClusterMesh.Tagged
