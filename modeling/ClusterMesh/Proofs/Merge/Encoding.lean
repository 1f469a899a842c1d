import ClusterMesh.Proofs.Merge.Texts
import Mathlib.Data.List.Perm.Subperm

/-!
# Sets written as texts

A set is written as its members with commas between them, in the brackets of the tag or without
them. What is read back are the parts of the members in their order, each of them once: a member is
cut at its commas, its pieces are trimmed, and those of which nothing is left do not count. So a set
comes back if and only if each of its members is an item. Without brackets this holds unless the
members make up a tag among themselves; then one of them is lost. The tagged text that is written
from the items of a text is the normal form of that text.
-/

namespace ClusterMesh.Tagged

variable {set : TextSet} {item : String}

/-! ### What is read where a set was written -/

theorem isItem_iff : IsItem item ↔ item ≠ "" ∧ Text.Trimmed item.toList ∧ ',' ∉ item.toList := by
  constructor
  · intro h
    exact ⟨h.nonempty, h.trimmed ▸ Text.trimmed_trimChars item.toList, h.separator⟩
  · rintro ⟨hnonempty, htrimmed, hseparator⟩
    exact ⟨hseparator, Text.trimChars_of_trimmed htrimmed, hnonempty⟩

/-- What is read has the parts of the members that were written, in their order, and of those that
are the same the first one. It is the set itself if and only if each member is not empty, has no
blank at either end and holds no comma. Where it has the members of the set at all, it has them in
their order. -/
structure ReadAs (set read : TextSet) : Prop where
  parts : read.toList = (set.toList.flatMap partsOf).eraseDups
  whole : read = set ↔
    ∀ item ∈ set.toList, item ≠ "" ∧ Text.Trimmed item.toList ∧ ',' ∉ item.toList
  ordered : read.sameKeys set = true ↔ read = set

theorem isItem_of_sameKeys
    (h : (KeyedList.ofList (set.toList.flatMap partsOf) : TextSet).sameKeys set = true) :
    ∀ item ∈ set.toList, IsItem item := by
  intro item hitem
  rw [← KeyedList.keys_textSet, ← KeyedList.sameKeys_iff.mp h, KeyedList.keys_textSet,
    KeyedList.mem_ofList] at hitem
  obtain ⟨member, -, hpart⟩ := List.mem_flatMap.mp hitem
  exact isItem_of_mem_partsOf hpart

theorem readAs_ofList (set : TextSet) :
    ReadAs set (KeyedList.ofList (set.toList.flatMap partsOf)) := by
  have hsame : ∀ read : TextSet, read = set → read.sameKeys set = true := by
    rintro read rfl
    exact KeyedList.sameKeys_iff.mpr fun _ => Iff.rfl
  refine ⟨KeyedList.toList_ofList_eq_eraseDups _, ?_, ?_⟩
  · simp only [← isItem_iff]
    exact ⟨fun h => isItem_of_sameKeys (hsame _ h), ofList_flatMap_partsOf⟩
  · exact ⟨fun h => ofList_flatMap_partsOf (isItem_of_sameKeys h), hsame _⟩

theorem items_plain_eq_ofList (h : isTagged (plain set) = false) :
    items (plain set) = KeyedList.ofList (set.toList.flatMap partsOf) := by
  rw [items_eq_ofList, (strips (plain set)).whole h, listed_plain]

/-- Where the members make up a tag among themselves, one of them is lost: what is read back cannot
have the room that the brackets take. -/
theorem exists_lost (h : isTagged (plain set) = true) :
    ∃ item ∈ set.toList, item ∉ (items (plain set)).toList := by
  obtain ⟨body, hbody⟩ := Option.isSome_iff_exists.mp h
  have hplain : (plain set).toList = opening ++ body ++ [closing] := body?_eq_some_iff.mp hbody
  have hnonempty : set.toList.map String.toList ≠ [] := by
    intro hnil
    rw [toList_plain, hnil] at hplain
    exact absurd hplain (by simp [Text.joined])
  have hroom : body.length + 1 < Text.extent (set.toList.map String.toList) := by
    rw [Text.extent_joined ',' hnonempty, ← toList_plain, hplain, List.length_append,
      List.length_append]
    have hclosing : [closing].length = 1 := rfl
    omega
  by_contra hall
  push Not at hall
  -- otherwise all members, which are distinct, stand between the brackets with room to spare
  have hread : set.toList ⊆ Text.listed body := by
    intro item hitem
    have hmem := hall item hitem
    rwa [items_eq_ofList, hbody, Option.getD_some, KeyedList.mem_ofList] at hmem
  have hsub := (List.subperm_of_subset set.toList_nodup hread).map fun _ _ => String.toList_inj.mp
  have hfits := Nat.le_trans (Text.extent_subperm hsub) (Text.extent_listed_le body)
  exact absurd hfits (Nat.not_le_of_lt hroom)

/-- A set is written in brackets, or bare, and read back. Brackets that the members themselves make
up are taken for those of a tag. -/
structure Encodes (set : TextSet) : Prop where
  bracketed : ReadAs set (items (render set))
  bare : isTagged (plain set) = false → ReadAs set (items (plain set))
  confused : isTagged (plain set) = true → ∃ item ∈ set.toList, item ∉ (items (plain set)).toList

theorem encodes_set (set : TextSet) : Encodes set where
  bracketed := by
    rw [items_render_eq_ofList]
    exact readAs_ofList set
  bare := by
    intro h
    rw [items_plain_eq_ofList h]
    exact readAs_ofList set
  confused := exists_lost

/-- A list that is made a tagged text is read like a set: a member that comes again gives no new
part. -/
theorem toList_items_render_ofList (members : List String) :
    (items (render (KeyedList.ofList members))).toList = (members.flatMap partsOf).eraseDups := by
  rw [items_render_eq_ofList, KeyedList.ofList_flatMap_ofList,
    KeyedList.toList_ofList_eq_eraseDups]

/-! ### The normal form of a text -/

/-- The text that is written in brackets from the items of a text has the same items and is written
anew as it is. Another text gives the same one if and only if it has the same items in the same
order. -/
structure HasNormalForm (s : String) : Prop where
  tagged : isTagged (render (items s)) = true
  again : items (render (items s)) = items s
  settled : render (items (render (items s))) = render (items s)
  decides : ∀ t, render (items t) = render (items s) ↔ items t = items s

theorem hasNormalForm (s : String) : HasNormalForm s where
  tagged := isTagged_render (items s)
  again := items_render_items s
  settled := by rw [items_render_items]
  decides := by
    intro t
    constructor
    · intro h
      rw [← items_render_items t, h, items_render_items]
    · intro h
      rw [h]

/-- Every set and every list is read back as the parts of its members, and every text has a normal
form. -/
theorem encodes : (∀ set, Encodes set) ∧
    (∀ members, ∃ text, ReplicatedValue.mergable members = .text text ∧
      (items text).toList = (members.flatMap partsOf).eraseDups) ∧
    ∀ s, HasNormalForm s :=
  ⟨encodes_set, fun members => ⟨_, rfl, toList_items_render_ofList members⟩, hasNormalForm⟩

example :
    (items (render (KeyedList.ofList ["b,\u3000a", "", "c", " a "]))).toList = ["b", "a", "c"] := by
  decide

example : (items (plain (KeyedList.ofList ["MERGABLE[a", "b]"]))).toList = ["a", "b"] := by
  decide

end ClusterMesh.Tagged
