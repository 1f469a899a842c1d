import ClusterMesh.Proofs.Policy.Decision
import Mathlib.Data.List.Basic

/-!
# Switching an entry of a list

A call that switches an entry reads the list of a group, takes the entry out or puts it in, and
writes the list back as one text. An entry in one piece is found in that text as it was put in, so
that to switch it twice leaves the list with the entries that it had. An entry in which a comma or a
line end stands falls apart when the text is read again, and cannot be taken out any more.
-/

namespace ClusterMesh.Policy

variable {properties : Properties} {kind : ListKind} {group category key : String}
variable {direction : Direction} {entry item value : String} {before after : TextSet} {present : Bool}

/-! ### A list as it is written and read -/

/-- The items of a list property in their order, with those that are repeated. -/
def parts (value : String) : List String :=
  Text.listed (value.toList.filter fun c => c != '\n' && c != '\r')

theorem mem_listItems_iff : item ∈ (listItems value).toList ↔ item ∈ parts value :=
  KeyedList.mem_ofList

/-- No comma and no line end stands in a text. -/
structure InOnePiece (entry : String) : Prop where
  comma : ',' ∉ entry.toList
  newline : '\n' ∉ entry.toList
  carriage : '\r' ∉ entry.toList

/-- A text that is found in a list as it was put in. -/
structure Listable (item : String) : Prop extends InOnePiece item where
  nonempty : item ≠ ""
  trimmed : Text.trimChars item.toList = item.toList

theorem listable_of_mem_parts (h : item ∈ parts value) : Listable item := by
  have hkept : ∀ c ∈ item.toList, (c != '\n' && c != '\r') = true :=
    fun c hc => (List.mem_filter.mp (Text.mem_of_mem_listed h hc)).2
  refine ⟨⟨Text.comma_not_mem_of_mem_listed h, ?_, ?_⟩, ?_, Text.trimChars_of_mem_listed h⟩
  · exact fun hc => absurd (hkept '\n' hc) (by decide)
  · exact fun hc => absurd (hkept '\r' hc) (by decide)
  · exact (Text.mem_listed.mp h).1

theorem parts_of_listable (h : Listable item) : parts item = [item] := by
  have hkept : item.toList.filter (fun c => c != '\n' && c != '\r') = item.toList := by
    refine List.filter_eq_self.mpr fun c hc => ?_
    have hnewline : c ≠ '\n' := fun heq => h.newline (heq ▸ hc)
    have hcarriage : c ≠ '\r' := fun heq => h.carriage (heq ▸ hc)
    simp [hnewline, hcarriage]
  rw [parts, hkept, Text.listed_eq_singleton h.nonempty h.trimmed h.comma]

theorem parts_empty : parts "" = [] := Text.listed_nil

theorem filter_joined {keep : Char → Bool} {sep : Char} (hsep : keep sep = true)
    (ps : List (List Char)) :
    (Text.joined sep ps).filter keep = Text.joined sep (ps.map (List.filter keep)) := by
  induction ps with
  | nil => rfl
  | cons p ps ih =>
    by_cases hps : ps = []
    · simp [hps, Text.joined]
    · rw [Text.joined_cons_of_ne_nil sep p hps, List.map_cons,
        Text.joined_cons_of_ne_nil sep _ (by simpa using hps), List.filter_append,
        List.filter_cons_of_pos hsep, ih]

theorem parts_joinWith (ts : List String) : parts (Text.joinWith ',' ts) = ts.flatMap parts := by
  rw [parts, Text.joinWith, String.toList_ofList, filter_joined (by decide), Text.listed_joined,
    List.map_map, List.flatMap_map]
  rfl

theorem flatMap_parts {ts : List String} (h : ∀ item ∈ ts, Listable item) :
    ts.flatMap parts = ts :=
  Text.flatMap_eq_self fun item hitem => parts_of_listable (h item hitem)

/-- All items of a list are such as are found again. -/
def AllListable (items : TextSet) : Prop := ∀ item ∈ items.toList, Listable item

theorem allListable_itemsAt (properties : Properties) (key : String) :
    AllListable (itemsAt properties key) := by
  unfold itemsAt
  split
  · exact fun item hitem => listable_of_mem_parts (mem_listItems_iff.mp hitem)
  · exact nofun

theorem listItems_listText (h : AllListable before) : listItems (listText before) = before := by
  have hparts : parts (listText before) = before.toList :=
    (parts_joinWith before.toList).trans (flatMap_parts h)
  exact (congrArg KeyedList.ofList hparts).trans (KeyedList.ofList_toList before)

/-- An entry that is new to a list is read back as the parts into which it falls. -/
theorem listItems_listText_insert (h : AllListable before) (hnew : entry ∉ before.toList) :
    listItems (listText (before.insert entry)) = before.insertMany (parts entry) := by
  have hinsert : (before.insert entry).toList = before.toList ++ [entry] :=
    KeyedList.toList_insert_of_not_mem (by rwa [KeyedList.keys_textSet])
  have hparts : parts (listText (before.insert entry)) = before.toList ++ parts entry := by
    rw [listText, hinsert, parts_joinWith, List.flatMap_append, flatMap_parts h,
      List.flatMap_singleton]
  have hread : listItems (listText (before.insert entry)) =
      (KeyedList.ofList before.toList).insertMany (parts entry) := by
    change KeyedList.ofList (parts (listText (before.insert entry))) = _
    rw [hparts, KeyedList.ofList_append]
  rw [hread, KeyedList.ofList_toList]

/-! ### One call -/

theorem mem_erase : item ∈ (before.erase entry).toList ↔ item ∈ before.toList ∧ item ≠ entry := by
  rw [← KeyedList.keys_textSet, KeyedList.mem_keys_erase, KeyedList.keys_textSet]

theorem mem_insertMany {items : List String} :
    item ∈ (before.insertMany items).toList ↔ item ∈ before.toList ∨ item ∈ items := by
  rw [← KeyedList.keys_textSet, KeyedList.mem_keys_insertMany, KeyedList.keys_textSet, List.map_id']

/-- What a call does to the items of a list: an entry that is among them is taken out, and any other
is put in with its parts. What is told afterwards is whether anything was put in. -/
inductive Switches (before : TextSet) (entry : String) : TextSet → Bool → Prop
  | takesOut (h : entry ∈ before.toList) : Switches before entry (before.erase entry) false
  | putsIn (h : entry ∉ before.toList) :
    Switches before entry (before.insertMany (parts entry)) (!entry.isEmpty)

theorem itemsAt_set (properties : Properties) (key : String) (items : TextSet) :
    itemsAt (Table.set properties key (listText items)) key = listItems (listText items) := by
  rw [itemsAt, Table.get?_set, if_pos rfl]

/-- A call writes a list back, and nothing else: of the items that there were, and of the entry. -/
theorem exists_switchEntry_eq (properties : Properties) (kind : ListKind) (group category : String)
    (direction : Direction) (entry : String) :
    ∃ items : TextSet, (∀ item ∈ items.toList, item = Text.trim entry ∨
        item ∈ (itemsAt properties (listKey kind group category direction)).toList) ∧
      (switchEntry properties kind group category direction entry).1 =
        Table.set properties (listKey kind group category direction) (listText items) := by
  simp only [switchEntry]
  split
  · exact ⟨_, fun item hitem => Or.inr (mem_erase.mp hitem).1, rfl⟩
  · split
    · exact ⟨_, fun item hitem => Or.inr hitem, rfl⟩
    · refine ⟨_, fun item hitem => ?_, rfl⟩
      rw [← KeyedList.keys_textSet, KeyedList.mem_keys_insert, KeyedList.keys_textSet] at hitem
      exact hitem.symm

theorem get?_switchEntry_of_ne (properties : Properties) (kind : ListKind) (group category : String)
    (direction : Direction) (entry : String) {key : String}
    (h : key ≠ listKey kind group category direction) :
    Table.get? (switchEntry properties kind group category direction entry).1 key =
      Table.get? properties key := by
  obtain ⟨items, -, hset⟩ := exists_switchEntry_eq properties kind group category direction entry
  rw [hset, Table.get?_set, if_neg h]

theorem switches_switchEntry (properties : Properties) (kind : ListKind) (group category : String)
    (direction : Direction) (entry : String) :
    Switches (itemsAt properties (listKey kind group category direction)) (Text.trim entry)
      (itemsAt (switchEntry properties kind group category direction entry).1
        (listKey kind group category direction))
      (switchEntry properties kind group category direction entry).2 := by
  have hall := allListable_itemsAt properties (listKey kind group category direction)
  simp only [switchEntry]
  split
  · next hin =>
    rw [KeyedList.contains_iff, KeyedList.keys_textSet] at hin
    have herase : AllListable ((itemsAt properties (listKey kind group category direction)).erase
        (Text.trim entry)) := fun item hitem => hall item (List.mem_filter.mp hitem).1
    rw [itemsAt_set, listItems_listText herase]
    exact .takesOut hin
  · next hout =>
    rw [KeyedList.contains_iff, KeyedList.keys_textSet] at hout
    split
    · next hblank =>
      have hnothing : Text.trim entry = "" := String.isEmpty_iff.mp hblank
      have hputs := Switches.putsIn hout
      rw [hnothing, parts_empty] at hputs
      rw [itemsAt_set, listItems_listText hall, hnothing]
      exact hputs
    · next hsome =>
      have hputs := Switches.putsIn hout
      rw [Bool.not_eq_true] at hsome
      rw [hsome] at hputs
      rw [itemsAt_set, listItems_listText_insert hall hout]
      exact hputs

theorem Switches.tells_iff (h : Switches before entry after present) (hall : AllListable before)
    (htrim : Text.trimChars entry.toList = entry.toList) :
    (present = true ↔ entry ∈ after.toList) ↔ InOnePiece entry := by
  cases h with
  | takesOut hin =>
    have hgone : entry ∉ (before.erase entry).toList := fun hmem => (mem_erase.mp hmem).2 rfl
    exact iff_of_true (iff_of_false Bool.false_ne_true hgone) (hall entry hin).toInOnePiece
  | putsIn hout =>
    rw [mem_insertMany, or_iff_right hout, Bool.not_eq_true', String.isEmpty_eq_false_iff]
    by_cases hne : entry = ""
    · subst hne
      rw [parts_empty]
      exact iff_of_true (by simp) ⟨by simp, by simp, by simp⟩
    · rw [iff_true_left hne]
      exact ⟨fun hmem => (listable_of_mem_parts hmem).toInOnePiece,
        fun hpiece => by rw [parts_of_listable ⟨hpiece, hne, htrim⟩]; exact List.mem_cons_self⟩

theorem Switches.mem_iff (h : Switches before entry after present) (hlistable : Listable entry) :
    item ∈ after.toList ↔ Xor (item ∈ before.toList) (item = entry) := by
  cases h with
  | takesOut hin =>
    rw [mem_erase, xor_def]
    by_cases heq : item = entry
    · simp [heq, hin]
    · simp [heq]
  | putsIn hout =>
    rw [mem_insertMany, parts_of_listable hlistable, List.mem_singleton, xor_def]
    by_cases heq : item = entry
    · simp [heq, hout]
    · simp [heq]

/-- Two calls with one entry leave the items that there were, unless the entry falls into parts of
which one is new to the list. -/
theorem Switches.restores_iff {between : TextSet} {present' : Bool}
    (h : Switches before entry between present) (h' : Switches between entry after present')
    (hall : AllListable before) (htrim : Text.trimChars entry.toList = entry.toList) :
    (∀ item, item ∈ after.toList ↔ item ∈ before.toList) ↔
      InOnePiece entry ∨ ∀ part ∈ parts entry, part ∈ before.toList := by
  by_cases hlistable : Listable entry
  · refine iff_of_true (fun item => ?_) (Or.inl hlistable.toInOnePiece)
    rw [h'.mem_iff hlistable, h.mem_iff hlistable]
    by_cases heq : item = entry <;> simp [xor_def, heq]
  · -- neither the list nor what is put in holds the entry, so that it is put in twice
    have hself : entry ∉ parts entry := fun hmem => hlistable (listable_of_mem_parts hmem)
    cases h with
    | takesOut hin => exact absurd (hall entry hin) hlistable
    | putsIn hout =>
      cases h' with
      | takesOut hagain => exact absurd (mem_insertMany.mp hagain) (not_or.mpr ⟨hout, hself⟩)
      | putsIn _ =>
        simp only [mem_insertMany, or_assoc, or_self]
        constructor
        · exact fun hsame => Or.inr fun part hpart => (hsame part).mp (Or.inr hpart)
        · rintro (hpiece | hold) item
          · have hempty : entry = "" := by
              by_contra hne
              exact hlistable ⟨hpiece, hne, htrim⟩
            simp [hempty, parts_empty]
          · exact or_iff_left_of_imp (hold item)

/-- Whether the entry is in the list afterwards is told truly exactly of entries in one piece, and to
switch an entry twice restores the entries of the list exactly if the entry is in one piece or adds
nothing to it. -/
theorem switchEntry_tells (properties : Properties) (kind : ListKind) (group category : String)
    (direction : Direction) (entry : String) :
    let once := switchEntry properties kind group category direction entry
    let twice := switchEntry once.1 kind group category direction entry
    ((once.2 = true ↔ IsEntry once.1 kind group category direction (Text.trim entry)) ↔
      InOnePiece (Text.trim entry)) ∧
    ((∀ item, IsEntry twice.1 kind group category direction item ↔
        IsEntry properties kind group category direction item) ↔
      InOnePiece (Text.trim entry) ∨ ∀ part ∈ (listItems (Text.trim entry)).toList,
        IsEntry properties kind group category direction part) := by
  intro once twice
  have hall := allListable_itemsAt properties (listKey kind group category direction)
  have htrim := Text.trimChars_trim entry
  have honce := switches_switchEntry properties kind group category direction entry
  have htwice := switches_switchEntry once.1 kind group category direction entry
  simp only [← mem_itemsAt, mem_listItems_iff]
  exact ⟨honce.tells_iff hall htrim, honce.restores_iff htwice hall htrim⟩

/-- An entry with a comma is told to be in the list, where only its parts are, and they stay there
when it is switched again. -/
theorem switchEntry_in_parts :
    let once := switchEntry ∅ .whitelist "g" "cat" .inbound "a,b"
    let twice := switchEntry once.1 .whitelist "g" "cat" .inbound "a,b"
    once.2 = true ∧ ¬IsEntry once.1 .whitelist "g" "cat" .inbound (Text.trim "a,b") ∧
      ¬∀ item, IsEntry twice.1 .whitelist "g" "cat" .inbound item ↔
        IsEntry ∅ .whitelist "g" "cat" .inbound item := by
  intro once twice
  simp only [← mem_itemsAt]
  refine ⟨by decide +kernel, by decide +kernel, fun hsame => ?_⟩
  exact absurd ((hsame "a").mp (by decide +kernel)) (by decide +kernel)

end ClusterMesh.Policy
