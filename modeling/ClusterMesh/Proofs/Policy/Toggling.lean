import ClusterMesh.Proofs.Policy.Switching
import Mathlib.Algebra.Ring.Parity
import Mathlib.Data.List.Induction
import Mathlib.Tactic.Tauto

/-!
# Toggling entries over a run

Each call of a run reads the text that the call before it has written. What is in the list at the end
is what was in it at first, but for the entries that were toggled an odd number of times. The entries
that were never toggled stay in front, in their order, and everything that was put in follows them.
-/

namespace ClusterMesh.Policy

variable {properties : Properties} {kind : ListKind} {group category : String}
variable {direction : Direction} {entry item : String} {before between after : TextSet}
variable {present : Bool} {toggled calls : List String}

/-! ### One more toggle -/

theorem toList_insertMany_parts (hnew : entry ∉ before.toList) (hlistable : Listable entry) :
    (before.insertMany (parts entry)).toList = before.toList ++ [entry] := by
  rw [parts_of_listable hlistable]
  exact KeyedList.toList_insert_of_not_mem (by rwa [KeyedList.keys_textSet])

/-- What became of a list by a number of toggles: how often an entry was toggled decides whether it
is there, and what was never toggled comes first, in its old order. -/
structure Toggled (before : TextSet) (toggled : List String) (after : TextSet) : Prop where
  parity : ∀ {item}, item ∈ after.toList ↔ Xor (item ∈ before.toList) (Odd (toggled.count item))
  order : ∃ added, (∀ item ∈ added, item ∈ toggled) ∧
    after.toList = before.toList.filter (fun item => decide (item ∉ toggled)) ++ added

theorem toggled_nil (before : TextSet) : Toggled before [] before where
  parity := by simp [xor_def]
  order := ⟨[], nofun, by simp⟩

theorem odd_count_concat :
    Odd ((toggled ++ [entry]).count item) ↔ Xor (Odd (toggled.count item)) (item = entry) := by
  rw [List.count_append, xor_def]
  by_cases heq : item = entry
  · subst heq
    simp [Nat.odd_add_one]
  · have hne : ¬entry = item := fun h => heq h.symm
    simp [heq, hne]

theorem filter_not_mem_concat (items : List String) :
    items.filter (fun item => decide (item ∉ toggled ++ [entry])) =
      (items.filter fun item => decide (item ∉ toggled)).filter
        fun item => decide (item ≠ entry) := by
  rw [List.filter_filter]
  refine List.filter_congr fun item _ => ?_
  rw [Bool.eq_iff_iff]
  simp [and_comm]

theorem Toggled.switch (h : Toggled before toggled between)
    (hcall : Switches between entry after present) (hlistable : Listable entry) :
    Toggled before (toggled ++ [entry]) after where
  parity := by
    intro item
    rw [hcall.mem_iff hlistable, h.parity, odd_count_concat]
    simp only [xor_def]
    tauto
  order := by
    obtain ⟨added, hadded, hbetween⟩ := h.order
    rw [filter_not_mem_concat]
    cases hcall with
    | takesOut _ =>
      refine ⟨added.filter fun item => decide (item ≠ entry), ?_, ?_⟩
      · exact fun item hitem => List.mem_append_left _ (hadded item (List.mem_filter.mp hitem).1)
      · rw [← List.filter_append, ← hbetween]
        rfl
    | putsIn hout =>
      refine ⟨added ++ [entry], ?_, ?_⟩
      · intro item hitem
        exact List.mem_append.mpr ((List.mem_append.mp hitem).imp_left (hadded item))
      · -- the entry is not in front, where it would have been filtered out
        rw [List.filter_eq_self.mpr, ← List.append_assoc, ← hbetween,
          toList_insertMany_parts hout hlistable]
        intro item hitem
        refine decide_eq_true fun heq => hout ?_
        rw [hbetween, ← heq]
        exact List.mem_append_left _ hitem

/-! ### A run of calls on one list -/

def switchAll (properties : Properties) (kind : ListKind) (group category : String)
    (direction : Direction) (calls : List String) : Properties :=
  calls.foldl (fun p entry => (switchEntry p kind group category direction entry).1) properties

theorem switchAll_concat (properties : Properties) (kind : ListKind) (group category : String)
    (direction : Direction) (calls : List String) (entry : String) :
    switchAll properties kind group category direction (calls ++ [entry]) =
      (switchEntry (switchAll properties kind group category direction calls) kind group category
        direction entry).1 :=
  List.foldl_concat ..

/-- The entry of a call, trimmed, is not empty and in one piece. -/
def Orderly (entry : String) : Prop := Text.trim entry ≠ "" ∧ InOnePiece (Text.trim entry)

theorem Orderly.listable (h : Orderly entry) : Listable (Text.trim entry) :=
  ⟨h.2, h.1, Text.trimChars_trim entry⟩

theorem toggled_switchAll (h : ∀ entry ∈ calls, Orderly entry) :
    Toggled (itemsAt properties (listKey kind group category direction)) (calls.map Text.trim)
      (itemsAt (switchAll properties kind group category direction calls)
        (listKey kind group category direction)) := by
  induction calls using List.reverseRecOn with
  | nil => exact toggled_nil _
  | append_singleton calls entry ih =>
    have hcalls := ih fun e he => h e (List.mem_append_left _ he)
    have hentry : Orderly entry := h entry (List.mem_append_right _ List.mem_cons_self)
    rw [switchAll_concat, List.map_append]
    exact hcalls.switch (switches_switchEntry ..) hentry.listable

theorem get?_switchAll_of_ne {key : String} (calls : List String)
    (h : key ≠ listKey kind group category direction) :
    Table.get? (switchAll properties kind group category direction calls) key =
      Table.get? properties key := by
  induction calls using List.reverseRecOn with
  | nil => rfl
  | append_singleton calls entry ih =>
    rw [switchAll_concat, get?_switchEntry_of_ne _ _ _ _ _ _ h, ih]

/-- A text that holds nothing but its items with commas between them: each of them trimmed, in one
piece and not empty, and no one twice. -/
def Clean (value : String) : Prop :=
  ∃ items : List String, value = Text.joinWith ',' items ∧ items.Nodup ∧
    (∀ item ∈ items, Listable item) ∧ (listItems value).toList = items

theorem clean_listText (h : AllListable before) : Clean (listText before) := by
  refine ⟨before.toList, rfl, ?_, h, congrArg KeyedList.toList (listItems_listText h)⟩
  have hnodup := before.nodup
  rwa [List.map_id'] at hnodup

theorem Orderly.clean (h : Orderly entry) :
    ∃ value, Table.get? (switchEntry properties kind group category direction entry).1
      (listKey kind group category direction) = some value ∧ Clean value := by
  obtain ⟨items, hitems, hset⟩ :=
    exists_switchEntry_eq properties kind group category direction entry
  refine ⟨listText items, by rw [hset, Table.get?_set, if_pos rfl], clean_listText ?_⟩
  intro item hitem
  rcases hitems item hitem with rfl | hold
  · exact h.listable
  · exact allListable_itemsAt properties _ item hold

theorem Orderly.tells (h : Orderly entry) :
    (switchEntry properties kind group category direction entry).2 = true ↔
      IsEntry (switchEntry properties kind group category direction entry).1 kind group category
        direction (Text.trim entry) := by
  rw [← mem_itemsAt]
  have hcall := switches_switchEntry properties kind group category direction entry
  exact (hcall.tells_iff (allListable_itemsAt _ _) h.listable.trimmed).mpr h.2

/-- A run of calls whose entries are in one piece and not empty, on a list with any text or with none:
every entry that was toggled an odd number of times has changed, every call has told the truth, and
the property, cleanly written from the first call on, is the only one that was written. -/
theorem switchAll_toggles (properties : Properties) (kind : ListKind) (group category : String)
    (direction : Direction) (calls : List String) (h : ∀ entry ∈ calls, Orderly entry) :
    let key := listKey kind group category direction
    let after := switchAll properties kind group category direction
    Toggled (itemsAt properties key) (calls.map Text.trim) (itemsAt (after calls) key) ∧
      (∀ earlier entry later, calls = earlier ++ entry :: later →
        ((switchEntry (after earlier) kind group category direction entry).2 = true ↔
          IsEntry (after (earlier ++ [entry])) kind group category direction (Text.trim entry))) ∧
      (calls ≠ [] → ∃ value, Table.get? (after calls) key = some value ∧ Clean value) ∧
      ∀ other, other ≠ key → Table.get? (after calls) other = Table.get? properties other := by
  intro key after
  refine ⟨toggled_switchAll h, ?_, ?_, fun other => get?_switchAll_of_ne calls⟩
  · rintro earlier entry later rfl
    have hentry : Orderly entry := h entry (List.mem_append_right _ List.mem_cons_self)
    simp only [after, switchAll_concat]
    exact hentry.tells
  · intro hne
    obtain ⟨earlier, entry, rfl⟩ := (List.eq_nil_or_concat' calls).resolve_left hne
    have hentry : Orderly entry := h entry (List.mem_append_right _ List.mem_cons_self)
    simp only [after, switchAll_concat]
    exact hentry.clean

/-- A list with blanks, a line end and a repeated item, of which one item is toggled twice. -/
def untidyList : Properties :=
  Table.ofPairs [("a.parent", "b"), ("g.cat.whitelist.inbound", " b,,a ,c\n, b")]

theorem switchAll_toggles_sample :
    let calls := [" a", "d", "b ", "a"]
    let after := switchAll untidyList .whitelist "g" "cat" .inbound
    (∀ entry ∈ calls, Orderly entry) ∧
      Toggled (itemsAt untidyList "g.cat.whitelist.inbound") ["a", "d", "b", "a"]
        (itemsAt (after calls) "g.cat.whitelist.inbound") ∧
      Table.get? (after calls) "g.cat.whitelist.inbound" = some "c,d,a" := by
  intro calls after
  have horderly : ∀ entry ∈ calls, Orderly entry := by
    have hall : ∀ entry ∈ calls, Text.trim entry ≠ "" ∧ ',' ∉ (Text.trim entry).toList ∧
        '\n' ∉ (Text.trim entry).toList ∧ '\r' ∉ (Text.trim entry).toList := by decide +kernel
    intro entry hentry
    obtain ⟨hne, hcomma, hnewline, hcarriage⟩ := hall entry hentry
    exact ⟨hne, hcomma, hnewline, hcarriage⟩
  exact ⟨horderly, (switchAll_toggles untidyList .whitelist "g" "cat" .inbound calls horderly).1,
    by decide +kernel⟩

end ClusterMesh.Policy
