/-!
# Lists with distinct keys

A `KeyedList key` is a list whose members have pairwise distinct keys, in the order in which
the keys first came. Sets and maps that remember their insertion order are both of this
shape: a set of members that count as equal when their keys agree, and a map whose members
are pairs keyed by their first part.
-/

namespace ClusterMesh

/-- A list in insertion order whose members have pairwise distinct keys. -/
structure KeyedList {α κ : Type} (key : α → κ) where
  toList : List α
  nodup : (toList.map key).Nodup

/-- A map from `κ` to `β` that keeps its keys in insertion order. -/
abbrev Table (κ β : Type) := KeyedList (Prod.fst : κ × β → κ)

abbrev TextSet := KeyedList (fun s : String => s)

namespace KeyedList

variable {α κ : Type} {key : α → κ}

theorem ext {s t : KeyedList key} (h : s.toList = t.toList) : s = t := by
  cases s
  cases t
  cases h
  rfl

def keys (s : KeyedList key) : List κ := s.toList.map key

theorem keys_nodup (s : KeyedList key) : s.keys.Nodup := s.nodup

theorem toList_nodup (s : KeyedList key) : s.toList.Nodup :=
  List.Pairwise.of_map key (fun _ _ hne he => hne (congrArg key he)) s.nodup

def empty : KeyedList key := ⟨[], by simp⟩

instance : EmptyCollection (KeyedList key) := ⟨empty⟩
instance : Inhabited (KeyedList key) := ⟨empty⟩

@[simp] theorem toList_empty : (∅ : KeyedList key).toList = [] := rfl

@[simp] theorem keys_empty : (∅ : KeyedList key).keys = [] := rfl

def size (s : KeyedList key) : Nat := s.toList.length

def isEmpty (s : KeyedList key) : Bool := s.toList.isEmpty

theorem keys_textSet (s : TextSet) : s.keys = s.toList := List.map_id' _

theorem length_keys (s : KeyedList key) : s.keys.length = s.size := by
  simp [keys, size]

theorem isEmpty_iff {s : KeyedList key} : s.isEmpty = true ↔ ∀ k, k ∉ s.keys := by
  rw [isEmpty, List.isEmpty_iff, ← List.eq_nil_iff_forall_not_mem, keys, List.map_eq_nil_iff]

theorem eq_empty_of_isEmpty {s : KeyedList key} (h : s.isEmpty = true) : s = ∅ :=
  ext (List.isEmpty_iff.mp h)

def filter (s : KeyedList key) (p : α → Bool) : KeyedList key where
  toList := s.toList.filter p
  nodup := s.nodup.sublist ((List.filter_sublist (p := p)).map key)

@[simp] theorem toList_filter (s : KeyedList key) (p : α → Bool) :
    (s.filter p).toList = s.toList.filter p := rfl

variable [DecidableEq κ]

def contains (s : KeyedList key) (k : κ) : Bool := decide (k ∈ s.keys)

@[simp] theorem contains_iff {s : KeyedList key} {k : κ} :
    s.contains k = true ↔ k ∈ s.keys := by
  simp [contains]

def find? (s : KeyedList key) (k : κ) : Option α := s.toList.find? (fun a => decide (key a = k))

theorem key_of_find? {s : KeyedList key} {k : κ} {a : α} (h : s.find? k = some a) :
    key a = k := by
  simpa using List.find?_some h

theorem mem_of_find? {s : KeyedList key} {k : κ} {a : α} (h : s.find? k = some a) :
    a ∈ s.toList := List.mem_of_find?_eq_some h

theorem find?_eq_none {s : KeyedList key} {k : κ} : s.find? k = none ↔ k ∉ s.keys := by
  simp [find?, keys]

theorem find?_of_mem {s : KeyedList key} {a : α} (h : a ∈ s.toList) : s.find? (key a) = some a := by
  obtain ⟨as, hnodup⟩ := s
  change as.find? (fun b => decide (key b = key a)) = some a
  change a ∈ as at h
  induction as with
  | nil => cases h
  | cons b as ih =>
    rw [List.map_cons, List.nodup_cons] at hnodup
    rcases List.mem_cons.mp h with rfl | hrest
    · simp
    · have hne : ¬key b = key a := fun he => hnodup.1 (he ▸ List.mem_map_of_mem hrest)
      rw [List.find?_cons_of_neg (by simpa using hne)]
      exact ih hnodup.2 hrest

/-- Add a member; one that already has its key stays instead. -/
def insert (s : KeyedList key) (a : α) : KeyedList key :=
  if h : key a ∈ s.keys then s
  else
    { toList := s.toList ++ [a]
      nodup := by
        rw [List.map_append, List.nodup_append]
        refine ⟨s.nodup, by simp, ?_⟩
        intro x hx y hy
        simp only [List.map_cons, List.map_nil, List.mem_singleton] at hy
        subst hy
        intro hxy
        exact h (hxy ▸ hx) }

theorem insert_of_mem {s : KeyedList key} {a : α} (h : key a ∈ s.keys) : s.insert a = s := by
  simp [insert, h]

theorem toList_insert_of_not_mem {s : KeyedList key} {a : α} (h : key a ∉ s.keys) :
    (s.insert a).toList = s.toList ++ [a] := by
  simp [insert, h]

@[simp] theorem mem_keys_insert {s : KeyedList key} {a : α} {k : κ} :
    k ∈ (s.insert a).keys ↔ k ∈ s.keys ∨ k = key a := by
  by_cases h : key a ∈ s.keys
  · rw [insert_of_mem h]
    constructor
    · exact Or.inl
    · intro hcase
      rcases hcase with hk | rfl
      · exact hk
      · exact h
  · simp [keys, toList_insert_of_not_mem h]

/-- Write a member in the place of the one that has its key, if there is one. -/
def replace (s : KeyedList key) (a : α) : KeyedList key where
  toList := s.toList.map (fun b => if key b = key a then a else b)
  nodup := by
    have hmap : (s.toList.map (fun b => if key b = key a then a else b)).map key
        = s.toList.map key := by
      rw [List.map_map]
      apply List.map_congr_left
      intro b _
      by_cases hb : key b = key a <;> simp [hb]
    rw [hmap]
    exact s.nodup

@[simp] theorem keys_replace {s : KeyedList key} {a : α} : (s.replace a).keys = s.keys := by
  simp only [keys, replace, List.map_map]
  apply List.map_congr_left
  intro b _
  by_cases hb : key b = key a <;> simp [hb]

/-- Add a member in the place of the one that has its key, or at the end. -/
def put (s : KeyedList key) (a : α) : KeyedList key :=
  if key a ∈ s.keys then s.replace a else s.insert a

theorem keys_put_of_mem {s : KeyedList key} {a : α} (h : key a ∈ s.keys) :
    (s.put a).keys = s.keys := by
  simp [put, h]

theorem put_of_not_mem {s : KeyedList key} {a : α} (h : key a ∉ s.keys) :
    s.put a = s.insert a := by
  simp [put, h]

@[simp] theorem mem_keys_put {s : KeyedList key} {a : α} {k : κ} :
    k ∈ (s.put a).keys ↔ k ∈ s.keys ∨ k = key a := by
  by_cases h : key a ∈ s.keys
  · rw [keys_put_of_mem h]
    constructor
    · exact Or.inl
    · intro hcase
      rcases hcase with hk | rfl
      · exact hk
      · exact h
  · rw [put_of_not_mem h, mem_keys_insert]

theorem mem_of_mem_put {s : KeyedList key} {a b : α} (h : b ∈ (s.put a).toList) :
    b ∈ s.toList ∨ b = a := by
  unfold put at h
  split at h
  · obtain ⟨c, hc, rfl⟩ := List.mem_map.mp h
    split
    · exact Or.inr rfl
    · exact Or.inl hc
  · next hnew =>
    rw [toList_insert_of_not_mem hnew] at h
    simpa using h

def erase (s : KeyedList key) (k : κ) : KeyedList key :=
  s.filter (fun a => decide (key a ≠ k))

@[simp] theorem mem_keys_erase {s : KeyedList key} {k j : κ} :
    j ∈ (s.erase k).keys ↔ j ∈ s.keys ∧ j ≠ k := by
  simp only [keys, erase, toList_filter, List.mem_map, List.mem_filter, decide_eq_true_eq]
  constructor
  · intro hall
    obtain ⟨a, ⟨ha, hne⟩, rfl⟩ := hall
    exact ⟨⟨a, ha, rfl⟩, hne⟩
  · intro hall
    obtain ⟨⟨a, ha, rfl⟩, hne⟩ := hall
    exact ⟨a, ⟨ha, hne⟩, rfl⟩

theorem erase_of_not_mem {s : KeyedList key} {k : κ} (h : k ∉ s.keys) : s.erase k = s := by
  refine ext (List.filter_eq_self.mpr ?_)
  intro a ha
  have hne : key a ≠ k := fun hk => h (List.mem_map.mpr ⟨a, ha, hk⟩)
  exact decide_eq_true hne

theorem erase_put (s : KeyedList key) (a : α) : (s.put a).erase (key a) = s.erase (key a) := by
  apply ext
  by_cases h : key a ∈ s.keys
  · have hkeep : ∀ b ∈ s.toList.filter (fun b => decide (key b ≠ key a)),
        (if key b = key a then a else b) = b := by
      intro b hb
      exact if_neg (of_decide_eq_true (List.mem_filter.mp hb).2)
    have hpred : ((fun b => decide (key b ≠ key a)) ∘ fun b => if key b = key a then a else b) =
        fun b => decide (key b ≠ key a) := by
      funext b
      by_cases hb : key b = key a <;> simp [hb]
    simp only [put, if_pos h, erase, toList_filter, replace, List.filter_map, hpred]
    exact (List.map_congr_left hkeep).trans (List.map_id' _)
  · simp [put_of_not_mem h, erase, toList_insert_of_not_mem h]

theorem find?_insert_of_not_mem {s : KeyedList key} {a : α} (h : key a ∉ s.keys) (k : κ) :
    (s.insert a).find? k = if k = key a then some a else s.find? k := by
  rw [find?, toList_insert_of_not_mem h, List.find?_append]
  by_cases hk : k = key a
  · subst hk
    have hnone : s.toList.find? (fun b => decide (key b = key a)) = none := find?_eq_none.2 h
    simp [hnone]
  · simp [find?, hk, Ne.symm hk]

theorem find?_replace {s : KeyedList key} {a : α} (h : key a ∈ s.keys) (k : κ) :
    (s.replace a).find? k = if k = key a then some a else s.find? k := by
  have hkey : ((fun b => decide (key b = k)) ∘ fun b => if key b = key a then a else b)
      = fun b => decide (key b = k) := by
    funext b
    by_cases hb : key b = key a <;> simp [hb]
  rw [find?, replace, List.find?_map, hkey]
  change (s.find? k).map _ = _
  by_cases hk : k = key a
  · subst hk
    cases hfind : s.find? (key a) with
    | none => exact absurd h (find?_eq_none.1 hfind)
    | some b => simp [key_of_find? hfind]
  · rw [if_neg hk]
    cases hfind : s.find? k with
    | none => rfl
    | some b => simp [key_of_find? hfind, hk]

theorem find?_put (s : KeyedList key) (a : α) (k : κ) :
    (s.put a).find? k = if k = key a then some a else s.find? k := by
  by_cases h : key a ∈ s.keys
  · rw [put, if_pos h, find?_replace h]
  · rw [put_of_not_mem h, find?_insert_of_not_mem h]

theorem find?_erase (s : KeyedList key) (k j : κ) :
    (s.erase k).find? j = if j = k then none else s.find? j := by
  simp only [find?, erase, toList_filter, List.find?_filter]
  by_cases hj : j = k
  · subst hj
    simp
  · rw [if_neg hj]
    congr 1
    funext a
    by_cases ha : key a = j
    · simp [ha, hj]
    · simp [ha]

def insertMany (s : KeyedList key) (as : List α) : KeyedList key := as.foldl insert s

def ofList (as : List α) : KeyedList key := insertMany ∅ as

@[simp] theorem mem_keys_insertMany {s : KeyedList key} {as : List α} {k : κ} :
    k ∈ (s.insertMany as).keys ↔ k ∈ s.keys ∨ k ∈ as.map key := by
  induction as generalizing s with
  | nil => simp [insertMany]
  | cons a as ih =>
    have h := ih (s := s.insert a)
    simp only [insertMany, List.foldl_cons] at h ⊢
    rw [h, mem_keys_insert, List.map_cons, List.mem_cons, or_assoc]

@[simp] theorem mem_keys_ofList {as : List α} {k : κ} :
    k ∈ (ofList as : KeyedList key).keys ↔ k ∈ as.map key := by
  simp [ofList]

theorem mem_ofList {as : List String} {a : String} :
    a ∈ (ofList as : TextSet).toList ↔ a ∈ as := by
  rw [← keys_textSet, mem_keys_ofList, List.map_id']

theorem insertMany_append (s : KeyedList key) (as bs : List α) :
    s.insertMany (as ++ bs) = (s.insertMany as).insertMany bs := List.foldl_append

theorem ofList_append (as bs : List α) :
    (ofList (as ++ bs) : KeyedList key) = (ofList as).insertMany bs := insertMany_append ∅ as bs

theorem insertMany_of_mem {s : KeyedList key} {as : List α} (h : ∀ a ∈ as, key a ∈ s.keys) :
    s.insertMany as = s := by
  induction as with
  | nil => rfl
  | cons a as ih =>
    rw [List.forall_mem_cons] at h
    rw [insertMany, List.foldl_cons, insert_of_mem h.1]
    exact ih h.2

theorem prefix_insertMany (s : KeyedList key) (as : List α) :
    s.toList <+: (s.insertMany as).toList := by
  induction as generalizing s with
  | nil => exact List.prefix_refl _
  | cons a as ih =>
    refine List.IsPrefix.trans ?_ (ih (s.insert a))
    by_cases h : key a ∈ s.keys
    · exact ⟨[], by rw [insert_of_mem h, List.append_nil]⟩
    · exact ⟨[a], (toList_insert_of_not_mem h).symm⟩

/-- The members of the first list, then those of the second whose keys are new. -/
def union (s t : KeyedList key) : KeyedList key := s.insertMany t.toList

@[simp] theorem mem_keys_union {s t : KeyedList key} {k : κ} :
    k ∈ (s.union t).keys ↔ k ∈ s.keys ∨ k ∈ t.keys := mem_keys_insertMany

theorem toList_insertMany_of_nodup {s : KeyedList key} {as : List α} (hnodup : (as.map key).Nodup) :
    (s.insertMany as).toList = s.toList ++ as.filter (fun a => decide (key a ∉ s.keys)) := by
  induction as generalizing s with
  | nil => simp [insertMany]
  | cons a as ih =>
    rw [List.map_cons, List.nodup_cons] at hnodup
    have hrec := ih (s := s.insert a) hnodup.2
    simp only [insertMany, List.foldl_cons] at hrec ⊢
    rw [hrec]
    by_cases ha : key a ∈ s.keys
    · rw [insert_of_mem ha, List.filter_cons_of_neg (by simpa using ha)]
    · have hrest : as.filter (fun b => decide (key b ∉ (s.insert a).keys)) =
          as.filter (fun b => decide (key b ∉ s.keys)) := by
        apply List.filter_congr
        intro b hb
        have hne : key b ≠ key a := fun he => hnodup.1 (he ▸ List.mem_map_of_mem hb)
        simp [hne]
      rw [toList_insert_of_not_mem ha, hrest, List.filter_cons_of_pos (by simpa using ha),
        List.append_assoc, List.singleton_append]

theorem toList_union (s t : KeyedList key) :
    (s.union t).toList = s.toList ++ t.toList.filter (fun a => decide (key a ∉ s.keys)) :=
  toList_insertMany_of_nodup t.nodup

theorem toList_insertMany_of_new {s : KeyedList key} {as : List α} (hnodup : (as.map key).Nodup)
    (hnew : ∀ a ∈ as, key a ∉ s.keys) : (s.insertMany as).toList = s.toList ++ as := by
  have hall : as.filter (fun a => decide (key a ∉ s.keys)) = as := by
    rw [List.filter_eq_self]
    intro a ha
    simpa using hnew a ha
  rw [toList_insertMany_of_nodup hnodup, hall]

theorem toList_ofList_of_nodup {as : List α} (h : (as.map key).Nodup) :
    (ofList as : KeyedList key).toList = as := by
  rw [ofList, toList_insertMany_of_new h (by simp)]
  rfl

@[simp] theorem ofList_toList (s : KeyedList key) : ofList s.toList = s :=
  ext (toList_ofList_of_nodup s.nodup)

theorem foldl_put_of_new {s : KeyedList key} {as : List α} (hnodup : (as.map key).Nodup)
    (hnew : ∀ a ∈ as, key a ∉ s.keys) : as.foldl put s = s.insertMany as := by
  induction as generalizing s with
  | nil => rfl
  | cons a as ih =>
    rw [List.map_cons, List.nodup_cons] at hnodup
    have hrest : ∀ b ∈ as, key b ∉ (s.insert a).keys := by
      intro b hb hmem
      rcases mem_keys_insert.mp hmem with hold | hsame
      · exact hnew b (List.mem_cons_of_mem a hb) hold
      · exact hnodup.1 (List.mem_map.mpr ⟨b, hb, hsame⟩)
    rw [List.foldl_cons, put_of_not_mem (hnew a List.mem_cons_self), ih hnodup.2 hrest]
    rfl

theorem union_insert (s t : KeyedList key) (a : α) : s.union (t.insert a) = (s.union t).insert a := by
  by_cases h : key a ∈ t.keys
  · rw [insert_of_mem h, insert_of_mem (mem_keys_union.mpr (Or.inr h))]
  · rw [union, insertMany, toList_insert_of_not_mem h, List.foldl_append]
    rfl

theorem union_insertMany (s t : KeyedList key) (as : List α) :
    s.union (t.insertMany as) = (s.union t).insertMany as := by
  induction as generalizing t with
  | nil => rfl
  | cons a as ih =>
    have hrec := ih (t.insert a)
    rw [union_insert] at hrec
    exact hrec

theorem union_assoc (s t u : KeyedList key) : s.union (t.union u) = (s.union t).union u :=
  union_insertMany s t u.toList

theorem union_self (s : KeyedList key) : s.union s = s := by
  refine ext ?_
  rw [toList_union, List.filter_eq_nil_iff.mpr, List.append_nil]
  intro a ha
  simpa [keys] using ⟨a, ha, rfl⟩

theorem union_union_self (s t : KeyedList key) : s.union (s.union t) = s.union t := by
  rw [union_assoc, union_self]

/-- Texts that are put into a set one after the other stand behind those that were in it, in the
order in which each of them first comes. -/
theorem toList_insertMany_eq_eraseDups (s : TextSet) (as : List String) :
    (s.insertMany as).toList =
      s.toList ++ (as.filter fun a => decide (a ∉ s.toList)).eraseDups := by
  induction as generalizing s with
  | nil => simp [insertMany]
  | cons a as ih =>
    have hrec := ih (s.insert a)
    simp only [insertMany, List.foldl_cons] at hrec ⊢
    rw [hrec]
    by_cases ha : a ∈ s.toList
    · rw [insert_of_mem (by rwa [keys_textSet]), List.filter_cons_of_neg (by simpa using ha)]
    · have hinsert : (s.insert a).toList = s.toList ++ [a] :=
        toList_insert_of_not_mem (by rwa [keys_textSet])
      rw [hinsert, List.filter_cons_of_pos (by simpa using ha), List.eraseDups_cons,
        List.filter_filter, List.append_assoc, List.singleton_append]
      congr 3
      refine List.filter_congr fun b _ => ?_
      rw [Bool.eq_iff_iff]
      simp [and_comm]

theorem toList_ofList_eq_eraseDups (as : List String) :
    (ofList as : TextSet).toList = as.eraseDups := by
  rw [ofList, toList_insertMany_eq_eraseDups, List.filter_eq_self.mpr (by simp)]
  rfl

/-- Where each text gives texts of its own, a text that is put in again gives nothing new. -/
theorem ofList_flatMap_insert (f : String → List String) (s : TextSet) (a : String) :
    (ofList ((s.insert a).toList.flatMap f) : TextSet) =
      (ofList (s.toList.flatMap f)).insertMany (f a) := by
  by_cases ha : a ∈ s.toList
  · have hgiven : ∀ b ∈ f a, b ∈ (ofList (s.toList.flatMap f) : TextSet).keys := by
      intro b hb
      rw [keys_textSet, mem_ofList]
      exact List.mem_flatMap.mpr ⟨a, ha, hb⟩
    rw [insert_of_mem (by rwa [keys_textSet]), insertMany_of_mem hgiven]
  · rw [toList_insert_of_not_mem (by rwa [keys_textSet]), List.flatMap_append, ofList_append,
      List.flatMap_singleton]

theorem ofList_flatMap_insertMany (f : String → List String) (s : TextSet) (as : List String) :
    (ofList ((s.insertMany as).toList.flatMap f) : TextSet) =
      (ofList (s.toList.flatMap f)).insertMany (as.flatMap f) := by
  induction as generalizing s with
  | nil => rfl
  | cons a as ih =>
    calc (ofList (((s.insert a).insertMany as).toList.flatMap f) : TextSet)
        = (ofList ((s.insert a).toList.flatMap f)).insertMany (as.flatMap f) := ih (s.insert a)
      _ = ((ofList (s.toList.flatMap f)).insertMany (f a)).insertMany (as.flatMap f) := by
          rw [ofList_flatMap_insert]
      _ = (ofList (s.toList.flatMap f)).insertMany ((a :: as).flatMap f) := by
          rw [List.flatMap_cons, insertMany_append]

theorem ofList_flatMap_ofList (f : String → List String) (as : List String) :
    (ofList ((ofList as : TextSet).toList.flatMap f) : TextSet) = ofList (as.flatMap f) :=
  ofList_flatMap_insertMany f ∅ as

def sameKeys (s t : KeyedList key) : Bool :=
  s.keys.all t.contains && t.keys.all s.contains

theorem sameKeys_iff {s t : KeyedList key} :
    s.sameKeys t = true ↔ ∀ k, k ∈ s.keys ↔ k ∈ t.keys := by
  simp only [sameKeys, Bool.and_eq_true, List.all_eq_true, contains_iff]
  exact ⟨fun h k => ⟨h.1 k, h.2 k⟩, fun h => ⟨fun k => (h k).1, fun k => (h k).2⟩⟩

end KeyedList

namespace Table

variable {κ β : Type} [DecidableEq κ]

def get? (t : Table κ β) (k : κ) : Option β := (t.find? k).map Prod.snd

/-- Write the value under a key, in the key's old place or at the end. -/
def set (t : Table κ β) (k : κ) (v : β) : Table κ β := t.put (k, v)

/-- Insert pairs one after the other; a repeated key keeps its place and takes the new value. -/
def ofPairs (ps : List (κ × β)) : Table κ β := ps.foldl KeyedList.put ∅

@[simp] theorem get?_empty (k : κ) : get? (∅ : Table κ β) k = none := rfl

theorem get?_eq_none_iff {t : Table κ β} {k : κ} : get? t k = none ↔ k ∉ t.keys := by
  rw [get?, Option.map_eq_none_iff, KeyedList.find?_eq_none]

theorem mem_keys_iff {t : Table κ β} {k : κ} : k ∈ t.keys ↔ ∃ v, get? t k = some v := by
  rw [← Option.isSome_iff_exists, Option.isSome_iff_ne_none, Ne, get?_eq_none_iff, Classical.not_not]

theorem mem_of_get? {t : Table κ β} {k : κ} {v : β} (h : get? t k = some v) :
    (k, v) ∈ t.toList := by
  obtain ⟨entry, hfind, rfl⟩ := Option.map_eq_some_iff.mp h
  obtain rfl := KeyedList.key_of_find? hfind
  exact KeyedList.mem_of_find? hfind

theorem get?_of_mem {t : Table κ β} {k : κ} {v : β} (h : (k, v) ∈ t.toList) : get? t k = some v := by
  rw [get?, KeyedList.find?_of_mem h]
  rfl

theorem get?_set (t : Table κ β) (k : κ) (v : β) (j : κ) :
    get? (set t k v) j = if j = k then some v else get? t j := by
  simp only [get?, set, KeyedList.find?_put]
  split <;> simp

theorem get?_erase (t : Table κ β) (k j : κ) :
    get? (t.erase k) j = if j = k then none else get? t j := by
  simp only [get?, KeyedList.find?_erase]
  split <;> simp

theorem keys_set (t : Table κ β) (k : κ) (v : β) :
    (set t k v).keys = if k ∈ t.keys then t.keys else t.keys ++ [k] := by
  by_cases h : k ∈ t.keys
  · rw [set, KeyedList.keys_put_of_mem h, if_pos h]
  · rw [set, KeyedList.put_of_not_mem h, if_neg h, KeyedList.keys,
      KeyedList.toList_insert_of_not_mem h, List.map_append]
    rfl

theorem map_some_toList (t : Table κ β) :
    t.toList.map some = t.keys.map fun k => (get? t k).map fun v => (k, v) := by
  rw [KeyedList.keys, List.map_map]
  refine List.map_congr_left fun entry hentry => ?_
  rw [Function.comp_apply, get?_of_mem hentry]
  rfl

theorem ext {t u : Table κ β} (hkeys : t.keys = u.keys) (hget : ∀ k, get? t k = get? u k) :
    t = u := by
  have hsame : get? t = get? u := funext hget
  refine KeyedList.ext ((List.map_inj_right fun _ _ => Option.some.inj).mp ?_)
  rw [map_some_toList t, map_some_toList u, hkeys, hsame]

theorem toList_ofPairs_of_nodup {ps : List (κ × β)} (h : (ps.map Prod.fst).Nodup) :
    (ofPairs ps).toList = ps := by
  rw [ofPairs, KeyedList.foldl_put_of_new h (by simp)]
  exact KeyedList.toList_ofList_of_nodup h

@[simp] theorem ofPairs_toList (t : Table κ β) : ofPairs t.toList = t :=
  KeyedList.ext (toList_ofPairs_of_nodup t.nodup)

theorem mem_keys_foldl_put {ps : List (κ × β)} {t : Table κ β} {k : κ} :
    k ∈ (ps.foldl KeyedList.put t).keys ↔ k ∈ t.keys ∨ k ∈ ps.map Prod.fst := by
  induction ps generalizing t with
  | nil => simp
  | cons p ps ih =>
    rw [List.foldl_cons, ih, KeyedList.mem_keys_put, List.map_cons, List.mem_cons, or_assoc]

theorem mem_keys_ofPairs {ps : List (κ × β)} {k : κ} :
    k ∈ (ofPairs ps).keys ↔ k ∈ ps.map Prod.fst := by
  rw [ofPairs, mem_keys_foldl_put]
  simp

/-- What is put over a table hides what was there under its keys. -/
theorem get?_foldl_put (ps : List (κ × β)) (t : Table κ β) (k : κ) :
    get? (ps.foldl KeyedList.put t) k = (get? (ofPairs ps) k).or (get? t k) := by
  induction ps generalizing t with
  | nil => rfl
  | cons p ps ih =>
    have hput : ∀ t : Table κ β, get? (t.put p) k = if k = p.1 then some p.2 else get? t k :=
      fun t => get?_set t p.1 p.2 k
    rw [ofPairs, List.foldl_cons, List.foldl_cons, ih, ih, hput, hput, Option.or_assoc]
    split <;> rfl

theorem get?_eq_lookup (t : Table κ β) (k : κ) : get? t k = t.toList.lookup k := by
  have hlookup : ∀ ps : List (κ × β),
      (ps.find? fun p => decide (p.1 = k)).map Prod.snd = ps.lookup k := by
    intro ps
    induction ps with
    | nil => rfl
    | cons p ps ih =>
      obtain ⟨j, v⟩ := p
      by_cases hk : j = k
      · simp [hk]
      · have hkey : (k == j) = false := beq_false_of_ne fun he => hk he.symm
        simp [List.lookup_cons, hk, hkey, ih]
  exact hlookup t.toList

theorem get?_ofPairs_of_nodup {ps : List (κ × β)} (h : (ps.map Prod.fst).Nodup) (k : κ) :
    get? (ofPairs ps) k = ps.lookup k := by
  rw [get?_eq_lookup, toList_ofPairs_of_nodup h]

theorem lookup_eq_some_iff {ps : List (κ × β)} {k : κ} {v : β} (h : (ps.map Prod.fst).Nodup) :
    ps.lookup k = some v ↔ (k, v) ∈ ps := by
  have htable := get?_eq_lookup (⟨ps, h⟩ : Table κ β) k
  exact ⟨fun hv => mem_of_get? (htable.trans hv), fun hv => htable.symm.trans (get?_of_mem hv)⟩

/-- Tables hold the same members, in whatever order they came, when the same is found in them. -/
theorem perm_iff {t u : Table κ β} : t.toList.Perm u.toList ↔ ∀ k, get? t k = get? u k := by
  constructor
  · intro h k
    refine Option.ext fun v => ?_
    exact ⟨fun hv => get?_of_mem (h.mem_iff.mp (mem_of_get? hv)),
      fun hv => get?_of_mem (h.mem_iff.mpr (mem_of_get? hv))⟩
  · intro h
    refine (List.perm_ext_iff_of_nodup t.toList_nodup u.toList_nodup).mpr fun p => ?_
    exact ⟨fun hp => mem_of_get? ((h p.1) ▸ get?_of_mem hp),
      fun hp => mem_of_get? ((h p.1).symm ▸ get?_of_mem hp)⟩

theorem mem_of_mem_ofPairs {ps : List (κ × β)} {entry : κ × β}
    (h : entry ∈ (ofPairs ps).toList) : entry ∈ ps := by
  have hfold : ∀ (ps : List (κ × β)) (t : Table κ β),
      entry ∈ (ps.foldl KeyedList.put t).toList → entry ∈ t.toList ∨ entry ∈ ps := by
    intro ps
    induction ps with
    | nil => exact fun t ht => Or.inl ht
    | cons p ps ih =>
      intro t ht
      rcases ih _ ht with hput | hrest
      · rcases KeyedList.mem_of_mem_put hput with hold | rfl
        · exact Or.inl hold
        · exact Or.inr List.mem_cons_self
      · exact Or.inr (List.mem_cons_of_mem p hrest)
  rcases hfold ps ∅ h with hempty | hps
  · cases hempty
  · exact hps

end Table

end ClusterMesh
