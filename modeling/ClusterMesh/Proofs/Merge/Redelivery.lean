import ClusterMesh.Proofs.Merge.Texts

/-!
# Delivering a map twice

To take in a map leaves the keys of a replica where they are and puts the new ones behind them, in
their order. To take in the same map a second time changes nothing where a value was merged. Only a
tagged text that was copied under a new key is written anew, with the items that it has, and then
it stays.
-/

namespace ClusterMesh

namespace ReplicatedValue

variable {a b : ReplicatedValue}

theorem mergeBoth_mergeBoth (h : a.kind ≠ "list") (b : ReplicatedValue) :
    mergeBoth a (mergeBoth a b) = mergeBoth a b := by
  cases a <;> cases b
  case list.list s t => exact absurd rfl h
  case set.set s t => exact congrArg set (KeyedList.union_union_self s t)
  case nodes.nodes g g' => simp only [mergeBoth, KeyedList.union_union_self]
  case text.text s t =>
    by_cases htagged : Tagged.isTagged s = true ∨ Tagged.isTagged t = true
    · have hmerged : mergeBoth (text s) (text t) = text (Tagged.merge s t) := by
        rw [mergeBoth, if_pos (by simpa using htagged)]
      have hagain : Tagged.isTagged s = true ∨ Tagged.isTagged (Tagged.merge s t) = true :=
        htagged.imp_right Tagged.isTagged_merge
      rw [hmerged, mergeBoth, if_pos (by simpa using hagain), Tagged.merge_merge]
    · rw [not_or, Bool.not_eq_true, Bool.not_eq_true] at htagged
      rw [mergeBoth_plain htagged.1 htagged.2, mergeBoth_plain htagged.1 htagged.2]
  all_goals rfl

/-- A tagged text is written anew with the items that it has. -/
inductive Rewritten : ReplicatedValue → ReplicatedValue → Prop
  | text {s : String} (htagged : Tagged.isTagged s = true)
      (hitems : Tagged.items (Tagged.render (Tagged.items s)) = Tagged.items s) :
      Rewritten (text s) (text (Tagged.render (Tagged.items s)))

theorem mergeBoth_self_cases (h : a.kind ≠ "list") : mergeBoth a a = a ∨ Rewritten a (mergeBoth a a) := by
  cases a with
  | scalar v => exact Or.inl rfl
  | list s => exact absurd rfl h
  | set s => exact Or.inl (congrArg set (KeyedList.union_self s))
  | nodes g => exact Or.inl (by simp only [mergeBoth, KeyedList.union_self])
  | text s =>
    cases htagged : Tagged.isTagged s with
    | false => exact Or.inl (mergeBoth_plain htagged htagged)
    | true =>
      rw [mergeBoth_tagged htagged]
      rcases Tagged.merge_self_cases s with hsame | ⟨hnew, hitems⟩
      · exact Or.inl (congrArg text hsame)
      · rw [hnew]
        exact Or.inr (.text htagged hitems)

end ReplicatedValue

namespace Replica

variable {e i r again : Replica} {key : String} {value : ReplicatedValue}

open ReplicatedValue

theorem keys_absorb (r : Replica) (entry : String × ReplicatedValue) :
    (r.absorb entry).keys = if entry.1 ∈ r.keys then r.keys else r.keys ++ [entry.1] := by
  obtain ⟨resolved, hresolved⟩ : ∃ resolved,
      merge (some entry.2) (Table.get? r entry.1) = some resolved := by
    cases Table.get? r entry.1 with
    | none => exact ⟨_, rfl⟩
    | some existing => exact ⟨_, rfl⟩
  rw [absorb, hresolved]
  exact Table.keys_set r entry.1 resolved

theorem keys_reconcile (e i : Replica) :
    (e.reconcile i).keys = e.keys ++ i.keys.filter (fun key => decide (key ∉ e.keys)) := by
  have hfold : ∀ (entries : List (String × ReplicatedValue)) (r : Replica),
      (entries.map Prod.fst).Nodup →
      (entries.foldl absorb r).keys =
        r.keys ++ (entries.map Prod.fst).filter (fun key => decide (key ∉ r.keys)) := by
    intro entries
    induction entries with
    | nil => simp
    | cons entry entries ih =>
      intro r hnodup
      rw [List.map_cons, List.nodup_cons] at hnodup
      rw [List.foldl_cons, ih _ hnodup.2, keys_absorb, List.map_cons]
      by_cases hold : entry.1 ∈ r.keys
      · rw [if_pos hold, List.filter_cons_of_neg (by simpa using hold)]
      · -- the key is new, and does not come again
        have hrest : (entries.map Prod.fst).filter
            (fun key => decide (key ∉ r.keys ++ [entry.1])) =
            (entries.map Prod.fst).filter (fun key => decide (key ∉ r.keys)) := by
          refine List.filter_congr fun key hkey => ?_
          have hne : key ≠ entry.1 := fun h => hnodup.1 (h ▸ hkey)
          simp [hne]
        rw [if_neg hold, hrest, List.filter_cons_of_pos (by simpa using hold),
          List.append_assoc, List.singleton_append]
  exact hfold i.toList e i.nodup

/-- What becomes of a replica that takes in a map: its keys stay where they are, and the new ones
come behind them in their order; what is received is merged, and the rest is left alone. -/
structure TakesIn (e i r : Replica) : Prop where
  keys : r.keys = e.keys ++ i.keys.filter (fun key => decide (key ∉ e.keys))
  keeps : e.keys <+: r.keys
  merged : ∀ {key value}, Table.get? i key = some value →
    Table.get? r key = merge (some value) (Table.get? e key)
  untouched : ∀ {key}, key ∉ i.keys → Table.get? r key = Table.get? e key

theorem takesIn_reconcile (e i : Replica) : TakesIn e i (e.reconcile i) where
  keys := keys_reconcile e i
  keeps := ⟨_, (keys_reconcile e i).symm⟩
  merged := by
    intro key value h
    rw [get?_reconcile, h]
  untouched := by
    intro key h
    rw [get?_reconcile, Table.get?_eq_none_iff.mpr h]
    rfl

theorem keys_reconcile_of_subset (h : ∀ key ∈ i.keys, key ∈ r.keys) :
    (r.reconcile i).keys = r.keys := by
  rw [keys_reconcile, List.filter_eq_nil_iff.mpr, List.append_nil]
  intro key hkey
  simpa using h key hkey

theorem keys_redelivered (e i : Replica) :
    ((e.reconcile i).reconcile i).keys = (e.reconcile i).keys :=
  keys_reconcile_of_subset fun _ hkey => mem_keys_reconcile.mpr (Or.inr hkey)

/-- No value of a map is a list, which would be appended each time. -/
def HoldsNoList (i : Replica) : Prop :=
  ∀ key value, Table.get? i key = some value → value.kind ≠ "list"

/-- What comes a second time is left alone by the value that was merged, and is merged with itself
where it was copied. -/
theorem get?_redelivered (h : i.HoldsNoList) (hvalue : Table.get? i key = some value) :
    Table.get? ((e.reconcile i).reconcile i) key =
      if key ∈ e.keys then Table.get? (e.reconcile i) key else some (mergeBoth value value) := by
  rw [get?_reconcile, get?_reconcile, hvalue]
  cases hold : Table.get? e key with
  | none =>
    rw [if_neg (Table.get?_eq_none_iff.mp hold)]
    rfl
  | some old =>
    rw [if_pos (Table.mem_keys_iff.mpr ⟨old, hold⟩)]
    exact congrArg some (mergeBoth_mergeBoth (h key value hvalue) old)

theorem get?_reconcile_of_not_mem (h : key ∉ i.keys) :
    Table.get? (r.reconcile i) key = Table.get? r key :=
  (takesIn_reconcile r i).untouched h

/-- A replica that holds all keys of a map already is settled by taking it in. -/
theorem reconcile_reconcile (h : i.HoldsNoList) (hkeys : ∀ key ∈ i.keys, key ∈ r.keys) :
    (r.reconcile i).reconcile i = r.reconcile i := by
  refine Table.ext (keys_redelivered r i) fun key => ?_
  by_cases hkey : key ∈ i.keys
  · obtain ⟨value, hvalue⟩ := Table.mem_keys_iff.mp hkey
    rw [get?_redelivered h hvalue, if_pos (hkeys key hkey)]
  · exact get?_reconcile_of_not_mem hkey

/-- What becomes of a replica that takes in a map once more. Its keys stay as they are, and its
values too, but for a tagged text that was copied under a new key: that is written anew, if it was
not written so, and a third time changes nothing any more. -/
structure Settles (e i r again : Replica) : Prop where
  keys : again.keys = r.keys
  values : ∀ key, Table.get? again key = Table.get? r key ∨
    key ∉ e.keys ∧ ∃ value new, Table.get? i key = some value ∧ Table.get? r key = some value ∧
      Table.get? again key = some new ∧ Rewritten value new
  same : (∀ key value new, key ∉ e.keys → Table.get? i key = some value → Rewritten value new →
    new = value) → again = r
  settled : again.reconcile i = again

theorem get?_redelivered_cases (h : i.HoldsNoList) (key : String) :
    Table.get? ((e.reconcile i).reconcile i) key = Table.get? (e.reconcile i) key ∨
      key ∉ e.keys ∧ ∃ value new, Table.get? i key = some value ∧
        Table.get? (e.reconcile i) key = some value ∧
        Table.get? ((e.reconcile i).reconcile i) key = some new ∧ Rewritten value new := by
  by_cases hkey : key ∈ i.keys
  · obtain ⟨value, hvalue⟩ := Table.mem_keys_iff.mp hkey
    have hagain := get?_redelivered (e := e) h hvalue
    by_cases hold : key ∈ e.keys
    · rw [if_pos hold] at hagain
      exact Or.inl hagain
    · have hcopied : Table.get? (e.reconcile i) key = some value := by
        rw [get?_reconcile, hvalue, Table.get?_eq_none_iff.mpr hold]
        rfl
      rw [if_neg hold] at hagain
      rcases mergeBoth_self_cases (h key value hvalue) with hself | hnew
      · rw [hself] at hagain
        exact Or.inl (hagain.trans hcopied.symm)
      · exact Or.inr ⟨hold, value, _, hvalue, hcopied, hagain, hnew⟩
  · exact Or.inl (get?_reconcile_of_not_mem hkey)

theorem settles_reconcile (h : i.HoldsNoList) :
    Settles e i (e.reconcile i) ((e.reconcile i).reconcile i) where
  keys := keys_redelivered e i
  values := get?_redelivered_cases h
  same := by
    intro hwritten
    refine Table.ext (keys_redelivered e i) fun key => ?_
    rcases get?_redelivered_cases (e := e) h key with hsame | ⟨hnew, value, new, hi, hr, hagain, hto⟩
    · exact hsame
    · rw [hagain, hr, hwritten key value new hnew hi hto]
  settled := reconcile_reconcile h fun _ hkey => mem_keys_reconcile.mpr (Or.inr hkey)

/-- To take in a map is to merge it key by key, and what has come once does no more when it comes
again. -/
theorem tolerates_redelivery (e i : Replica) :
    TakesIn e i (e.reconcile i) ∧
      (i.HoldsNoList → Settles e i (e.reconcile i) ((e.reconcile i).reconcile i)) :=
  ⟨takesIn_reconcile e i, settles_reconcile⟩

/-! ### A map that comes twice -/

def sampleHeld : Replica :=
  Table.ofPairs [("topics", .text "x"), ("features", .set (KeyedList.ofList ["b"]))]

/-- The text under the key that is new is not written as it would be by a merge. -/
def sampleReceived : Replica :=
  Table.ofPairs [("tags", .text "MERGABLE[ q, p,q]"), ("features", .set (KeyedList.ofList ["a", "b"])),
    ("topics", .text "MERGABLE[y]"), ("size", .text "3")]

theorem tolerates_redelivery_sample :
    sampleReceived.HoldsNoList ∧
      Settles sampleHeld sampleReceived (sampleHeld.reconcile sampleReceived)
        ((sampleHeld.reconcile sampleReceived).reconcile sampleReceived) ∧
      (sampleHeld.reconcile sampleReceived).keys = ["topics", "features", "tags", "size"] ∧
      Table.get? ((sampleHeld.reconcile sampleReceived).reconcile sampleReceived) "tags" =
        some (.text "MERGABLE[q,p]") := by
  have hnone : sampleReceived.HoldsNoList := by
    have hall : ∀ entry ∈ sampleReceived.toList, entry.2.kind ≠ "list" := by decide +kernel
    exact fun key value h => hall (key, value) (Table.mem_of_get? h)
  have hreceived : Table.get? sampleReceived "tags" = some (.text "MERGABLE[ q, p,q]") := rfl
  have htwice : mergeBoth (.text "MERGABLE[ q, p,q]") (.text "MERGABLE[ q, p,q]") =
      .text "MERGABLE[q,p]" := by
    rw [mergeBoth_tagged (by decide +kernel)]
    exact congrArg text (by decide +kernel)
  refine ⟨hnone, (tolerates_redelivery sampleHeld sampleReceived).2 hnone, by decide +kernel, ?_⟩
  rw [get?_redelivered hnone hreceived, if_neg (by decide +kernel), htwice]

end Replica

end ClusterMesh
