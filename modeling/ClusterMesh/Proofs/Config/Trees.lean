import ClusterMesh.Config.Setting
import Mathlib.Data.List.Nodup

/-!
# Trees in small letters

A document whose names stay apart in small letters becomes the tree that is written in it, with
every name in small letters and everything at its place.
-/

namespace ClusterMesh

namespace Setting

variable {name other : String} {value root : Setting} {entries done : List (String × Setting)}

/-! ### Entries -/

theorem lookup_writeEntry_self : (writeEntry name value entries).lookup name = some value := by
  induction entries with
  | nil => simp [writeEntry]
  | cons e entries ih =>
    obtain ⟨k, v⟩ := e
    by_cases h : k = name
    · simp [writeEntry, h]
    · have hkey : (name == k) = false := beq_false_of_ne fun he => h he.symm
      simp [writeEntry, h, List.lookup_cons, hkey, ih]

theorem lookup_writeEntry_of_ne (h : other ≠ name) :
    (writeEntry name value entries).lookup other = entries.lookup other := by
  have hother : (other == name) = false := beq_false_of_ne h
  induction entries with
  | nil => simp [writeEntry, List.lookup_cons, hother]
  | cons e entries ih =>
    obtain ⟨k, v⟩ := e
    by_cases hk : k = name
    · simp [writeEntry, hk, List.lookup_cons, hother]
    · simp only [writeEntry, hk, if_false, List.lookup_cons, ih]

theorem writeEntry_of_new (h : name ∉ entries.map Prod.fst) :
    writeEntry name value entries = entries ++ [(name, value)] := by
  induction entries with
  | nil => rfl
  | cons e entries ih =>
    obtain ⟨k, v⟩ := e
    simp only [List.map_cons, List.mem_cons, not_or] at h
    have hk : k ≠ name := fun he => h.1 he.symm
    simp only [writeEntry, hk, if_false, List.cons_append, ih h.2]

/-! ### Small letters -/

mutual

/-- The tree with the names in its tables in small letters. What is in lists stays as it is. -/
def small : Setting → Setting
  | table entries => table (smallEntries entries)
  | list items => list items
  | null => null
  | bool b => bool b
  | int i => int i
  | float x => float x
  | text s => text s

def smallEntries : List (String × Setting) → List (String × Setting)
  | [] => []
  | (name, value) :: entries => (Text.toSmall name, small value) :: smallEntries entries

end

mutual

/-- The names in each table differ in more than the case of their letters. -/
def NamesDiffer : Setting → Prop
  | table entries => (entries.map fun e => Text.toSmall e.1).Nodup ∧ EntriesDiffer entries
  | list _ => True
  | null => True
  | bool _ => True
  | int _ => True
  | float _ => True
  | text _ => True

def EntriesDiffer : List (String × Setting) → Prop
  | [] => True
  | (_, value) :: entries => NamesDiffer value ∧ EntriesDiffer entries

end

mutual

theorem put_of_new {name : String} {done : List (String × Setting)}
    (hnew : Text.toSmall name ∉ done.map Prod.fst) : (value : Setting) → value.NamesDiffer →
      put (table done) name value = table (done ++ [(Text.toSmall name, value.small)])
  | table incoming, h => by
    have hnone : done.lookup (Text.toSmall name) = none :=
      List.lookup_eq_none_iff.mpr fun e he =>
        bne_iff_ne.mpr fun heq => hnew (List.mem_map.mpr ⟨e, he, heq.symm⟩)
    have hbelow := putAll_of_new [] incoming h.2 h.1 fun _ _ => List.not_mem_nil
    simp only [put, entriesOrNone, hnone, Option.getD_none, hbelow, List.nil_append,
      writeEntry_of_new hnew, small]
  | list _, _ => by simp only [put, entriesOrNone, writeEntry_of_new hnew, small]
  | null, _ => by simp only [put, entriesOrNone, writeEntry_of_new hnew, small]
  | bool _, _ => by simp only [put, entriesOrNone, writeEntry_of_new hnew, small]
  | int _, _ => by simp only [put, entriesOrNone, writeEntry_of_new hnew, small]
  | float _, _ => by simp only [put, entriesOrNone, writeEntry_of_new hnew, small]
  | text _, _ => by simp only [put, entriesOrNone, writeEntry_of_new hnew, small]

theorem putAll_of_new (done : List (String × Setting)) : (entries : List (String × Setting)) →
    EntriesDiffer entries → (entries.map fun e => Text.toSmall e.1).Nodup →
    (∀ e ∈ entries, Text.toSmall e.1 ∉ done.map Prod.fst) →
      putAll (table done) entries = table (done ++ smallEntries entries)
  | [], _, _, _ => by simp [putAll, smallEntries]
  | (name, value) :: entries, h, hnodup, hnew => by
    rw [List.map_cons, List.nodup_cons] at hnodup
    have hrest : ∀ e ∈ entries,
        Text.toSmall e.1 ∉ (done ++ [(Text.toSmall name, value.small)]).map Prod.fst := by
      intro e he hmem
      rw [List.map_append, List.mem_append] at hmem
      rcases hmem with hold | hfirst
      · exact hnew e (List.mem_cons_of_mem _ he) hold
      · exact hnodup.1 (List.mem_map.mpr ⟨e, he, List.mem_singleton.mp hfirst⟩)
    rw [putAll, put_of_new (hnew (name, value) List.mem_cons_self) value h.1,
      putAll_of_new _ entries h.2 hnodup.2 hrest, smallEntries, List.append_assoc,
      List.singleton_append]

end

end Setting

end ClusterMesh
