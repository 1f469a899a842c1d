import ClusterMesh.Config.Source
import Mathlib.Data.List.Nodup

/-!
# Restored spelling

Layered properties have their names in small letters. They are put under the names that a file spells,
one after the other, and every spelling is used up when it is found. Where no two names of the file
agree in small letters, no property is lost and none is there twice, and the order in which they come
does not matter.
-/

namespace ClusterMesh.MeshConfig

open Table

variable {file layered file' layered' : Properties} {k l : String} {p : Properties}

/-! ### Spellings -/

/-- The names of a file under their small letters. -/
def spellings (file : Properties) : Properties :=
  Table.ofPairs (file.keys.map fun k => (Text.toSmall k, k))

/-- The name under which a layered property is put. -/
def spelling (file : Properties) (l : String) : String := (get? (spellings file) l).getD l

/-- No two names agree in small letters. -/
def NamesApart (file : Properties) : Prop := (file.keys.map Text.toSmall).Nodup

theorem get?_spellings (h : NamesApart file) :
    get? (spellings file) l = some k ↔ k ∈ file.keys ∧ Text.toSmall k = l := by
  have hnodup : ((file.keys.map fun k => (Text.toSmall k, k)).map Prod.fst).Nodup := by
    rw [List.map_map]
    exact h
  rw [spellings, get?_ofPairs_of_nodup hnodup, lookup_eq_some_iff hnodup, List.mem_map]
  constructor
  · rintro ⟨j, hj, heq⟩
    obtain ⟨rfl, rfl⟩ := Prod.mk.inj heq
    exact ⟨hj, rfl⟩
  · rintro ⟨hk, rfl⟩
    exact ⟨k, hk, rfl⟩

theorem spelling_of_mem (h : NamesApart file) (hk : k ∈ file.keys) :
    spelling file (Text.toSmall k) = k := by
  rw [spelling, (get?_spellings h).mpr ⟨hk, rfl⟩, Option.getD_some]

theorem spelling_of_not_mem (h : NamesApart file) (hnew : ∀ k ∈ file.keys, Text.toSmall k ≠ l) :
    spelling file l = l := by
  have hnone : get? (spellings file) l = none :=
    Option.eq_none_iff_forall_ne_some.mpr fun k hk => by
      obtain ⟨hmem, heq⟩ := (get?_spellings h).mp hk
      exact hnew k hmem heq
  rw [spelling, hnone, Option.getD_none]

theorem toSmall_spelling (h : NamesApart file) (hl : Text.toSmall l = l) :
    Text.toSmall (spelling file l) = l := by
  by_cases hfile : ∃ k ∈ file.keys, Text.toSmall k = l
  · obtain ⟨k, hk, rfl⟩ := hfile
    rw [spelling_of_mem h hk]
  · rw [spelling_of_not_mem h fun k hk heq => hfile ⟨k, hk, heq⟩, hl]

/-! ### One property after the other -/

/-- A spelling is asked for once only, so that nothing comes of taking it away. -/
theorem foldl_respell {spelled : Properties} {entries : List (String × String)}
    (hnodup : (entries.map Prod.fst).Nodup)
    (hspelled : ∀ e ∈ entries, get? spelled e.1 = get? (spellings file) e.1) :
    (entries.foldl (fun state e => respell state.1 state.2 e) (spelled, p)).2 =
      (entries.map fun e => (spelling file e.1, e.2)).foldl KeyedList.put p := by
  induction entries generalizing spelled p with
  | nil => rfl
  | cons e entries ih =>
    rw [List.map_cons, List.nodup_cons] at hnodup
    have hrest : ∀ d ∈ entries, get? (spelled.erase e.1) d.1 = get? (spellings file) d.1 := by
      intro d hd
      have hne : d.1 ≠ e.1 := fun he => hnodup.1 (he ▸ List.mem_map_of_mem hd)
      rw [get?_erase, if_neg hne, hspelled d (List.mem_cons_of_mem e hd)]
    rw [List.foldl_cons, List.map_cons, List.foldl_cons, respell, ih hnodup.2 hrest,
      hspelled e List.mem_cons_self]
    rfl

theorem restoreSpelling_eq (file layered : Properties) : restoreSpelling file layered =
    (layered.toList.map fun e => (spelling file e.1, e.2)).foldl KeyedList.put file :=
  foldl_respell layered.nodup fun _ _ => rfl

theorem get?_respelled (h : NamesApart file) (hsmall : ∀ l ∈ layered.keys, Text.toSmall l = l)
    (k : String) :
    get? (ofPairs (layered.toList.map fun e => (spelling file e.1, e.2))) k =
      if spelling file (Text.toSmall k) = k then get? layered (Text.toSmall k) else none := by
  -- small letters lead back from a spelling, so that no two names are put under the same one
  have hback : ∀ e ∈ layered.toList, Text.toSmall (spelling file e.1) = e.1 :=
    fun e he => toSmall_spelling h (hsmall e.1 (List.mem_map_of_mem he))
  have hkeys : ((layered.toList.map fun e => (spelling file e.1, e.2)).map Prod.fst).map
      Text.toSmall = layered.keys := by
    rw [List.map_map, List.map_map]
    exact List.map_congr_left hback
  have hnodup := List.Nodup.of_map Text.toSmall (hkeys ▸ layered.keys_nodup)
  refine Option.ext fun v => ?_
  rw [get?_ofPairs_of_nodup hnodup, lookup_eq_some_iff hnodup, List.mem_map]
  constructor
  · rintro ⟨e, he, heq⟩
    obtain ⟨rfl, rfl⟩ := Prod.mk.inj heq
    rw [hback e he, if_pos rfl]
    exact get?_of_mem he
  · intro hv
    split at hv
    next hspelling => exact ⟨_, mem_of_get? hv, Prod.ext hspelling rfl⟩
    next => cases hv

/-! ### The restored properties -/

/-- The properties of a file with layered ones put over them. -/
structure Restored (file layered restored : Properties) : Prop where
  keys : ∀ k, k ∈ restored.keys ↔
    k ∈ file.keys ∨ k ∈ layered.keys ∧ ∀ f ∈ file.keys, Text.toSmall f ≠ k
  spelled : ∀ f ∈ file.keys,
    get? restored f = (get? layered (Text.toSmall f)).or (get? file f)
  added : ∀ l ∈ layered.keys, (∀ f ∈ file.keys, Text.toSmall f ≠ l) →
    get? restored l = get? layered l

theorem get?_restoreSpelling (h : NamesApart file)
    (hsmall : ∀ l ∈ layered.keys, Text.toSmall l = l) (k : String) :
    get? (restoreSpelling file layered) k =
      (if spelling file (Text.toSmall k) = k then get? layered (Text.toSmall k) else none).or
        (get? file k) := by
  rw [restoreSpelling_eq, get?_foldl_put, get?_respelled h hsmall]

theorem restored_restoreSpelling (h : NamesApart file)
    (hsmall : ∀ l ∈ layered.keys, Text.toSmall l = l) :
    Restored file layered (restoreSpelling file layered) := by
  have hspelled : ∀ f ∈ file.keys, get? (restoreSpelling file layered) f =
      (get? layered (Text.toSmall f)).or (get? file f) := by
    intro f hf
    rw [get?_restoreSpelling h hsmall, if_pos (spelling_of_mem h hf)]
  have hadded : ∀ l ∈ layered.keys, (∀ f ∈ file.keys, Text.toSmall f ≠ l) →
      get? (restoreSpelling file layered) l = get? layered l := by
    intro l hl hnew
    have hfile : get? file l = none :=
      get?_eq_none_iff.mpr fun hmem => hnew l hmem (hsmall l hl)
    rw [get?_restoreSpelling h hsmall, hsmall l hl, if_pos (spelling_of_not_mem h hnew), hfile,
      Option.or_none]
  refine ⟨fun k => ⟨fun hk => ?_, ?_⟩, hspelled, hadded⟩
  · obtain ⟨v, hv⟩ := mem_keys_iff.mp hk
    rw [get?_restoreSpelling h hsmall] at hv
    by_cases hfile : k ∈ file.keys
    · exact Or.inl hfile
    rw [get?_eq_none_iff.mpr hfile, Option.or_none] at hv
    split at hv
    next hspelling =>
      -- a name that stands for a spelling is a name of the file
      have hnew : ∀ f ∈ file.keys, Text.toSmall f ≠ Text.toSmall k := by
        intro f hf heq
        rw [← heq, spelling_of_mem h hf] at hspelling
        exact hfile (hspelling ▸ hf)
      have hsame : Text.toSmall k = k := by
        rw [← spelling_of_not_mem h hnew, hspelling]
      refine Or.inr ⟨mem_keys_iff.mpr ⟨v, hsame ▸ hv⟩, hsame ▸ hnew⟩
    next => cases hv
  · rintro (hfile | ⟨hl, hnew⟩)
    · obtain ⟨v, hv⟩ := mem_keys_iff.mp hfile
      rw [mem_keys_iff, hspelled k hfile, hv]
      cases get? layered (Text.toSmall k) with
      | none => exact ⟨v, rfl⟩
      | some w => exact ⟨w, rfl⟩
    · rw [mem_keys_iff, hadded k hl hnew]
      exact mem_keys_iff.mp hl

theorem Restored.get?_eq {restored restored' : Properties} (h : Restored file layered restored)
    (h' : Restored file' layered' restored') (hfile : ∀ k, get? file k = get? file' k)
    (hlayered : ∀ k, get? layered k = get? layered' k) (k : String) :
    get? restored k = get? restored' k := by
  have hkeys : ∀ {p q : Properties}, (∀ k, get? p k = get? q k) → ∀ k, k ∈ p.keys ↔ k ∈ q.keys := by
    intro p q hsame k
    rw [mem_keys_iff, mem_keys_iff, hsame]
  by_cases hk : k ∈ file.keys
  · rw [h.spelled k hk, h'.spelled k ((hkeys hfile k).mp hk), hfile, hlayered]
  by_cases hadded : k ∈ layered.keys ∧ ∀ f ∈ file.keys, Text.toSmall f ≠ k
  · obtain ⟨hl, hnew⟩ := hadded
    rw [h.added k hl hnew, h'.added k ((hkeys hlayered k).mp hl)
      fun f hf => hnew f ((hkeys hfile f).mpr hf), hlayered]
  · have hnone : k ∉ restored.keys := fun hmem => ((h.keys k).mp hmem).elim hk hadded
    have hnone' : k ∉ restored'.keys := by
      intro hmem
      rcases (h'.keys k).mp hmem with hf | ⟨hl, hnew⟩
      · exact hk ((hkeys hfile k).mpr hf)
      · exact hadded ⟨(hkeys hlayered k).mpr hl, fun f hf => hnew f ((hkeys hfile f).mp hf)⟩
    rw [get?_eq_none_iff.mpr hnone, get?_eq_none_iff.mpr hnone']

theorem restoreSpelling_perm (h : NamesApart file)
    (hsmall : ∀ l ∈ layered.keys, Text.toSmall l = l) (hfile : file.toList.Perm file'.toList)
    (hlayered : layered.toList.Perm layered'.toList) :
    (restoreSpelling file layered).toList.Perm (restoreSpelling file' layered').toList := by
  have h' : NamesApart file' :=
    ((hfile.map Prod.fst).map Text.toSmall).nodup_iff.mp h
  have hsmall' : ∀ l ∈ layered'.keys, Text.toSmall l = l :=
    fun l hl => hsmall l ((hlayered.map Prod.fst).mem_iff.mpr hl)
  exact perm_iff.mpr ((restored_restoreSpelling h hsmall).get?_eq
    (restored_restoreSpelling h' hsmall') (perm_iff.mp hfile) (perm_iff.mp hlayered))

end ClusterMesh.MeshConfig
