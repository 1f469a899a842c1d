import ClusterMesh.Json.Record

/-!
# Records are read as they are written

A record that is written with each of its names once is read with the same fields, and a field is
read back where its value is.
-/

namespace ClusterMesh.Json

variable {α : Type} {read : Json → Option α} {write : α → Json}
variable {fields : List (String × Json)}

theorem fieldValues_of_not_mem {name : String} (h : name ∉ fields.map Prod.fst) :
    fieldValues fields name = [] := by
  rw [fieldValues, List.map_eq_nil_iff, List.filter_eq_nil_iff]
  intro f hf heq
  exact h (List.mem_map.mpr ⟨f, hf, beq_iff_eq.mp heq⟩)

theorem fieldValues_of_mem {name : String} {value : Json} (hnodup : (fields.map Prod.fst).Nodup)
    (h : (name, value) ∈ fields) : fieldValues fields name = [value] := by
  induction fields with
  | nil => cases h
  | cons f fields ih =>
    rw [List.map_cons, List.nodup_cons] at hnodup
    rcases List.mem_cons.mp h with rfl | hrest
    · have hnone := fieldValues_of_not_mem hnodup.1
      rw [fieldValues] at hnone ⊢
      rw [List.filter_cons_of_pos (by simp), List.map_cons, hnone]
    · have hne : f.1 ≠ name := fun he => hnodup.1 (List.mem_map.mpr ⟨(name, value), hrest, he.symm⟩)
      have hsome := ih hnodup.2 hrest
      rw [fieldValues] at hsome ⊢
      rw [List.filter_cons_of_neg (by simpa using hne), hsome]

theorem mapM_eq_some {β : Type} {f : α → Option β} {g : α → β} {as : List α}
    (h : ∀ a ∈ as, f a = some (g a)) : as.mapM f = some (as.map g) := by
  induction as with
  | nil => rfl
  | cons a as ih =>
    rw [List.mapM_cons, h a List.mem_cons_self, ih fun b hb => h b (List.mem_cons_of_mem _ hb)]
    rfl

theorem record?_object {names : List String} (hnames : fields.map Prod.fst = names)
    (hnodup : names.Nodup) :
    record? names (.object fields) = some (fields.map fun f => some f.2) := by
  subst hnames
  rw [record?, List.mapM_map]
  refine mapM_eq_some fun f hf => ?_
  rw [Function.comp_apply, fieldValues_of_mem hnodup hf]

theorem listOf?_list {as : List α} (h : ∀ a ∈ as, read (write a) = some a) :
    listOf? read (.list (as.map write)) = some as := by
  have hall : as.mapM (read ∘ write) = some (as.map id) := mapM_eq_some h
  rw [listOf?, List.mapM_map, hall, List.map_id]

theorem optional?_ofOption {β : Type} {read : Json → Option β} {f : α → β} {o : Option α}
    (hnull : ∀ a, write a ≠ .null) (h : ∀ a ∈ o, read (write a) = some (f a)) :
    optional? read (some (ofOption write o)) = some (o.map f) := by
  cases o with
  | none => rfl
  | some a =>
    have hread : optional? read (some (write a)) = (read (write a)).map some := by
      unfold optional?
      split
      · next heq => cases heq
      · next heq => exact absurd (Option.some.inj heq) (hnull a)
      · next heq => rw [Option.some.inj heq]
    rw [ofOption, hread, h a rfl]
    rfl

theorem optional?_text (o : Option String) : optional? text? (some (ofOption .text o)) = some o := by
  cases o <;> rfl

theorem case?_mem {cases : List (String × α)} {j : Json} {a : α} (h : case? cases j = some a) :
    ∃ name, (name, a) ∈ cases := by
  have hlookup : ∀ name, cases.lookup name = some a → (name, a) ∈ cases := by
    intro name hname
    obtain ⟨before, rest, rfl, -⟩ := List.lookup_eq_some_iff.mp hname
    exact List.mem_append_right before List.mem_cons_self
  unfold case? at h
  split at h
  · next name => exact ⟨name, hlookup name h⟩
  · next name => exact ⟨name, hlookup name h⟩
  · cases h

theorem word?_toNat (w : UInt64) : word? (.int w.toNat) = some w := by
  have hbound : w.toNat ≤ wordBound := Nat.le_sub_one_of_lt w.toNat_lt
  simp [word?, nat?, hbound]

theorem halfword?_toNat (w : UInt16) : halfword? (.int w.toNat) = some w := by
  have hbound : w.toNat ≤ Nat.pow 2 16 - 1 := Nat.le_sub_one_of_lt w.toNat_lt
  simp only [halfword?, nat?]
  rw [if_pos ⟨by omega, by omega⟩]
  simp

end ClusterMesh.Json
