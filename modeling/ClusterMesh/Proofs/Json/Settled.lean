import ClusterMesh.Json.Basic

/-!
# Settled values

A value is settled when the fields of its objects are in the order of their names and no name is
repeated. To settle a value makes it so, and leaves it alone if it is.
-/

namespace ClusterMesh.Json

variable {name : String} {value : Json} {fields : List (String × Json)}

def IsSettled (j : Json) : Prop := j.settled = j

/-- Fields in the order of their names, each of a settled value. -/
structure InOrder (fields : List (String × Json)) : Prop where
  sorted : fields.Pairwise (fun f g => f.1 < g.1)
  settled : ∀ f ∈ fields, f.2.IsSettled

theorem inOrder_nil : InOrder [] := ⟨.nil, by simp⟩

theorem mem_of_mem_placeField {f : String × Json} (h : f ∈ placeField name value fields) :
    f = (name, value) ∨ f ∈ fields := by
  induction fields with
  | nil => exact Or.inl (List.mem_singleton.mp h)
  | cons g fields ih =>
    obtain ⟨k, v⟩ := g
    simp only [placeField] at h
    split at h
    · rcases List.mem_cons.mp h with rfl | hrest
      · exact Or.inl rfl
      · exact Or.inr (List.mem_cons_of_mem _ hrest)
    · split at h
      · exact List.mem_cons.mp h
      · rcases List.mem_cons.mp h with rfl | hrest
        · exact Or.inr List.mem_cons_self
        · rcases ih hrest with hnew | hold
          · exact Or.inl hnew
          · exact Or.inr (List.mem_cons_of_mem _ hold)

theorem InOrder.placeField (h : InOrder fields) (hvalue : value.IsSettled) :
    InOrder (placeField name value fields) := by
  refine ⟨?_, fun f hf => ?_⟩
  · induction fields with
    | nil => exact List.pairwise_singleton _ _
    | cons g fields ih =>
      obtain ⟨k, v⟩ := g
      have hsorted := List.pairwise_cons.mp h.sorted
      have hfields : InOrder fields := ⟨hsorted.2, fun f hf => h.settled f (List.mem_cons_of_mem _ hf)⟩
      simp only [Json.placeField]
      split
      · next hname =>
        subst hname
        exact List.pairwise_cons.mpr hsorted
      · next hne =>
        split
        · next hlt =>
          refine List.pairwise_cons.mpr ⟨fun f hf => ?_, h.sorted⟩
          rcases List.mem_cons.mp hf with rfl | hrest
          · exact hlt
          · exact String.lt_trans hlt (hsorted.1 f hrest)
        · next hnot =>
          refine List.pairwise_cons.mpr ⟨fun f hf => ?_, ih hfields⟩
          rcases mem_of_mem_placeField hf with rfl | hrest
          · exact Std.lt_of_le_of_ne (String.not_lt.mp hnot) fun he => hne he.symm
          · exact hsorted.1 f hrest
  · rcases mem_of_mem_placeField hf with rfl | hold
    · exact hvalue
    · exact h.settled f hold

theorem placeField_of_last (h : ∀ f ∈ fields, f.1 < name) :
    placeField name value fields = fields ++ [(name, value)] := by
  induction fields with
  | nil => rfl
  | cons g fields ih =>
    obtain ⟨k, v⟩ := g
    have hlt : k < name := h (k, v) List.mem_cons_self
    have hne : name ≠ k := fun he => String.lt_irrefl k (he ▸ hlt)
    simp only [placeField, hne, if_false, String.lt_asymm hlt, List.cons_append]
    rw [ih fun f hf => h f (List.mem_cons_of_mem _ hf)]

theorem perm_placeField (h : name ∉ fields.map Prod.fst) :
    (placeField name value fields).Perm ((name, value) :: fields) := by
  induction fields with
  | nil => exact List.Perm.refl _
  | cons g fields ih =>
    obtain ⟨k, v⟩ := g
    rw [List.map_cons, List.mem_cons, not_or] at h
    simp only [placeField, if_neg h.1]
    split
    · exact List.Perm.refl _
    · exact ((ih h.2).cons (k, v)).trans (List.Perm.swap ..)

theorem perm_settledFields {done : List (String × Json)}
    (h : ((done ++ fields).map Prod.fst).Nodup) :
    (settledFields done fields).Perm (done ++ fields.map fun f => (f.1, f.2.settled)) := by
  induction fields generalizing done with
  | nil => simp [settledFields]
  | cons f fields ih =>
    obtain ⟨name, value⟩ := f
    have hnew : name ∉ done.map Prod.fst := by
      rw [List.map_append, List.nodup_append] at h
      exact fun hmem => h.2.2 name hmem name List.mem_cons_self rfl
    have hplace : (placeField name value.settled done).Perm ((name, value.settled) :: done) :=
      perm_placeField hnew
    have hmiddle : ((placeField name value.settled done ++ fields).map Prod.fst).Perm
        ((done ++ (name, value) :: fields).map Prod.fst) := by
      rw [List.map_append, List.map_append]
      exact ((hplace.map Prod.fst).append_right _).trans List.perm_middle.symm
    -- Names stay distinct, of the fields in place and those to come taken together.
    rw [settledFields, List.map_cons]
    exact (ih (hmiddle.nodup_iff.mpr h)).trans
      ((hplace.append_right _).trans List.perm_middle.symm)

theorem settledFields_of_inOrder {done : List (String × Json)} (h : InOrder (done ++ fields)) :
    settledFields done fields = done ++ fields := by
  induction fields generalizing done with
  | nil => simp [settledFields]
  | cons f fields ih =>
    obtain ⟨name, value⟩ := f
    have hvalue : value.settled = value := h.settled (name, value) (by simp)
    have hlast : ∀ f ∈ done, f.1 < name := fun f hf =>
      (List.pairwise_append.mp h.sorted).2.2 f hf (name, value) List.mem_cons_self
    rw [settledFields, hvalue, placeField_of_last hlast]
    have hassoc : done ++ (name, value) :: fields = (done ++ [(name, value)]) ++ fields := by simp
    rw [hassoc] at h ⊢
    exact ih h

mutual

theorem isSettled_settled : (j : Json) → j.settled.IsSettled
  | .null => rfl
  | .bool _ => rfl
  | .int _ => rfl
  | .float _ => rfl
  | .text _ => rfl
  | .list items => congrArg Json.list (settledItems_settledItems items)
  | .object fields => congrArg Json.object (settledFields_of_inOrder (inOrder_settledFields inOrder_nil fields))

theorem settledItems_settledItems : (items : List Json) →
    settledItems (settledItems items) = settledItems items
  | [] => rfl
  | item :: items => by
    have hitem := isSettled_settled item
    rw [settledItems, settledItems, hitem, settledItems_settledItems items]

theorem inOrder_settledFields {done : List (String × Json)} (h : InOrder done) :
    (fields : List (String × Json)) → InOrder (settledFields done fields)
  | [] => h
  | (_, value) :: fields =>
    inOrder_settledFields (h.placeField (isSettled_settled value)) fields

end

end ClusterMesh.Json
