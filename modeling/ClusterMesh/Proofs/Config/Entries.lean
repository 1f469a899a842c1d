import ClusterMesh.Proofs.Config.Layers
import ClusterMesh.Proofs.Text.SmallLetters

/-!
# What layers leave in a tree

Whatever is put into a tree stands under a name in small letters, in a table whose names differ. What
is put under a name, or at a path that begins with it, leaves alone what the tree has under the other
names.
-/

namespace ClusterMesh

namespace Setting

variable {root s v value : Setting} {name n : String} {entries es : List (String × Setting)}
  {e : String × Setting} {step : PathStep} {steps : List PathStep}

/-! ### Names -/

def names (s : Setting) : List String := s.entriesOrNone.map Prod.fst

theorem child?_table : (table es).child? n = es.lookup n := rfl

theorem child?_eq_none_iff : s.child? n = none ↔ n ∉ s.names := by
  rw [child?, List.lookup_eq_none_iff]
  constructor
  · intro h hmem
    obtain ⟨e, he, rfl⟩ := List.mem_map.mp hmem
    exact absurd rfl (bne_iff_ne.mp (h e he))
  · exact fun h e he => bne_iff_ne.mpr fun heq => h (List.mem_map.mpr ⟨e, he, heq.symm⟩)

theorem mem_names_writeEntry : n ∈ (table (writeEntry name v es)).names ↔
    n ∈ (table es).names ∨ n = name := by
  rw [← not_iff_not, not_or, ← child?_eq_none_iff, ← child?_eq_none_iff]
  by_cases hn : n = name
  · rw [hn, child?, entriesOrNone, lookup_writeEntry_self]
    simp
  · rw [child?, entriesOrNone, lookup_writeEntry_of_ne hn]
    simp [hn, child?, entriesOrNone]

theorem nodup_writeEntry (h : (es.map Prod.fst).Nodup) :
    ((writeEntry name v es).map Prod.fst).Nodup := by
  induction es with
  | nil => exact List.nodup_singleton name
  | cons e es ih =>
    obtain ⟨k, w⟩ := e
    rw [List.map_cons, List.nodup_cons] at h
    by_cases hk : k = name
    · simpa only [writeEntry, if_pos hk, List.map_cons, List.nodup_cons] using h
    · have hmem : k ∉ (writeEntry name v es).map Prod.fst := fun hmem =>
        (mem_names_writeEntry.mp hmem).elim h.1 hk
      simpa only [writeEntry, if_neg hk, List.map_cons, List.nodup_cons] using ⟨hmem, ih h.2⟩

theorem mem_writeEntry (h : e ∈ writeEntry name v es) : e ∈ es ∨ e = (name, v) := by
  induction es with
  | nil => exact Or.inr (List.mem_singleton.mp h)
  | cons d es ih =>
    obtain ⟨k, w⟩ := d
    rw [writeEntry] at h
    split at h
    next hk =>
      rcases List.mem_cons.mp h with rfl | hrest
      · exact Or.inr (hk ▸ rfl)
      · exact Or.inl (List.mem_cons_of_mem _ hrest)
    next =>
      rcases List.mem_cons.mp h with rfl | hrest
      · exact Or.inl List.mem_cons_self
      · exact (ih hrest).imp_left (List.mem_cons_of_mem _)

/-- The names in a table differ, and they are in small letters. -/
structure IsTidy (s : Setting) : Prop where
  nodup : s.names.Nodup
  small : ∀ n ∈ s.names, Text.toSmall n = n

theorem isTidy_of_entriesOrNone (h : s.entriesOrNone = []) : s.IsTidy := by
  constructor <;> simp [names, h]

theorem IsTidy.writeEntry (h : s.IsTidy) (name : String) (v : Setting) :
    (table (writeEntry (Text.toSmall name) v s.entriesOrNone)).IsTidy where
  nodup := nodup_writeEntry h.nodup
  small n hn := by
    rcases mem_names_writeEntry.mp hn with hold | rfl
    · exact h.small n hold
    · exact Text.toSmall_toSmall name

/-! ### Putting a value under a name -/

/-- What comes to stand under a name: a value as it is, or a table merged into what is there. -/
def merged (below : Option Setting) : Setting → Setting
  | table incoming => putAll (below.getD (table [])) incoming
  | v => v

theorem put_eq (root : Setting) (name : String) (v : Setting) : put root name v =
    table (writeEntry (Text.toSmall name) (merged (root.child? (Text.toSmall name)) v)
      root.entriesOrNone) := by
  cases v with
  | table incoming => rw [put, merged, child?]
  | _ => rfl

theorem child?_put_self : (put root name v).child? (Text.toSmall name) =
    some (merged (root.child? (Text.toSmall name)) v) := by
  rw [put_eq]
  exact lookup_writeEntry_self

theorem child?_put_of_ne (h : n ≠ Text.toSmall name) : (put root name v).child? n = root.child? n := by
  rw [put_eq]
  exact lookup_writeEntry_of_ne h

theorem IsTidy.put (h : root.IsTidy) (name : String) (v : Setting) : (put root name v).IsTidy := by
  rw [put_eq]
  exact h.writeEntry name _

theorem IsTidy.putAll (h : root.IsTidy) (entries : List (String × Setting)) :
    (putAll root entries).IsTidy := by
  induction entries generalizing root with
  | nil =>
    rw [Setting.putAll]
    exact h
  | cons e entries ih =>
    rw [Setting.putAll]
    exact ih (h.put e.1 e.2)

theorem putAll_eq_table (entries : List (String × Setting)) (h : ∃ es, root = table es) :
    ∃ es, Setting.putAll root entries = table es := by
  induction entries generalizing root with
  | nil =>
    rw [Setting.putAll]
    exact h
  | cons e entries ih =>
    rw [Setting.putAll]
    exact ih ⟨_, put_eq root e.1 e.2⟩

theorem mem_names_put : n ∈ (put root name v).names ↔ n ∈ root.names ∨ n = Text.toSmall name := by
  rw [put_eq, mem_names_writeEntry]
  rfl

theorem mem_names_putAll : n ∈ (putAll root entries).names ↔
    n ∈ root.names ∨ ∃ e ∈ entries, n = Text.toSmall e.1 := by
  induction entries generalizing root with
  | nil =>
    rw [putAll]
    simp
  | cons e entries ih =>
    rw [putAll, ih, mem_names_put, or_assoc]
    simp

theorem child?_putAll_of_ne (h : ∀ e ∈ entries, n ≠ Text.toSmall e.1) :
    (putAll root entries).child? n = root.child? n := by
  induction entries generalizing root with
  | nil => rw [putAll]
  | cons e entries ih =>
    rw [putAll, ih fun d hd => h d (List.mem_cons_of_mem e hd),
      child?_put_of_ne (h e List.mem_cons_self)]

theorem child?_putAll_of_mem (root : Setting) (hnodup : (entries.map fun e => Text.toSmall e.1).Nodup)
    (he : e ∈ entries) : (putAll root entries).child? (Text.toSmall e.1) =
      some (merged (root.child? (Text.toSmall e.1)) e.2) := by
  induction entries generalizing root with
  | nil => cases he
  | cons d entries ih =>
    rw [List.map_cons, List.nodup_cons] at hnodup
    rw [putAll]
    rcases List.mem_cons.mp he with rfl | hrest
    · have hothers : ∀ d ∈ entries, Text.toSmall e.1 ≠ Text.toSmall d.1 :=
        fun d hd heq => hnodup.1 (List.mem_map.mpr ⟨d, hd, heq.symm⟩)
      rw [child?_putAll_of_ne hothers, child?_put_self]
    · have hne : Text.toSmall e.1 ≠ Text.toSmall d.1 :=
        fun heq => hnodup.1 (List.mem_map.mpr ⟨e, hrest, heq⟩)
      rw [ih _ hnodup.2 hrest, child?_put_of_ne hne]

/-! ### Writing a value at the end of a path -/

section

variable {library : ConfigLibrary} (hdoc : library.Documented)

include hdoc

theorem child?_write_self (value root : Setting) (name : String) (hsteps : steps ≠ []) :
    (library.write value (.entry name :: steps) root).child? (Text.toSmall name) =
      some (library.write value steps ((root.child? (Text.toSmall name)).getD null)) := by
  rw [hdoc.passes _ _ _ _ hsteps]
  exact lookup_writeEntry_self

theorem child?_write_of_ne (value root : Setting) (steps : List PathStep)
    (h : n ≠ Text.toSmall name) :
    (library.write value (.entry name :: steps) root).child? n = root.child? n := by
  by_cases hsteps : steps = []
  · rw [hsteps, hdoc.write_entry]
    exact child?_put_of_ne h
  · rw [hdoc.passes _ _ _ _ hsteps]
    exact lookup_writeEntry_of_ne h

theorem write_eq_table (value root : Setting) (name : String) (steps : List PathStep) :
    ∃ es, library.write value (.entry name :: steps) root = table es := by
  by_cases hsteps : steps = []
  · rw [hsteps, hdoc.write_entry]
    exact ⟨_, put_eq root name value⟩
  · exact ⟨_, hdoc.passes _ _ _ _ hsteps⟩

theorem text?_write (hsteps : steps ≠ []) : (library.write value steps root).text? = none := by
  obtain ⟨step, steps, rfl⟩ := List.exists_cons_of_ne_nil hsteps
  cases step with
  | entry name =>
    obtain ⟨es, heq⟩ := write_eq_table hdoc value root name steps
    rw [heq]
    rfl
  | position index =>
    obtain ⟨items, heq⟩ := hdoc.lists value index steps root
    rw [heq]
    rfl

theorem IsTidy.write (h : root.IsTidy) (value : Setting) (hsteps : steps ≠ []) :
    (library.write value steps root).IsTidy := by
  match steps with
  | [.entry name] =>
    rw [hdoc.write_entry]
    exact h.put name value
  | .entry name :: step :: steps =>
    rw [hdoc.passes _ _ _ _ (List.cons_ne_nil step steps)]
    exact h.writeEntry name _
  | .position index :: steps =>
    obtain ⟨items, heq⟩ := hdoc.lists value index steps root
    rw [heq]
    exact isTidy_of_entriesOrNone rfl

end

/-! ### Layers -/

/-- The tables in a tree are tidy. -/
def HasTidyChildren (root : Setting) : Prop := ∀ n s, root.child? n = some s → s.IsTidy

theorem hasTidyChildren_empty : (table []).HasTidyChildren := by
  intro n s hs
  cases hs

theorem HasTidyChildren.isTidy_getD (h : root.HasTidyChildren) {other : Setting}
    (hother : other.IsTidy) : ((root.child? n).getD other).IsTidy := by
  cases hchild : root.child? n with
  | none => exact hother
  | some s => exact h n s hchild

theorem HasTidyChildren.isTidy_merged (h : root.HasTidyChildren) (n : String) (v : Setting) :
    (merged (root.child? n) v).IsTidy := by
  cases v with
  | table incoming => exact (h.isTidy_getD (isTidy_of_entriesOrNone rfl)).putAll incoming
  | _ => exact isTidy_of_entriesOrNone rfl

section

variable {library : ConfigLibrary} (hdoc : library.Documented) {layer : List (String × Setting)}

include hdoc

theorem HasTidyChildren.write (h : root.HasTidyChildren) (value : Setting) (name : String)
    (steps : List PathStep) :
    (library.write value (.entry name :: steps) root).HasTidyChildren := by
  intro n s hs
  by_cases hn : n = Text.toSmall name
  · subst hn
    by_cases hsteps : steps = []
    · rw [hsteps, hdoc.write_entry, child?_put_self] at hs
      obtain rfl := Option.some.inj hs
      exact h.isTidy_merged _ value
    · rw [child?_write_self hdoc value root name hsteps] at hs
      obtain rfl := Option.some.inj hs
      exact (h.isTidy_getD (isTidy_of_entriesOrNone rfl)).write hdoc value hsteps
  · exact h n s ((child?_write_of_ne hdoc value root steps hn).symm.trans hs)

theorem HasTidyChildren.overlay (h : root.HasTidyChildren) (layer : List (String × Setting)) :
    (library.overlay root layer).HasTidyChildren := by
  induction layer generalizing root with
  | nil => exact h
  | cons e layer ih =>
    obtain ⟨first, steps, hpath⟩ := PathStep.ofName_eq_cons e.1
    rw [ConfigLibrary.overlay, List.foldl_cons, hdoc.steps_eq, hpath]
    exact ih (h.write hdoc e.2 first steps)

theorem overlay_eq_table (h : ∃ es, root = table es) (layer : List (String × Setting)) :
    ∃ es, library.overlay root layer = table es := by
  induction layer generalizing root with
  | nil => exact h
  | cons e layer ih =>
    obtain ⟨first, steps, hpath⟩ := PathStep.ofName_eq_cons e.1
    rw [ConfigLibrary.overlay, List.foldl_cons, hdoc.steps_eq, hpath]
    exact ih (write_eq_table hdoc e.2 root first steps)

theorem child?_overlay_of_ne (h : ∀ e ∈ layer, ∀ first steps,
    PathStep.ofName e.1 = .entry first :: steps → n ≠ Text.toSmall first) :
    (library.overlay root layer).child? n = root.child? n := by
  induction layer generalizing root with
  | nil => rfl
  | cons e layer ih =>
    obtain ⟨first, steps, hpath⟩ := PathStep.ofName_eq_cons e.1
    rw [ConfigLibrary.overlay, List.foldl_cons, hdoc.steps_eq, hpath]
    exact (ih fun d hd => h d (List.mem_cons_of_mem e hd)).trans
      (child?_write_of_ne hdoc e.2 root steps (h e List.mem_cons_self first steps hpath))

end

end Setting

end ClusterMesh
