import ClusterMesh.Config.Library
import ClusterMesh.Proofs.Config.Paths
import ClusterMesh.Proofs.Config.Trees

/-!
# What libraries have in common

The rules of a library fix the path of a name, what is written under a name, and the layer that the
environment makes. The library that a node runs with keeps the rules.
-/

namespace ClusterMesh

open Setting

variable {library : ConfigLibrary} {text variableName : String} {cs : List Char}

/-! ### Values and names of variables -/

namespace Environment

theorem value_of_bool {b : Bool} (h : Text.toSmall text = toString b) : value text = .bool b := by
  cases b with
  | true => simp [value, show Text.toSmall text = "true" from h]
  | false => simp [value, show Text.toSmall text = "false" from h]

theorem value_of_integer? {i : Int} (h : ∀ b : Bool, Text.toSmall text ≠ toString b)
    (hint : DecimalText.integer? text.toList = some i) : value text = .int i := by
  simp [value, show Text.toSmall text ≠ "true" from h true,
    show Text.toSmall text ≠ "false" from h false, hint]

theorem value_of_float? {x : Binary64} (h : ∀ b : Bool, Text.toSmall text ≠ toString b)
    (hint : DecimalText.integer? text.toList = none)
    (hfloat : DecimalText.float? text.toList = some x) : value text = .float x := by
  simp [value, show Text.toSmall text ≠ "true" from h true,
    show Text.toSmall text ≠ "false" from h false, hint, hfloat]

theorem value_of_text (h : ∀ b : Bool, Text.toSmall text ≠ toString b)
    (hint : DecimalText.integer? text.toList = none)
    (hfloat : DecimalText.float? text.toList = none) : value text = .text text := by
  simp [value, show Text.toSmall text ≠ "true" from h true,
    show Text.toSmall text ≠ "false" from h false, hint, hfloat]

theorem name?_of_opening (h : (Text.toSmall variableName).toList = opening ++ cs) :
    name? variableName = some (String.ofList (dotted cs)) := by
  have hstarts : opening.isPrefixOf (opening ++ cs) = true :=
    List.isPrefixOf_iff_prefix.mpr (List.prefix_append _ _)
  simp only [name?, h, hstarts, if_true, List.drop_left]

theorem name?_of_not_opening (h : ¬opening <+: (Text.toSmall variableName).toList) :
    name? variableName = none :=
  if_neg fun hstarts => h (List.isPrefixOf_iff_prefix.mp hstarts)

end Environment

/-! ### Writing under a name -/

theorem Setting.put_of_ne_table {root v : Setting} {name : String}
    (h : ∀ entries, v ≠ table entries) :
    put root name v = table (writeEntry (Text.toSmall name) v root.entriesOrNone) := by
  cases v with
  | table entries => exact absurd rfl (h entries)
  | _ => rfl

theorem Setting.putAll_eq_foldl (entries : List (String × Setting)) (root : Setting) :
    putAll root entries = entries.foldl (fun tree e => putPath e.2 tree [.entry e.1]) root := by
  induction entries generalizing root with
  | nil => rw [putAll, List.foldl_nil]
  | cons e entries ih =>
    rw [putAll, ih, List.foldl_cons, putPath]

namespace ConfigLibrary

theorem running_documented : running.Documented where
  follows name steps := PathStep.ofName_of_spells
  stands name := PathStep.ofName_of_not_spells
  replaces value name root h := put_of_ne_table h
  merges incoming name root := by
    change put root name (table incoming) = _
    rw [put, putAll_eq_foldl]
    rfl
  passes value name steps root hsteps := by
    obtain ⟨step, steps, rfl⟩ := List.exists_cons_of_ne_nil hsteps
    rfl
  lists value index steps root := ⟨_, rfl⟩
  names variableName rest h := by
    dsimp only [running]
    exact Environment.name?_of_opening h
  ignores variableName h := by
    dsimp only [running]
    exact Environment.name?_of_not_opening h
  bools s b h := by
    dsimp only [running]
    exact Environment.value_of_bool h
  ints s i hbool hint := by
    dsimp only [running]
    exact Environment.value_of_integer? hbool hint
  floats s x hbool hint hfloat := by
    dsimp only [running]
    exact Environment.value_of_float? hbool hint hfloat
  texts s hbool hint hfloat := by
    dsimp only [running]
    exact Environment.value_of_text hbool hint hfloat

namespace Documented

theorem steps_eq (hdoc : library.Documented) (name : String) :
    library.steps name = PathStep.ofName name := by
  by_cases h : ∃ steps, PathStep.Spells name.toList steps
  · obtain ⟨steps, hspells⟩ := h
    rw [hdoc.follows name steps hspells, PathStep.ofName_of_spells hspells]
  · rw [hdoc.stands name h, PathStep.ofName_of_not_spells h]

theorem value_eq (hdoc : library.Documented) (text : String) :
    library.value text = Environment.value text := by
  by_cases h : ∃ b : Bool, Text.toSmall text = toString b
  · obtain ⟨b, hb⟩ := h
    rw [hdoc.bools text b hb, Environment.value_of_bool hb]
  · have hbool : ∀ b : Bool, Text.toSmall text ≠ toString b := fun b hb => h ⟨b, hb⟩
    cases hint : DecimalText.integer? text.toList with
    | some i => rw [hdoc.ints text i hbool hint, Environment.value_of_integer? hbool hint]
    | none =>
      cases hfloat : DecimalText.float? text.toList with
      | some x =>
        rw [hdoc.floats text x hbool hint hfloat, Environment.value_of_float? hbool hint hfloat]
      | none =>
        rw [hdoc.texts text hbool hint hfloat, Environment.value_of_text hbool hint hfloat]

theorem name?_eq (hdoc : library.Documented) (variableName : String) :
    library.name? variableName = Environment.name? variableName := by
  by_cases h : Environment.opening <+: (Text.toSmall variableName).toList
  · obtain ⟨rest, hrest⟩ := h
    rw [hdoc.names variableName rest hrest.symm, Environment.name?_of_opening hrest.symm]
  · rw [hdoc.ignores variableName h, Environment.name?_of_not_opening h]

theorem settings_eq (hdoc : library.Documented) (env : Environment) :
    library.settings env = env.settings := by
  simp only [settings, Environment.settings, hdoc.name?_eq, hdoc.value_eq]

mutual

theorem write_entry (hdoc : library.Documented) : (value : Setting) → (name : String) →
    (root : Setting) → library.write value [.entry name] root = put root name value
  | .table incoming, name, root => by
    rw [hdoc.merges, write_entries hdoc incoming, put]
  | .list _, name, root => hdoc.replaces _ name root (by simp)
  | .null, name, root => hdoc.replaces _ name root (by simp)
  | .bool _, name, root => hdoc.replaces _ name root (by simp)
  | .int _, name, root => hdoc.replaces _ name root (by simp)
  | .float _, name, root => hdoc.replaces _ name root (by simp)
  | .text _, name, root => hdoc.replaces _ name root (by simp)

theorem write_entries (hdoc : library.Documented) : (entries : List (String × Setting)) →
    (root : Setting) →
      entries.foldl (fun tree e => library.write e.2 [.entry e.1] tree) root = putAll root entries
  | [], root => by rw [List.foldl_nil, putAll]
  | (name, value) :: entries, root => by
    rw [List.foldl_cons, write_entry hdoc value, write_entries hdoc entries, putAll]

end

theorem overlay_of_isPlain (hdoc : library.Documented) {root : Setting}
    {entries : List (String × Setting)} (h : ∀ e ∈ entries, PathStep.IsPlain e.1) :
    library.overlay root entries = putAll root entries := by
  induction entries generalizing root with
  | nil => rw [overlay, List.foldl_nil, putAll]
  | cons e entries ih =>
    obtain ⟨name, value⟩ := e
    have hplain := PathStep.ofName_of_isPlain (h (name, value) List.mem_cons_self)
    rw [overlay, List.foldl_cons, hdoc.steps_eq, hplain, hdoc.write_entry, putAll]
    exact ih fun e he => h e (List.mem_cons_of_mem _ he)

/-- A document as a tree: what is written in it, in small letters. -/
theorem overlay_document (hdoc : library.Documented) {entries : List (String × Setting)}
    (hplain : ∀ e ∈ entries, PathStep.IsPlain e.1) (hnames : (table entries).NamesDiffer) :
    library.overlay (table []) entries = (table entries).small := by
  rw [hdoc.overlay_of_isPlain hplain,
    putAll_of_new [] entries hnames.2 hnames.1 fun _ _ => List.not_mem_nil, small, List.nil_append]

end Documented

end ConfigLibrary

end ClusterMesh
