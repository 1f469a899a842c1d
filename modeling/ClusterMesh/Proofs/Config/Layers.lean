import ClusterMesh.Config.Source
import ClusterMesh.Proofs.Config.Library

/-!
# The layers of a configuration

Every typed setting comes from the variable of its name, from the file where there is no such
variable, and has its default where there is neither. A section that the file writes as a list
has its settings by position, and only as long as no variable names one of them.
-/

namespace ClusterMesh

open Setting

/-! ### Settings and their names -/

/-- The settings that have a type of their own. -/
inductive Field
  | intervalMs
  | timeoutMs
  | pool
  | defaultTimeoutMs
  | validateIds
  | channelCapacity
  | nodeId
  | nickname
  | host
  | port
deriving DecidableEq, Repr

namespace Field

def all : List Field :=
  [intervalMs, timeoutMs, pool, defaultTimeoutMs, validateIds, channelCapacity, nodeId, nickname,
    host, port]

def sectionName : Field → String
  | intervalMs | timeoutMs | pool => "dispatch"
  | defaultTimeoutMs | validateIds => "commands"
  | channelCapacity => "transport"
  | nodeId | nickname | host | port => "node"

def name : Field → String
  | intervalMs => "interval_ms"
  | timeoutMs => "timeout_ms"
  | pool => "pool"
  | defaultTimeoutMs => "default_timeout_ms"
  | validateIds => "validate_ids"
  | channelCapacity => "channel_capacity"
  | nodeId => "id"
  | nickname => "alias"
  | host => "host"
  | port => "port"

/-- The place of a setting in its section. -/
def position : Field → Nat
  | intervalMs | defaultTimeoutMs | channelCapacity | nodeId => 0
  | timeoutMs | validateIds | nickname => 1
  | pool | host => 2
  | port => 3

/-- The name of the variable for a setting, in small letters. -/
def variableName (f : Field) : String := "meshsync__" ++ f.sectionName ++ "__" ++ f.name

variable {f g : Field}

theorem mem_all (f : Field) : f ∈ all := by cases f <;> decide

theorem eq_of_name_eq (h : f.name = g.name) : f = g := by
  have hall : ∀ f ∈ all, ∀ g ∈ all, f.name = g.name → f = g := by decide +kernel
  exact hall f f.mem_all g g.mem_all h

theorem variableName_inj : f.variableName = g.variableName ↔ f = g := by
  refine ⟨fun h => ?_, fun h => h ▸ rfl⟩
  have hall : ∀ f ∈ all, ∀ g ∈ all, f.variableName = g.variableName → f = g := by
    decide +kernel
  exact hall f f.mem_all g g.mem_all h

end Field

/-! ### What the environment sets -/

namespace Environment

variable {env : Environment} {f : Field}

def isOurs (name : String) : Bool := opening.isPrefixOf (Text.toSmall name).toList

/-- Every variable that counts is the variable of a setting, and no two are of the same name in
small letters. -/
structure NamesSettings (env : Environment) : Prop where
  known : ∀ v ∈ env, isOurs v.1 = true → ∃ f : Field, Text.toSmall v.1 = f.variableName
  differ : env.Pairwise fun v w => isOurs v.1 = true → Text.toSmall v.1 ≠ Text.toSmall w.1

/-- The value of the variable of a setting. -/
def value? (env : Environment) (f : Field) : Option Setting :=
  (env.find? fun v => Text.toSmall v.1 == f.variableName).map fun v => value v.2

/-- Whether there is a variable of a setting of the section. -/
def opens (env : Environment) (sectionName : String) : Bool :=
  Field.all.any fun f => f.sectionName == sectionName && (env.value? f).isSome

theorem NamesSettings.tail {v : String × String} (h : NamesSettings (v :: env)) :
    NamesSettings env :=
  ⟨fun w hw => h.known w (List.mem_cons_of_mem v hw), (List.pairwise_cons.mp h.differ).2⟩

theorem isOurs_of_variableName {name : String} (h : Text.toSmall name = f.variableName) :
    isOurs name = true := by
  rw [isOurs, h]
  cases f <;> decide +kernel

theorem name?_of_variableName {name : String} (h : Text.toSmall name = f.variableName) :
    name? name = some (f.sectionName ++ "." ++ f.name) := by
  have hname : String.ofList (dotted ((f.variableName).toList.drop opening.length)) =
      f.sectionName ++ "." ++ f.name := by cases f <;> decide +kernel
  have hours : opening.isPrefixOf f.variableName.toList = true := h ▸ isOurs_of_variableName h
  simp only [name?, h, hours, if_true, hname]

theorem value_ne_table {text : String} (entries : List (String × Setting)) :
    value text ≠ .table entries := by
  simp only [value]
  split
  · simp
  split
  · simp
  split <;> simp

theorem value?_cons_self {name text : String} (h : Text.toSmall name = f.variableName) :
    value? ((name, text) :: env) f = some (value text) := by
  simp [value?, h]

theorem value?_cons_of_ne {name text : String} (h : Text.toSmall name ≠ f.variableName) :
    value? ((name, text) :: env) f = value? env f := by
  simp [value?, h]

theorem value?_cons_other {name text : String} {g : Field}
    (h : Text.toSmall name = g.variableName) (hne : f ≠ g) :
    value? ((name, text) :: env) f = value? env f :=
  value?_cons_of_ne fun he => hne (Field.variableName_inj.mp (he.symm.trans h))

theorem value?_eq_none (h : ∀ v ∈ env, Text.toSmall v.1 ≠ f.variableName) : value? env f = none := by
  rw [value?, Option.map_eq_none_iff, List.find?_eq_none]
  exact fun v hv heq => h v hv (beq_iff_eq.mp heq)

theorem opens_iff {sectionName : String} :
    env.opens sectionName = true ↔ ∃ f : Field, f.sectionName = sectionName ∧ (env.value? f).isSome := by
  simp [opens, Field.mem_all]

theorem value?_eq_none_of_opens (h : env.opens f.sectionName = false) : env.value? f = none := by
  refine Option.not_isSome_iff_eq_none.mp fun hsome => ?_
  rw [opens_iff.mpr ⟨f, rfl, hsome⟩] at h
  cases h

theorem opens_cons {name text sectionName : String} (h : Text.toSmall name = f.variableName) :
    opens ((name, text) :: env) sectionName = (f.sectionName == sectionName || env.opens sectionName) := by
  rw [Bool.eq_iff_iff, Bool.or_eq_true, beq_iff_eq, opens_iff, opens_iff]
  constructor
  · rintro ⟨g, hsection, hsome⟩
    by_cases hg : g = f
    · exact Or.inl (hg ▸ hsection)
    · exact Or.inr ⟨g, hsection, value?_cons_other h hg ▸ hsome⟩
  · rintro (hsection | ⟨g, hsection, hsome⟩)
    · exact ⟨f, hsection, by rw [value?_cons_self h]; rfl⟩
    · refine ⟨g, hsection, ?_⟩
      by_cases hg : g = f
      · rw [hg, value?_cons_self h]
        rfl
      · rw [value?_cons_other h hg]
        exact hsome

end Environment

/-! ### Laying the environment over a tree -/

namespace Setting

def child? (s : Setting) (name : String) : Option Setting := s.entriesOrNone.lookup name

/-- The setting of a section under a name, or at a position if the section is a list. -/
def part? (s : Setting) (name : String) (position : Nat) : Option Setting :=
  match s with
  | list items => items[position]?
  | s => s.child? name

/-- What a tree has under the names of a setting. -/
def named? (tree : Setting) (f : Field) : Option Setting :=
  (tree.child? f.sectionName).bind fun s => s.child? f.name

/-- What a tree has for a setting, where a section may be a list. -/
def held? (tree : Setting) (f : Field) : Option Setting :=
  (tree.child? f.sectionName).bind fun s => s.part? f.name f.position

/-- Write a value under the names of a setting. -/
def assign (tree : Setting) (f : Field) (value : Setting) : Setting :=
  table (changeEntry f.sectionName
    (fun s => table (writeEntry f.name value s.entriesOrNone)) tree.entriesOrNone)

variable {tree v : Setting} {f g : Field}

theorem child?_assign_self : (tree.assign f v).child? f.sectionName =
    some (table (writeEntry f.name v ((tree.child? f.sectionName).getD null).entriesOrNone)) :=
  lookup_writeEntry_self

theorem child?_assign_of_ne {name : String} (h : name ≠ f.sectionName) :
    (tree.assign f v).child? name = tree.child? name :=
  lookup_writeEntry_of_ne h

theorem named?_assign_self : (tree.assign f v).named? f = some v := by
  rw [named?, child?_assign_self, Option.bind_some]
  exact lookup_writeEntry_self

theorem named?_assign_of_ne (h : g ≠ f) : (tree.assign f v).named? g = tree.named? g := by
  by_cases hsection : g.sectionName = f.sectionName
  · rw [named?, hsection, child?_assign_self, Option.bind_some, child?, entriesOrNone,
      lookup_writeEntry_of_ne fun he => h (Field.eq_of_name_eq he), named?, hsection]
    cases tree.child? f.sectionName with
    | none => rfl
    | some s => rfl
  · rw [named?, named?, child?_assign_of_ne hsection]

end Setting

/-- A value under the path of a setting is written under its names. -/
theorem ConfigLibrary.Documented.write_field {library : ConfigLibrary} (hdoc : library.Documented)
    (f : Field) (text : String) (tree : Setting) :
    library.write (Environment.value text) (library.steps (f.sectionName ++ "." ++ f.name)) tree =
      tree.assign f (Environment.value text) := by
  have hsteps : PathStep.ofName (f.sectionName ++ "." ++ f.name) =
      [.entry f.sectionName, .entry f.name] := by cases f <;> decide +kernel
  have hsection : Text.toSmall f.sectionName = f.sectionName := by cases f <;> decide +kernel
  have hname : Text.toSmall f.name = f.name := by cases f <;> decide +kernel
  have hput : library.write (Environment.value text) [.entry f.name] =
      fun below => .table (writeEntry f.name (Environment.value text) below.entriesOrNone) := by
    funext below
    rw [hdoc.replaces _ _ below Environment.value_ne_table, hname]
  rw [hdoc.steps_eq, hsteps, hdoc.passes _ _ _ _ (List.cons_ne_nil _ _), hsection, assign,
    hput]

/-- A tree with the environment over it: a setting has the value of its variable, the sections that
the environment opens are tables, and the others are as they were. -/
structure Overlaid (tree above : Setting) (env : Environment) : Prop where
  root : ∃ entries, above = .table entries
  named : ∀ f, above.named? f = (env.value? f).or (tree.named? f)
  kept : ∀ name, env.opens name = false → above.child? name = tree.child? name
  opened : ∀ name, env.opens name = true → ∃ entries, above.child? name = some (.table entries)

namespace Overlaid

variable {library : ConfigLibrary} {tree above : Setting} {env : Environment} {name text : String}
  {g : Field}

theorem assign (h : Overlaid (tree.assign g (Environment.value text)) above env)
    (hname : Text.toSmall name = g.variableName) (hnone : env.value? g = none) :
    Overlaid tree above ((name, text) :: env) where
  root := h.root
  named f := by
    rw [h.named]
    by_cases hf : f = g
    · subst hf
      rw [hnone, Environment.value?_cons_self hname, Option.none_or, named?_assign_self]
      rfl
    · rw [Environment.value?_cons_other hname hf, named?_assign_of_ne hf]
  kept s hs := by
    rw [Environment.opens_cons hname, Bool.or_eq_false_iff, beq_eq_false_iff_ne] at hs
    rw [h.kept s hs.2, child?_assign_of_ne fun he => hs.1 he.symm]
  opened s hs := by
    cases hopens : env.opens s with
    | true => exact h.opened s hopens
    | false =>
      -- nothing else opens the section, so it is the table that the value was written into
      rw [Environment.opens_cons hname, hopens, Bool.or_false, beq_iff_eq] at hs
      rw [h.kept s hopens, ← hs, child?_assign_self]
      exact ⟨_, rfl⟩

/-- The environment over a tree, by induction on its variables. -/
theorem overlay_settings (hdoc : library.Documented) (henv : env.NamesSettings)
    (hroot : ∃ entries, tree = .table entries) :
    Overlaid tree (library.overlay tree (library.settings env)) env := by
  rw [hdoc.settings_eq]
  induction env generalizing tree with
  | nil =>
    refine ⟨hroot, fun _ => rfl, fun _ _ => rfl, fun s hs => ?_⟩
    obtain ⟨f, -, hsome⟩ := Environment.opens_iff.mp hs
    cases hsome
  | cons v env ih =>
    obtain ⟨name, text⟩ := v
    by_cases hours : Environment.isOurs name = true
    · obtain ⟨g, hg⟩ := henv.known (name, text) List.mem_cons_self hours
      have hnone : Environment.value? env g = none :=
        Environment.value?_eq_none fun v hv he =>
          (List.pairwise_cons.mp henv.differ).1 v hv hours (hg.trans he.symm)
      have hstep : library.overlay tree (Environment.settings ((name, text) :: env)) =
          library.overlay (tree.assign g (Environment.value text)) (Environment.settings env) := by
        rw [Environment.settings, List.filterMap_cons, Environment.name?_of_variableName hg,
          ConfigLibrary.overlay, Option.map_some, List.foldl_cons, hdoc.write_field]
        rfl
      rw [hstep]
      exact (ih henv.tail ⟨_, rfl⟩).assign hg hnone
    · have hne : ∀ f : Field, Text.toSmall name ≠ f.variableName := fun f he =>
        hours (Environment.isOurs_of_variableName he)
      have hvalues : ∀ f, Environment.value? ((name, text) :: env) f = Environment.value? env f :=
        fun f => Environment.value?_cons_of_ne (hne f)
      have hopens : ∀ s, Environment.opens ((name, text) :: env) s = Environment.opens env s := by
        intro s
        simp only [Environment.opens, hvalues]
      have hstep : Environment.settings ((name, text) :: env) = Environment.settings env := by
        rw [Environment.settings, List.filterMap_cons_none]
        · rfl
        · exact Option.map_eq_none_iff.mpr (if_neg hours)
      have hrest := ih henv.tail hroot
      rw [hstep]
      exact ⟨hrest.root, fun f => hvalues f ▸ hrest.named f, fun s hs => hrest.kept s (hopens s ▸ hs),
        fun s hs => hrest.opened s (hopens s ▸ hs)⟩

end Overlaid

/-! ### The layer that a setting comes from -/

/-- The value that counts for a setting: of its variable, else of the document, in which a section
that is a list counts as long as the environment does not open it. -/
def Field.chosen? (f : Field) (document : List (String × Setting)) (env : Environment) :
    Option Setting :=
  (env.value? f).or <| ((Setting.table document).small.child? f.sectionName).bind fun s =>
    match s with
    | .list items => if env.opens f.sectionName then none else items[f.position]?
    | s => s.child? f.name

theorem Overlaid.held?_eq_chosen? {document : List (String × Setting)} {above : Setting}
    {env : Environment} (h : Overlaid (Setting.table document).small above env) (f : Field) :
    above.held? f = f.chosen? document env := by
  rw [Field.chosen?]
  cases hopens : env.opens f.sectionName with
  | true =>
    obtain ⟨entries, hentries⟩ := h.opened _ hopens
    have hheld : above.held? f = above.named? f := by
      rw [held?, named?, hentries]
      rfl
    rw [hheld, h.named, named?]
    congr 2
    funext s
    cases s <;> rfl
  | false =>
    rw [Environment.value?_eq_none_of_opens hopens, Option.none_or, held?, h.kept _ hopens]
    congr 1

end ClusterMesh
