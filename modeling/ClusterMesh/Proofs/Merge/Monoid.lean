import ClusterMesh.Proofs.Merge.Convergence

/-!
# Merging values of one form

Each form of values has a rule of its own by which two of them are merged. Within a form it does
not matter in which order three values are merged, as long as they keep their places: the outcome
is the same value, with its members in the same order. An absent value on either side changes
nothing. To exchange the two sides of sets, groups and tagged texts changes the order of the
members alone.
-/

namespace ClusterMesh.ReplicatedValue

/-- What decides how two values are merged: their kind, and of texts whether they are tagged. -/
inductive Form
  | scalar
  | plain
  | tagged
  | set
  | list
  | nodes
deriving DecidableEq, Repr

def form : ReplicatedValue → Form
  | scalar _ => .scalar
  | text s => if Tagged.isTagged s then .tagged else .plain
  | set _ => .set
  | list _ => .list
  | nodes _ => .nodes

/-- All values that are present are of one form. -/
def HasForm (form : Form) (value : Option ReplicatedValue) : Prop := ∀ a ∈ value, a.form = form

variable {a b c : ReplicatedValue} {x y z : Option ReplicatedValue} {k : Form}

/-- Two values of one form, with the rule that unites them. -/
inductive Alike : ReplicatedValue → ReplicatedValue → Prop
  | scalar (v w : Json) : Alike (scalar v) (scalar w)
  | plain {s t : String} (hs : Tagged.isTagged s = false) (ht : Tagged.isTagged t = false) :
      Alike (text s) (text t)
  | tagged {s t : String} (hs : Tagged.isTagged s = true) (ht : Tagged.isTagged t = true) :
      Alike (text s) (text t)
  | set (s t : TextSet) : Alike (set s) (set t)
  | list (s t : List String) : Alike (list s) (list t)
  | nodes (g h : Group) : Alike (nodes g) (nodes h)

theorem alike_of_form (h : a.form = b.form) : Alike a b := by
  cases a <;> cases b
  case scalar.scalar v w => exact .scalar v w
  case set.set s t => exact .set s t
  case list.list s t => exact .list s t
  case nodes.nodes g g' => exact .nodes g g'
  case text.text s t =>
    cases hs : Tagged.isTagged s <;> cases ht : Tagged.isTagged t <;> simp [form, hs, ht] at h
    · exact .plain hs ht
    · exact .tagged hs ht
  -- what is left are values of two kinds, one of which may be a text
  all_goals simp [form] at h
  all_goals split at h <;> cases h

theorem mergeBoth_tagged {s t : String} (h : Tagged.isTagged t = true) :
    mergeBoth (text s) (text t) = text (Tagged.merge s t) := by
  simp [mergeBoth, h]

theorem mergeBoth_plain {s t : String} (hs : Tagged.isTagged s = false)
    (ht : Tagged.isTagged t = false) : mergeBoth (text s) (text t) = text t := by
  simp [mergeBoth, hs, ht]

theorem kind_mergeBoth (a b : ReplicatedValue) : (mergeBoth a b).kind = b.kind := by
  cases a <;> cases b
  case text.text s t =>
    rw [mergeBoth]
    split <;> rfl
  all_goals rfl

theorem form_mergeBoth (h : a.form = b.form) : (mergeBoth a b).form = b.form := by
  cases alike_of_form h with
  | plain hs ht => rw [mergeBoth_plain hs ht]
  | tagged hs ht => simp [mergeBoth_tagged ht, form, ht, Tagged.isTagged_merge ht]
  | scalar v w => rfl
  | set s t => rfl
  | list s t => rfl
  | nodes g g' => rfl

theorem mergeBoth_assoc (hab : a.form = b.form) (hbc : b.form = c.form) :
    mergeBoth a (mergeBoth b c) = mergeBoth (mergeBoth a b) c := by
  cases alike_of_form hab with
  | scalar v w =>
    cases alike_of_form hbc
    rfl
  | plain hs ht =>
    cases alike_of_form hbc with
    | plain _ hu =>
      rw [mergeBoth_plain ht hu, mergeBoth_plain hs hu, mergeBoth_plain hs ht,
        mergeBoth_plain ht hu]
    | tagged ht' _ => cases ht.symm.trans ht'
  | tagged hs ht =>
    cases alike_of_form hbc with
    | plain ht' _ => cases ht.symm.trans ht'
    | tagged _ hu =>
      rw [mergeBoth_tagged hu, mergeBoth_tagged (Tagged.isTagged_merge hu), mergeBoth_tagged ht,
        mergeBoth_tagged hu, Tagged.merge_assoc]
  | set s t =>
    cases alike_of_form hbc with
    | set _ u => exact congrArg set (KeyedList.union_assoc s t u)
  | list s t =>
    cases alike_of_form hbc with
    | list _ u => exact congrArg list (List.append_assoc u t s)
  | nodes g g' =>
    cases alike_of_form hbc with
    | nodes _ g'' =>
      simp only [mergeBoth]
      rw [KeyedList.union_assoc]

theorem merge_assoc (hx : HasForm k x) (hy : HasForm k y) (hz : HasForm k z) :
    merge x (merge y z) = merge (merge x y) z := by
  cases x with
  | none => rfl
  | some a =>
    cases y with
    | none => rfl
    | some b =>
      cases z with
      | none => rfl
      | some c =>
        have hab : a.form = b.form := (hx a rfl).trans (hy b rfl).symm
        have hbc : b.form = c.form := (hy b rfl).trans (hz c rfl).symm
        exact congrArg some (mergeBoth_assoc hab hbc)

theorem hasForm_merge (hx : HasForm k x) (hy : HasForm k y) : HasForm k (merge x y) := by
  cases x with
  | none => exact hy
  | some a =>
    cases y with
    | none => exact hx
    | some b =>
      intro v hv
      obtain rfl := Option.some.inj hv
      rw [form_mergeBoth ((hx a rfl).trans (hy b rfl).symm), hy b rfl]

theorem merge_none (x : Option ReplicatedValue) : merge x none = x := by
  cases x <;> rfl

theorem mem_elements_swap {joining : JoiningKind} (ha : a.joiningKind? = some joining)
    (hb : b.joiningKind? = some joining) {element : String} :
    element ∈ (mergeBoth a b).elements ↔ element ∈ (mergeBoth b a).elements := by
  rw [mem_elements_mergeBoth ha hb, mem_elements_mergeBoth hb ha, or_comm]

/-- The values of a form, with an absent one, are a monoid under merging: the same value comes
out, to the last member and character, wherever one begins. The outcome is of the kind of the
existing value. Which of two values that are united is the incoming one does not matter to what
they hold together. -/
theorem merge_monoid :
    (∀ k x y z, HasForm k x → HasForm k y → HasForm k z →
      merge x (merge y z) = merge (merge x y) z ∧ HasForm k (merge x y)) ∧
    (∀ x, merge none x = x ∧ merge x none = x) ∧
    (∀ a b, ∃ v, merge (some a) (some b) = some v ∧ v.kind = b.kind) ∧
    ∀ joining a b, a.joiningKind? = some joining → b.joiningKind? = some joining →
      ∃ v w, merge (some a) (some b) = some v ∧ merge (some b) (some a) = some w ∧
        ∀ element, element ∈ v.elements ↔ element ∈ w.elements := by
  refine ⟨fun k x y z hx hy hz => ⟨merge_assoc hx hy hz, hasForm_merge hx hy⟩,
    fun x => ⟨rfl, merge_none x⟩, fun a b => ⟨mergeBoth a b, rfl, kind_mergeBoth a b⟩, ?_⟩
  intro joining a b ha hb
  exact ⟨mergeBoth a b, mergeBoth b a, rfl, rfl, fun _ => mem_elements_swap ha hb⟩

/-- Three texts of which two have no item: of those two the existing one stays as it is written. -/
theorem merge_monoid_sample :
    let x := some (text "MERGABLE[b, a]")
    let y := some (text "MERGABLE[ ]")
    let z := some (text "MERGABLE[,]")
    HasForm .tagged x ∧ HasForm .tagged y ∧ HasForm .tagged z ∧
      merge x (merge y z) = merge (merge x y) z ∧
      merge (some (text "MERGABLE[ ]")) z = z := by
  have hform : ∀ s : String, Tagged.isTagged s = true → HasForm .tagged (some (text s)) := by
    intro s hs v hv
    obtain rfl := Option.some.inj hv
    simp [form, hs]
  have hx := hform "MERGABLE[b, a]" (by decide +kernel)
  have hy := hform "MERGABLE[ ]" (by decide +kernel)
  have hz := hform "MERGABLE[,]" (by decide +kernel)
  have hlast : mergeBoth (text "MERGABLE[ ]") (text "MERGABLE[,]") = text "MERGABLE[,]" := by
    rw [mergeBoth_tagged (by decide +kernel), Tagged.merge_of_isEmpty (by decide +kernel)]
  exact ⟨hx, hy, hz, (merge_monoid.1 .tagged _ _ _ hx hy hz).1, congrArg some hlast⟩

end ClusterMesh.ReplicatedValue
