import ClusterMesh.Policy.Access
import Mathlib.Data.List.Chain
import Mathlib.Data.List.Nodup
import Mathlib.Data.List.Perm.Subperm

/-!
# The chain of parents

From every group there is exactly one chain upward: each group on it is followed by its parent,
no name comes twice, and it ends where there is no parent or the parent has come before.
-/

namespace ClusterMesh.Policy

variable {groups : Option GroupManager} {properties : Properties} {group parent : String}
variable {visited names : List String}

/-- The group manager, if there is one, knows the group, and the group declares a parent. -/
def Declares (groups : Option GroupManager) (group name : String) : Prop :=
  ∃ m g, groups = some m ∧ m.find? group = some g ∧ g.parent = some name

/-- The parent of a group is the one that it declares, or else the one that its property names,
trimmed; a blank one is none. -/
def IsParent (groups : Option GroupManager) (properties : Properties) (group parent : String) :
    Prop :=
  ∃ named, (Declares groups group named ∨ (∀ name, ¬Declares groups group name) ∧
      Table.get? properties (group ++ ".parent") = some named) ∧
    parent = Text.trim named ∧ parent ≠ ""

theorem declares_iff {name : String} :
    Declares groups group name ↔
      (groups.bind fun m => m.find? group).bind Group.parent = some name := by
  simp only [Declares, Option.bind_eq_some_iff]
  constructor
  · rintro ⟨m, g, hm, hg, hname⟩
    exact ⟨g, ⟨m, hm, hg⟩, hname⟩
  · rintro ⟨g, ⟨m, hm, hg⟩, hname⟩
    exact ⟨m, g, hm, hg, hname⟩

theorem parent?_eq_some_iff :
    parent? groups properties group = some parent ↔ IsParent groups properties group parent := by
  have hnamed : ∀ named, ((groups.bind fun m => m.find? group).bind Group.parent <|>
      Table.get? properties (Properties.parentKey group)) = some named ↔
      Declares groups group named ∨ (∀ name, ¬Declares groups group name) ∧
        Table.get? properties (group ++ ".parent") = some named := by
    intro named
    simp only [declares_iff]
    cases (groups.bind fun m => m.find? group).bind Group.parent with
    | none => simp [Properties.parentKey]
    | some declared => simp
  simp only [parent?, IsParent, Option.filter_eq_some_iff, Option.map_eq_some_iff, hnamed,
    Bool.not_eq_true', String.isEmpty_eq_false_iff]
  constructor
  · rintro ⟨⟨named, hsource, rfl⟩, hne⟩
    exact ⟨named, hsource, rfl, hne⟩
  · rintro ⟨named, hsource, rfl, hne⟩
    exact ⟨⟨named, hsource, rfl⟩, hne⟩

theorem isParent_unique {p q : String} (hp : IsParent groups properties group p)
    (hq : IsParent groups properties group q) : p = q := by
  rw [← parent?_eq_some_iff] at hp hq
  exact Option.some.inj (hp.symm.trans hq)

/-- A chain that goes on over groups that were not visited before. -/
structure Climbs (groups : Option GroupManager) (properties : Properties)
    (visited : List String) (group : String) (names : List String) : Prop where
  head : names.head? = some group
  follows : names.IsChain (IsParent groups properties)
  distinct : names.Nodup
  fresh : ∀ {name}, name ∈ names → name ∉ visited
  ends : ∀ {last parent}, names.getLast? = some last → IsParent groups properties last parent →
    parent ∈ visited ∨ parent ∈ names

theorem climbs_last (hnew : group ∉ visited)
    (hends : ∀ {p}, IsParent groups properties group p → p ∈ visited ∨ p = group) :
    Climbs groups properties visited group [group] where
  head := rfl
  follows := List.isChain_singleton group
  distinct := List.nodup_singleton group
  fresh := by
    rintro name hname
    rwa [List.mem_singleton.mp hname]
  ends := by
    rintro last p hlast hp
    obtain rfl := Option.some.inj hlast
    rw [List.mem_singleton]
    exact hends hp

theorem Climbs.cons (hnew : group ∉ visited) (hp : IsParent groups properties group parent)
    (h : Climbs groups properties (group :: visited) parent names) :
    Climbs groups properties visited group (group :: names) where
  head := rfl
  follows := by
    refine List.isChain_cons.mpr ⟨?_, h.follows⟩
    intro next hnext
    obtain rfl := Option.some.inj (h.head.symm.trans hnext)
    exact hp
  distinct := by
    refine List.nodup_cons.mpr ⟨?_, h.distinct⟩
    exact fun hmem => h.fresh hmem List.mem_cons_self
  fresh := by
    intro name hname
    rcases List.mem_cons.mp hname with rfl | hname
    · exact hnew
    · exact fun hmem => h.fresh hname (List.mem_cons_of_mem group hmem)
  ends := by
    intro last p hlast hlp
    have hne : names ≠ [] := by
      rintro rfl
      cases h.head
    rw [List.getLast?_cons_of_ne_nil hne] at hlast
    rcases h.ends hlast hlp with hmem | hmem
    · rcases List.mem_cons.mp hmem with rfl | hmem
      · exact Or.inr List.mem_cons_self
      · exact Or.inl hmem
    · exact Or.inr (List.mem_cons_of_mem group hmem)

/-! ### No chain is longer than the bound -/

theorem parentKey_injective : Function.Injective Properties.parentKey := by
  intro a b h
  have hlists := congrArg String.toList h
  simp only [Properties.parentKey, String.toList_append] at hlists
  exact String.toList_inj.mp (List.append_cancel_right hlists)

theorem mem_keys_of_isParent (h : IsParent groups properties group parent)
    (hunknown : ∀ m, groups = some m → group ∉ m.groups.keys) :
    Properties.parentKey group ∈ properties.keys := by
  obtain ⟨named, hdeclared | ⟨-, hproperty⟩, -⟩ := h
  · obtain ⟨m, g, hm, hg, -⟩ := hdeclared
    exact absurd (Table.mem_keys_iff.mpr ⟨g, hg⟩) (hunknown m hm)
  · exact Table.mem_keys_iff.mpr ⟨named, hproperty⟩

theorem length_le_chainBound (hdistinct : visited.Nodup)
    (hparents : ∀ name ∈ visited, ∃ p, IsParent groups properties name p) :
    visited.length ≤ chainBound groups properties := by
  -- the groups that the manager knows, and the others, which have a property each
  let known : String → Bool := fun name => groups.any fun m => m.groups.contains name
  have hsplit := List.length_eq_length_filter_add known (l := visited)
  have hknown : (visited.filter known).length ≤ (groups.map fun m => m.groups.size).getD 0 := by
    cases hgroups : groups with
    | none => simp [known, hgroups]
    | some m =>
      rw [Option.map_some, Option.getD_some, ← KeyedList.length_keys]
      refine (List.subperm_of_subset (hdistinct.filter _) ?_).length_le
      intro name hname
      have hcontains : m.groups.contains name = true := by
        simpa [known, hgroups] using (List.mem_filter.mp hname).2
      exact KeyedList.contains_iff.mp hcontains
  have hothers : (visited.filter fun name => !known name).length ≤ properties.size := by
    rw [← KeyedList.length_keys, ← List.length_map Properties.parentKey]
    refine (List.subperm_of_subset ((hdistinct.filter _).map parentKey_injective) ?_).length_le
    intro key hkey
    obtain ⟨name, hname, rfl⟩ := List.mem_map.mp hkey
    obtain ⟨hvisited, hunknown⟩ := List.mem_filter.mp hname
    obtain ⟨p, hp⟩ := hparents name hvisited
    refine mem_keys_of_isParent hp ?_
    rintro m rfl
    have hcontains : m.groups.contains name = false := by simpa [known] using hunknown
    rw [← KeyedList.contains_iff, hcontains]
    exact Bool.false_ne_true
  unfold chainBound
  omega

theorem chainFrom_of_mem {steps : Nat} (h : group ∈ visited) :
    chainFrom groups properties steps visited group = [] := by
  unfold chainFrom
  exact if_pos h

theorem chainFrom_last {steps : Nat} (hnew : group ∉ visited)
    (hnone : parent? groups properties group = none) :
    chainFrom groups properties steps visited group = [group] := by
  unfold chainFrom
  rw [if_neg hnew, hnone]
  cases steps <;> rfl

theorem chainFrom_succ {steps : Nat} (hnew : group ∉ visited)
    (hparent : parent? groups properties group = some parent) :
    chainFrom groups properties (steps + 1) visited group =
      group :: chainFrom groups properties steps (group :: visited) parent := by
  conv_lhs => unfold chainFrom
  rw [if_neg hnew, hparent]

/-- With steps for all the groups that have a parent and are not visited yet, the chain does not
stop for want of steps. -/
theorem climbs_chainFrom {steps : Nat} (hdistinct : visited.Nodup)
    (hparents : ∀ name ∈ visited, ∃ p, IsParent groups properties name p)
    (hsteps : chainBound groups properties ≤ visited.length + steps) (hnew : group ∉ visited) :
    Climbs groups properties visited group (chainFrom groups properties steps visited group) := by
  induction steps generalizing visited group with
  | zero =>
    have hnone : parent? groups properties group = none := by
      refine Option.eq_none_iff_forall_ne_some.mpr ?_
      intro p hp
      have hcounted := length_le_chainBound (List.nodup_cons.mpr ⟨hnew, hdistinct⟩)
        (List.forall_mem_cons.mpr ⟨⟨p, parent?_eq_some_iff.mp hp⟩, hparents⟩)
      rw [List.length_cons] at hcounted
      omega
    rw [chainFrom_last hnew hnone]
    refine climbs_last hnew ?_
    intro p hp
    rw [← parent?_eq_some_iff, hnone] at hp
    cases hp
  | succ steps ih =>
    cases hparent : parent? groups properties group with
    | none =>
      rw [chainFrom_last hnew hparent]
      refine climbs_last hnew ?_
      intro p hp
      rw [← parent?_eq_some_iff, hparent] at hp
      cases hp
    | some p =>
      have hp := parent?_eq_some_iff.mp hparent
      rw [chainFrom_succ hnew hparent]
      by_cases hrepeated : p ∈ group :: visited
      · rw [chainFrom_of_mem hrepeated]
        refine climbs_last hnew ?_
        intro q hq
        obtain rfl := isParent_unique hp hq
        exact (List.mem_cons.mp hrepeated).symm
      · refine Climbs.cons hnew hp (ih ?_ ?_ ?_ hrepeated)
        · exact List.nodup_cons.mpr ⟨hnew, hdistinct⟩
        · exact List.forall_mem_cons.mpr ⟨⟨p, hp⟩, hparents⟩
        · rw [List.length_cons]
          omega

theorem climbs_chain : Climbs groups properties [] group (chain groups properties group) :=
  climbs_chainFrom List.nodup_nil (by simp) (by simp) List.not_mem_nil

/-- A group followed by its successive parents: no name comes twice, and the last group has no
parent or one that has come before. -/
structure IsChain (groups : Option GroupManager) (properties : Properties) (group : String)
    (names : List String) : Prop where
  head : names.head? = some group
  follows : names.IsChain (IsParent groups properties)
  distinct : names.Nodup
  ends : ∀ {last parent}, names.getLast? = some last → IsParent groups properties last parent →
    parent ∈ names

theorem isChain_chain : IsChain groups properties group (chain groups properties group) where
  head := climbs_chain.head
  follows := climbs_chain.follows
  distinct := climbs_chain.distinct
  ends := fun hlast hparent =>
    (climbs_chain.ends hlast hparent).resolve_left List.not_mem_nil

theorem prefix_or_prefix {names' : List String} (hhead : names.head? = names'.head?)
    (h : names.IsChain (IsParent groups properties))
    (h' : names'.IsChain (IsParent groups properties)) : names <+: names' ∨ names' <+: names := by
  induction names generalizing names' with
  | nil => exact Or.inl List.nil_prefix
  | cons name rest ih =>
    cases names' with
    | nil => exact Or.inr List.nil_prefix
    | cons name' rest' =>
      obtain rfl := Option.some.inj hhead
      simp only [List.cons_prefix_cons, true_and]
      obtain ⟨hnext, hrest⟩ := List.isChain_cons.mp h
      obtain ⟨hnext', hrest'⟩ := List.isChain_cons.mp h'
      cases rest with
      | nil => exact Or.inl List.nil_prefix
      | cons p rest =>
        cases rest' with
        | nil => exact Or.inr List.nil_prefix
        | cons p' rest' =>
          obtain rfl := isParent_unique (hnext p rfl) (hnext' p' rfl)
          exact ih rfl hrest hrest'

theorem IsChain.eq_of_prefix {names' : List String} (h : IsChain groups properties group names)
    (h' : IsChain groups properties group names') (hbegins : names <+: names') :
    names = names' := by
  obtain ⟨more, rfl⟩ := hbegins
  cases more with
  | nil => rw [List.append_nil]
  | cons p more =>
    exfalso
    obtain ⟨start, last, rfl⟩ : ∃ start last, names = start ++ [last] := by
      rcases List.eq_nil_or_concat names with rfl | hconcat
      · cases h.head
      · simpa using hconcat
    have hparent : IsParent groups properties last p := by
      have hfollows := h'.follows
      rw [List.append_assoc, List.isChain_append] at hfollows
      exact (List.isChain_cons.mp hfollows.2.1).1 p rfl
    have hmem : p ∈ start ++ [last] := h.ends List.getLast?_concat hparent
    exact (List.nodup_append.mp h'.distinct).2.2 p hmem p List.mem_cons_self rfl

theorem IsChain.unique {names' : List String} (h : IsChain groups properties group names)
    (h' : IsChain groups properties group names') : names = names' := by
  rcases prefix_or_prefix (h.head.trans h'.head.symm) h.follows h'.follows with hp | hp
  · exact h.eq_of_prefix h' hp
  · exact (h'.eq_of_prefix h hp).symm

end ClusterMesh.Policy
