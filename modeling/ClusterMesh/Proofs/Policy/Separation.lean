import ClusterMesh.Proofs.Policy.Switching

/-!
# Edits of one list leave the others alone

Lists, parents and toggles are kept in one flat store, under keys that are joined by dots. Where
categories hold no dot the key of a list tells the list, the group, the category and the direction,
and none is the key of a parent. A call that switches an entry writes one key, so that it changes no
chain, and of the entries that groups have only those of its own list, for the groups with the edited
one on their chain.
-/

namespace ClusterMesh

open Expression (Engine)

namespace Text

theorem append_sep_inj {sep : Char} {a b x y : List Char} (hx : sep ∉ x) (hy : sep ∉ y)
    (h : a ++ sep :: x = b ++ sep :: y) : a = b ∧ x = y := by
  have hpieces := congrArg (pieces sep) h
  rw [pieces_append_sep, pieces_append_sep, pieces_of_not_mem hx, pieces_of_not_mem hy] at hpieces
  obtain ⟨hfront, hlast⟩ := List.append_inj' hpieces rfl
  refine ⟨?_, List.singleton_inj.mp hlast⟩
  rw [← joined_pieces sep a, hfront, joined_pieces]

theorem dotted_inj {a b x y : String} (hx : '.' ∉ x.toList) (hy : '.' ∉ y.toList)
    (h : a ++ "." ++ x = b ++ "." ++ y) : a = b ∧ x = y := by
  have hlists := congrArg String.toList h
  simp only [String.toList_append, List.append_assoc] at hlists
  obtain ⟨hfront, hlast⟩ := append_sep_inj hx hy hlists
  exact ⟨String.toList_inj.mp hfront, String.toList_inj.mp hlast⟩

end Text

/-! ### The keys -/

theorem Direction.text_injective : Function.Injective Direction.text := by
  intro a b h
  cases a <;> cases b <;> first | rfl | exact absurd h (by decide)

theorem ListKind.text_injective : Function.Injective ListKind.text := by
  intro a b h
  cases a <;> cases b <;> first | rfl | exact absurd h (by decide)

theorem Direction.dot_not_mem_text (direction : Direction) : '.' ∉ direction.text.toList := by
  cases direction <;> decide

theorem ListKind.dot_not_mem_text (kind : ListKind) : '.' ∉ kind.text.toList := by
  cases kind <;> decide

namespace Policy

variable {engine : Engine} {groups : Option GroupManager} {properties properties' : Properties}
variable {kind kind' : ListKind} {group group' category category' name entry : String}
variable {direction direction' : Direction} {names : List String}

/-- The key of a list tells which list it is, if the category holds no dot. -/
theorem listKey_inj (hcategory : '.' ∉ category.toList) (hcategory' : '.' ∉ category'.toList)
    (h : listKey kind group category direction = listKey kind' group' category' direction') :
    kind = kind' ∧ group = group' ∧ category = category' ∧ direction = direction' := by
  obtain ⟨hlist, hdirection⟩ :=
    Text.dotted_inj direction.dot_not_mem_text direction'.dot_not_mem_text h
  obtain ⟨howner, hkind⟩ := Text.dotted_inj kind.dot_not_mem_text kind'.dot_not_mem_text hlist
  obtain ⟨hgroup, hcategory⟩ := Text.dotted_inj hcategory hcategory' howner
  exact ⟨ListKind.text_injective hkind, hgroup, hcategory, Direction.text_injective hdirection⟩

theorem parentKey_ne_listKey :
    Properties.parentKey name ≠ listKey kind group category direction := by
  intro h
  have hsplit : Properties.parentKey name = name ++ "." ++ "parent" := by
    rw [String.append_assoc]
    rfl
  rw [hsplit] at h
  obtain ⟨-, hdirection⟩ := Text.dotted_inj (by decide) direction.dot_not_mem_text h
  cases direction <;> exact absurd hdirection (by decide)

/-- A dot in a category would let one list pass for another. -/
example : listKey .whitelist "a.b" "c" .inbound = listKey .whitelist "a" "b.c" .inbound := by
  decide

/-! ### Chains, entries and decisions -/

theorem IsChain.of_isParent_iff (h : IsChain groups properties' group names)
    (hsame : ∀ {g p}, IsParent groups properties' g p ↔ IsParent groups properties g p) :
    IsChain groups properties group names where
  head := h.head
  follows := h.follows.imp fun _ _ => hsame.mp
  distinct := h.distinct
  ends := fun hlast hparent => h.ends hlast (hsame.mpr hparent)

theorem chain_congr
    (h : ∀ name, Table.get? properties' (Properties.parentKey name) =
      Table.get? properties (Properties.parentKey name)) (group : String) :
    chain groups properties' group = chain groups properties group := by
  -- Chains are told by the parents alone, so that none of the walk along them is unfolded here.
  refine IsChain.unique (IsChain.of_isParent_iff isChain_chain ?_) isChain_chain
  intro g p
  rw [← parent?_eq_some_iff, ← parent?_eq_some_iff, parent?, parent?, h g]

theorem entries_congr (hchain : chain groups properties' group = chain groups properties group)
    (h : ∀ name ∈ chain groups properties group,
      Table.get? properties' (listKey kind name category direction) =
        Table.get? properties (listKey kind name category direction)) :
    entries groups properties' kind group category direction =
      entries groups properties kind group category direction := by
  rw [entries, entries, hchain]
  refine congrArg KeyedList.ofList (List.flatMap_congr fun name hname => ?_)
  rw [itemsAt, itemsAt, h name hname]

theorem isAllowed_congr_entries
    (h : ∀ kind, entries groups properties' kind group category direction =
      entries groups properties kind group category direction) (item : String) :
    isAllowed engine groups properties' group category direction item =
      isAllowed engine groups properties group category direction item := by
  rw [isAllowed, isAllowed, h, h]

/-! ### A call that switches an entry -/

theorem chain_switchEntry (name : String) :
    chain groups (switchEntry properties kind group category direction entry).1 name =
      chain groups properties name :=
  chain_congr (fun _ => get?_switchEntry_of_ne _ _ _ _ _ _ parentKey_ne_listKey) name

theorem entries_switchEntry_of_ne_list (hcategory : '.' ∉ category.toList)
    (hcategory' : '.' ∉ category'.toList)
    (hother : (kind', category', direction') ≠ (kind, category, direction)) (name : String) :
    entries groups (switchEntry properties kind group category direction entry).1 kind' name
        category' direction' =
      entries groups properties kind' name category' direction' := by
  refine entries_congr (chain_switchEntry name) fun above _ => ?_
  refine get?_switchEntry_of_ne _ _ _ _ _ _ fun hkey => hother ?_
  obtain ⟨rfl, -, rfl, rfl⟩ := listKey_inj hcategory' hcategory hkey
  rfl

theorem entries_switchEntry_of_not_above (hcategory : '.' ∉ category.toList)
    (hchain : group ∉ chain groups properties name) :
    entries groups (switchEntry properties kind group category direction entry).1 kind name
        category direction =
      entries groups properties kind name category direction := by
  refine entries_congr (chain_switchEntry name) fun above habove => ?_
  refine get?_switchEntry_of_ne _ _ _ _ _ _ fun hkey => hchain ?_
  obtain ⟨-, rfl, -⟩ := listKey_inj hcategory hcategory hkey
  exact habove

theorem isAllowed_switchEntry (hcategory : '.' ∉ category.toList)
    (hcategory' : '.' ∉ category'.toList)
    (hother : (category', direction') ≠ (category, direction) ∨
      group ∉ chain groups properties name) (item : String) :
    isAllowed engine groups (switchEntry properties kind group category direction entry).1 name
        category' direction' item =
      isAllowed engine groups properties name category' direction' item := by
  refine isAllowed_congr_entries (fun kind' => ?_) item
  by_cases hlist : (kind', category', direction') = (kind, category, direction)
  · simp only [Prod.mk.injEq] at hlist
    obtain ⟨rfl, rfl, rfl⟩ := hlist
    exact entries_switchEntry_of_not_above hcategory (hother.resolve_left fun hne => hne rfl)
  · exact entries_switchEntry_of_ne_list hcategory hcategory' hlist name

end Policy

namespace AccessPolicy

/-- What one policy tells and another one does, after an edit of a single list: the chains are the
same, other lists have the same entries, the edited one has the same entries for the groups that do
not have its group on their chain, and a verdict is the same unless it may depend on the edited
list. -/
structure Confined (p q : AccessPolicy) (kind : ListKind) (group category : String)
    (direction : Direction) : Prop where
  chains : ∀ name, Policy.chain q.groups q.properties name = Policy.chain p.groups p.properties name
  otherLists : ∀ {kind' category' direction'}, '.' ∉ category'.toList →
    (kind', category', direction') ≠ (kind, category, direction) → ∀ name,
      Policy.entries q.groups q.properties kind' name category' direction' =
        Policy.entries p.groups p.properties kind' name category' direction'
  otherGroups : ∀ {name}, group ∉ Policy.chain p.groups p.properties name →
    Policy.entries q.groups q.properties kind name category direction =
      Policy.entries p.groups p.properties kind name category direction
  verdicts : ∀ {name category' direction'}, '.' ∉ category'.toList →
    (category', direction') ≠ (category, direction) ∨
      group ∉ Policy.chain p.groups p.properties name → ∀ item,
      (q.decide name category' direction' item).2 = (p.decide name category' direction' item).2

/-- However a policy came about, to switch an entry of a list of a category without a dot in its name
changes nothing outside that list. -/
theorem switchEntry_confined (engine : Engine) (properties : Properties)
    (groups : Option GroupManager) (events : List Event) (kind : ListKind) (group category : String)
    (direction : Direction) (entry : String) (hcategory : '.' ∉ category.toList) :
    let p := events.foldl after (start properties groups engine)
    p.Confined (p.switchEntry kind group category direction entry).1 kind group category
      direction := by
  intro p
  obtain ⟨hengine, hsound⟩ : p.engine = engine ∧ p.cache.Sound engine :=
    sound_foldl (p := start properties groups engine) (PatternCache.sound_empty engine) events
  rw [← hengine] at hsound
  refine ⟨Policy.chain_switchEntry, Policy.entries_switchEntry_of_ne_list hcategory,
    Policy.entries_switchEntry_of_not_above hcategory, ?_⟩
  intro name category' direction' hcategory' hother item
  rw [(sound_decide hsound name category' direction' item).2,
    (sound_decide (p := (p.switchEntry kind group category direction entry).1) hsound name category'
      direction' item).2]
  exact Policy.isAllowed_switchEntry hcategory hcategory' hother item

/-- A group below another one whose name has a dot, which admits what begins with an `a`. -/
def dottedParent : Properties :=
  Table.ofPairs [("child.parent", "root.eu"), ("root.eu.cat.whitelist.inbound", "a*")]

theorem switchEntry_confined_sample :
    let p := start dottedParent none
    let q := (p.switchEntry .whitelist "child" "cat" .inbound "b").1
    '.' ∉ "cat".toList ∧ p.Confined q .whitelist "child" "cat" .inbound ∧
      "child" ∉ Policy.chain none dottedParent "root.eu" ∧
      (p.decide "child" "cat" .inbound "b").2 = false ∧
      (q.decide "child" "cat" .inbound "b").2 = true ∧
      (q.decide "root.eu" "cat" .inbound "b").2 = false := by
  intro p q
  have hcategory : '.' ∉ "cat".toList := by decide
  exact ⟨hcategory,
    switchEntry_confined .running dottedParent none [] .whitelist "child" "cat" .inbound "b" hcategory,
    by decide +kernel, by decide +kernel, by decide +kernel, by decide +kernel⟩

end AccessPolicy

end ClusterMesh
