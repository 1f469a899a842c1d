import ClusterMesh.Proofs.Cluster.Membership

/-!
# What a group manager keeps

Whatever is done to a group manager, its groups stand under their own names, and the list of all
nodes begins with the local node and has every member of a group once. A node that quits goes out of
one group and nothing else changes, but that the local node comes into the default group when it
would be in none.
-/

namespace ClusterMesh

namespace GroupManager

variable {m : GroupManager} {g : Group} {n localNode : Node} {name k : String}
variable {c : GroupChange} {changes : List GroupChange}

/-! ### The groups and their names -/

def OwnNames (m : GroupManager) : Prop := ∀ name g, m.find? name = some g → g.name = name

theorem find?_write : (m.write name g).find? k = if k = name then some g else m.find? k :=
  Table.get?_set ..

theorem OwnNames.write (h : m.OwnNames) (hname : g.name = name) : (m.write name g).OwnNames := by
  intro k g' hfind
  rw [find?_write] at hfind
  split at hfind
  · next hk => rw [← Option.some.inj hfind, hname, hk]
  · exact h k g' hfind

theorem OwnNames.findOrNew (h : m.OwnNames) (name : String) : (m.findOrNew name).name = name := by
  unfold GroupManager.findOrNew
  cases hfind : m.find? name with
  | none => rfl
  | some g => exact h name g hfind

theorem OwnNames.join (h : m.OwnNames) (name : String) (n : Node) : (m.join name n).OwnNames :=
  h.write (h.findOrNew name)

theorem OwnNames.without (h : m.OwnNames) (name : String) (n : Node) :
    (m.without name n).OwnNames := by
  unfold GroupManager.without
  split
  · next g hfind => exact h.write (h name g hfind)
  · exact h

theorem OwnNames.change (h : m.OwnNames) (c : GroupChange) : (m.change c).OwnNames := by
  cases c with
  | create name => exact h.write (h.findOrNew name)
  | register g => exact h.write rfl
  | delete name =>
    intro k g hfind
    simp only [GroupManager.change, delete, find?, Table.get?_erase] at hfind
    split at hfind
    · cases hfind
    · exact h k g hfind
  | join name n => exact h.join name n
  | quit name n =>
    rw [GroupManager.change, quit_eq]
    split
    · exact (h.without name n).join defaultGroup _
    · exact h.without name n

theorem ownNames_afterAll (localNode : Node) (changes : List GroupChange) :
    (afterAll localNode changes).OwnNames := by
  induction changes using List.reverseRecOn with
  | nil =>
    intro k g hfind
    rw [find?, afterAll, List.foldl_nil, start, Table.get?_set] at hfind
    split at hfind
    · next hk => rw [← Option.some.inj hfind, hk]; rfl
    · cases hfind
  | append_singleton changes c ih =>
    rw [afterAll_concat]
    exact ih.change c

/-! ### The list of all nodes -/

theorem OwnNames.map_name (h : m.OwnNames) : m.list.map Group.name = m.groups.keys := by
  rw [list, List.map_map]
  exact List.map_congr_left fun e he => h e.1 e.2 (Table.get?_of_mem he)

theorem head?_nodes (m : GroupManager) : m.nodes.toList.head? = some m.localNode := by
  obtain ⟨others, hothers⟩ := KeyedList.prefix_insertMany (KeyedList.ofList [m.localNode] : NodeSet)
    (m.list.flatMap fun g => g.nodes.toList)
  rw [nodes, ← hothers]
  rfl

theorem mem_keys_nodes {id : String} : id ∈ m.nodes.keys ↔
    id = m.localNode.id ∨ ∃ g ∈ m.list, id ∈ g.nodes.keys := by
  rw [nodes, KeyedList.mem_keys_insertMany, KeyedList.mem_keys_ofList, List.map_singleton,
    List.mem_singleton, List.map_flatMap, List.mem_flatMap]
  rfl

/-! ### A node that quits -/

/-- A manager from which a node has gone out of the group of a name, if there is such a group. -/
structure Leaves (m : GroupManager) (name : String) (n : Node) (left : GroupManager) : Prop where
  localNode : left.localNode = m.localNode
  names : left.groups.keys = m.groups.keys
  others : ∀ {k}, k ≠ name → left.find? k = m.find? k
  group : ∀ {g}, m.find? name = some g → ∃ g', left.find? name = some g' ∧ g'.name = g.name ∧
    g'.parent = g.parent ∧
    g'.nodes.toList = g.nodes.toList.filter fun member => decide (member.id ≠ n.id)

/-- A manager that has put the local node, which is in no group, behind the members of the default
group, which is there from then on. -/
structure FallsBack (m m' : GroupManager) : Prop where
  localNode : m'.localNode = m.localNode
  names : m'.groups.keys =
    if defaultGroup ∈ m.groups.keys then m.groups.keys else m.groups.keys ++ [defaultGroup]
  others : ∀ {k}, k ≠ defaultGroup → m'.find? k = m.find? k
  group : ∃ g, m'.find? defaultGroup = some g ∧ g.name = defaultGroup ∧
    g.parent = (m.find? defaultGroup).bind Group.parent ∧
    g.nodes.toList =
      ((m.find? defaultGroup).elim [] fun g => g.nodes.toList) ++ [m.localNode]

theorem keys_write : (m.write name g).groups.keys =
    if name ∈ m.groups.keys then m.groups.keys else m.groups.keys ++ [name] :=
  Table.keys_set ..

theorem leaves_without (m : GroupManager) (name : String) (n : Node) :
    m.Leaves name n (m.without name n) := by
  unfold without
  cases hfind : m.find? name with
  | none => exact ⟨rfl, rfl, fun _ => rfl, fun hsome => by rw [hfind] at hsome; cases hsome⟩
  | some g =>
    have hkey : name ∈ m.groups.keys := Table.mem_keys_iff.mpr ⟨g, hfind⟩
    refine ⟨rfl, by rw [keys_write, if_pos hkey], fun hk => by rw [find?_write, if_neg hk], ?_⟩
    intro g' hg'
    obtain rfl := Option.some.inj (hfind.symm.trans hg')
    exact ⟨g.drop n, by rw [find?_write, if_pos rfl], rfl, rfl, rfl⟩

theorem fallsBack_join (h : m.OwnNames) (hnone : ∀ k, ¬m.IsIn k) :
    m.FallsBack (m.join defaultGroup m.localNode) where
  localNode := rfl
  names := keys_write
  others := fun hk => by rw [join, find?_write, if_neg hk]
  group := by
    refine ⟨(m.findOrNew defaultGroup).add m.localNode, by rw [join, find?_write, if_pos rfl],
      h.findOrNew defaultGroup, ?_, ?_⟩
    · unfold Group.add findOrNew
      cases m.find? defaultGroup <;> rfl
    · -- A node that is in no group is not in the default one, and so comes to stand at its end.
      have hnew : m.localNode.id ∉ (m.findOrNew defaultGroup).nodes.keys := by
        rw [← KeyedList.contains_iff]
        exact fun hin => hnone defaultGroup (contains_findOrNew.mp hin)
      rw [Group.add, KeyedList.toList_insert_of_not_mem hnew, findOrNew]
      cases m.find? defaultGroup <;> rfl

/-- What is left of the groups when a node quits, and what becomes of the local one. -/
theorem exists_left (h : m.OwnNames) (name : String) (n : Node) :
    ∃ left, m.Leaves name n left ∧
      (m.quit name n = left ∧ (n.id ≠ m.localNode.id ∨ ∃ k, left.IsIn k) ∨
        left.FallsBack (m.quit name n) ∧ n.id = m.localNode.id ∧ ∀ k, ¬left.IsIn k) := by
  refine ⟨m.without name n, leaves_without m name n, ?_⟩
  rw [quit_eq]
  split
  · next hboth =>
    rw [Bool.and_eq_true, localGroups_isEmpty_iff, Node.same, beq_iff_eq] at hboth
    have hfalls := fallsBack_join (h.without name n) hboth.2
    rw [localNode_without] at hfalls
    exact Or.inr ⟨hfalls, hboth⟩
  · next hnot =>
    rw [Bool.and_eq_true, localGroups_isEmpty_iff, Node.same, beq_iff_eq, not_and_or,
      not_forall_not] at hnot
    exact Or.inl ⟨rfl, hnot⟩

/-! ### Every state -/

/-- Each group stands under its own name, no name comes twice, no group has two members of one id, and
the list of all nodes has the local node at its head and every member of a group once. -/
structure Roster (m : GroupManager) : Prop where
  named : ∀ {name g}, m.find? name = some g → g.name = name
  names : (m.list.map Group.name).Nodup
  members : ∀ {g}, g ∈ m.list → (g.nodes.toList.map Node.id).Nodup
  head : m.nodes.toList.head? = some m.localNode
  listed : ∀ {id}, id ∈ m.nodes.toList.map Node.id ↔
    id = m.localNode.id ∨ ∃ g ∈ m.list, id ∈ g.nodes.toList.map Node.id
  once : (m.nodes.toList.map Node.id).Nodup

theorem OwnNames.roster (h : m.OwnNames) : m.Roster where
  named := fun hfind => h _ _ hfind
  names := h.map_name ▸ m.groups.keys_nodup
  members := fun {g} _ => g.nodes.nodup
  head := head?_nodes m
  listed := mem_keys_nodes
  once := m.nodes.nodup

/-- Whatever was done to the group manager of a node, its roster is in order, and a node that quits goes
out of one group; the local node is put into the default group then if it is in none, and in no other
case. -/
theorem afterAll_roster (localNode : Node) (changes : List GroupChange) :
    let m := afterAll localNode changes
    m.localNode = localNode ∧ m.Roster ∧ ∀ name n, ∃ left, m.Leaves name n left ∧
      (m.quit name n = left ∧ (n.id ≠ localNode.id ∨ ∃ k, left.IsIn k) ∨
        left.FallsBack (m.quit name n) ∧ n.id = localNode.id ∧ ∀ k, ¬left.IsIn k) := by
  intro m
  have hnames : m.OwnNames := ownNames_afterAll localNode changes
  have hlocal : m.localNode = localNode := localNode_afterAll
  refine ⟨hlocal, hnames.roster, fun name n => ?_⟩
  rw [← hlocal]
  exact exists_left hnames name n

end GroupManager

end ClusterMesh
