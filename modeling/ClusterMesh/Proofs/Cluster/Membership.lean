import ClusterMesh.Cluster.Group
import Mathlib.Data.List.Induction

/-!
# The groups of the local node

The local node begins in the default group. A change takes it out of its last group only if it
deletes that group, or registers one without it in that group's place; then it is in no group
until it joins one, quits one, or a group with it is registered.
-/

namespace ClusterMesh

/-- What may be done to a group manager. -/
inductive GroupChange
  | create (name : String)
  | register (g : Group)
  | delete (name : String)
  | join (name : String) (n : Node)
  | quit (name : String) (n : Node)

namespace GroupManager

def change (m : GroupManager) : GroupChange → GroupManager
  | .create name => (m.create name).1
  | .register g => m.register g
  | .delete name => (m.delete name).1
  | .join name n => m.join name n
  | .quit name n => m.quit name n

/-- The group manager of a node after changes. -/
def afterAll (localNode : Node) (changes : List GroupChange) : GroupManager :=
  changes.foldl change (start localNode)

/-- The local node is a member of the group of this name. -/
def IsIn (m : GroupManager) (name : String) : Prop :=
  ∃ g, m.find? name = some g ∧ g.contains m.localNode = true

variable {m : GroupManager} {g : Group} {n localNode : Node} {name k : String}
variable {c : GroupChange} {changes : List GroupChange}

theorem localGroups_ne_nil_iff : m.localGroups ≠ [] ↔ ∃ name, m.IsIn name := by
  rw [Ne, List.eq_nil_iff_forall_not_mem, not_forall_not]
  simp only [localGroups, list, List.mem_filter, List.mem_map, IsIn, find?]
  constructor
  · rintro ⟨g, ⟨⟨name, g'⟩, hmem, rfl⟩, hlocal⟩
    exact ⟨name, g', Table.get?_of_mem hmem, hlocal⟩
  · rintro ⟨name, g, hfind, hlocal⟩
    exact ⟨g, ⟨(name, g), Table.mem_of_get? hfind, rfl⟩, hlocal⟩

theorem localGroups_isEmpty_iff : m.localGroups.isEmpty = true ↔ ∀ name, ¬m.IsIn name := by
  rw [List.isEmpty_iff, ← not_iff_not, ← Ne, localGroups_ne_nil_iff, not_forall_not]

/-! ### What each change does -/

theorem isIn_write : (m.write name g).IsIn k ↔
    if k = name then g.contains m.localNode = true else m.IsIn k := by
  simp only [IsIn, write, find?, Table.get?_set]
  split <;> simp

theorem contains_findOrNew : (m.findOrNew name).contains n = true ↔
    ∃ g, m.find? name = some g ∧ g.contains n = true := by
  unfold findOrNew
  cases m.find? name with
  | none => simp [Group.named, Group.contains]
  | some g => simp

theorem isIn_create : (m.create name).1.IsIn k ↔ m.IsIn k := by
  rw [create, isIn_write, contains_findOrNew]
  split
  · next hk => rw [hk, IsIn]
  · rfl

theorem isIn_delete : (m.delete name).1.IsIn k ↔ m.IsIn k ∧ k ≠ name := by
  simp only [IsIn, delete, find?, Table.get?_erase]
  split
  · next hk => simp [hk]
  · next hk => simp [hk]

theorem isIn_join : (m.join name n).IsIn k ↔ m.IsIn k ∨ k = name ∧ n.id = m.localNode.id := by
  have hadd : ((m.findOrNew name).add n).contains m.localNode = true ↔
      m.IsIn name ∨ n.id = m.localNode.id := by
    rw [IsIn, ← contains_findOrNew, Group.contains, Group.contains, Group.add,
      KeyedList.contains_iff, KeyedList.contains_iff, KeyedList.mem_keys_insert, eq_comm (a := n.id)]
  rw [join, isIn_write, hadd]
  split
  · next hk => simp [hk]
  · next hk => simp [hk]

/-- The manager with the node taken out of one group. -/
def without (m : GroupManager) (name : String) (n : Node) : GroupManager :=
  match m.find? name with
  | some g => m.write name (g.drop n)
  | none => m

theorem quit_eq : m.quit name n =
    if n.same m.localNode && (m.without name n).localGroups.isEmpty then
      (m.without name n).join defaultGroup m.localNode
    else m.without name n := rfl

theorem localNode_without : (m.without name n).localNode = m.localNode := by
  unfold without
  split <;> rfl

theorem isIn_without :
    (m.without name n).IsIn k ↔ m.IsIn k ∧ ¬(k = name ∧ n.id = m.localNode.id) := by
  unfold without
  split
  · next g hfind =>
    rw [isIn_write]
    split
    · next hk =>
      subst hk
      have hin : m.IsIn k ↔ g.contains m.localNode = true := by simp [IsIn, hfind]
      rw [hin, Group.contains, Group.contains, Group.drop, KeyedList.contains_iff,
        KeyedList.contains_iff, KeyedList.mem_keys_erase]
      simp [eq_comm]
    · next hk => simp [hk]
  · next hfind =>
    refine ⟨fun hin => ⟨hin, ?_⟩, And.left⟩
    rintro ⟨rfl, -⟩
    obtain ⟨g, hg, -⟩ := hin
    rw [hfind] at hg
    cases hg

/-- A node that quits leaves the others where they are. The local node stays in its other groups,
and is in the default group if it has none. -/
theorem isIn_quit : (m.quit name n).IsIn k ↔
    if n.id = m.localNode.id then
      m.IsIn k ∧ k ≠ name ∨ k = defaultGroup ∧ ∀ j, m.IsIn j → j = name
    else m.IsIn k := by
  have hnone : (m.without name n).localGroups.isEmpty = true ↔
      ∀ j, m.IsIn j → j = name ∧ n.id = m.localNode.id := by
    rw [localGroups_isEmpty_iff]
    simp only [isIn_without, not_and, Classical.not_imp, not_not]
  rw [quit_eq, Node.same]
  by_cases hid : n.id = m.localNode.id
  · simp only [hid, beq_self_eq_true, Bool.true_and, if_true]
    split
    · next hempty =>
      simp only [hnone, hid, and_true] at hempty
      rw [isIn_join, isIn_without, localNode_without]
      simp only [hid, and_true]
      exact or_congr_right (and_iff_left hempty).symm
    · next hleft =>
      simp only [hnone, hid, and_true] at hleft
      rw [isIn_without]
      simp [hid, hleft]
  · simp [hid, isIn_without]

/-! ### In no group -/

theorem localNode_change (m : GroupManager) (c : GroupChange) :
    (m.change c).localNode = m.localNode := by
  cases c with
  | create name => rfl
  | register g => rfl
  | delete name => rfl
  | join name n => rfl
  | quit name n =>
    rw [change, quit_eq]
    split
    · exact localNode_without
    · exact localNode_without

theorem localNode_afterAll : (afterAll localNode changes).localNode = localNode := by
  induction changes using List.reverseRecOn with
  | nil => rfl
  | append_singleton changes c ih =>
    rw [afterAll, List.foldl_append, List.foldl_cons, List.foldl_nil, localNode_change]
    exact ih

/-- The change takes the local node out of its last group. -/
def Strips (m : GroupManager) (c : GroupChange) : Prop :=
  (∃ k, m.IsIn k) ∧
    match c with
    | .delete name => ∀ k, m.IsIn k → k = name
    | .register g => g.contains m.localNode = false ∧ ∀ k, m.IsIn k → k = g.name
    | _ => False

/-- The change puts the local node into a group, whatever was before. -/
def Restores (localNode : Node) : GroupChange → Prop
  | .register g => g.contains localNode = true
  | .join _ n => n.id = localNode.id
  | .quit _ n => n.id = localNode.id
  | _ => False

theorem isIn_register : (m.register g).IsIn k ↔
    if k = g.name then g.contains m.localNode = true else m.IsIn k := isIn_write

/-- The local node is in a group after a change if it was in one that the change leaves to it, or
if the change puts it into one. -/
theorem isIn_change : (∃ k, (m.change c).IsIn k) ↔
    (∃ k, m.IsIn k) ∧ ¬m.Strips c ∨ Restores m.localNode c := by
  cases c with
  | create name => simp [change, isIn_create, Strips, Restores]
  | delete name =>
    simp only [change, isIn_delete, Strips, Restores, or_false, not_and, not_forall]
    constructor
    · rintro ⟨k, hk, hne⟩
      exact ⟨⟨k, hk⟩, fun _ => ⟨k, hk, hne⟩⟩
    · rintro ⟨hin, hother⟩
      obtain ⟨k, hk, hne⟩ := hother hin
      exact ⟨k, hk, hne⟩
  | join name n =>
    simp only [change, isIn_join, Strips, Restores, and_false, not_false_eq_true, and_true]
    constructor
    · rintro ⟨k, hk | ⟨-, hid⟩⟩
      · exact Or.inl ⟨k, hk⟩
      · exact Or.inr hid
    · rintro (⟨k, hk⟩ | hid)
      · exact ⟨k, Or.inl hk⟩
      · exact ⟨name, Or.inr ⟨rfl, hid⟩⟩
  | quit name n =>
    simp only [change, isIn_quit, Strips, Restores, and_false, not_false_eq_true, and_true]
    split
    · next hid =>
      refine iff_of_true ?_ (Or.inr hid)
      by_cases hother : ∃ j, m.IsIn j ∧ j ≠ name
      · obtain ⟨j, hj⟩ := hother
        exact ⟨j, Or.inl hj⟩
      · refine ⟨defaultGroup, Or.inr ⟨rfl, fun j hj => ?_⟩⟩
        by_contra hne
        exact hother ⟨j, hj, hne⟩
    · next hid => simp [hid]
  | register g =>
    simp only [change, isIn_register, Strips, Restores]
    cases hlocal : g.contains m.localNode with
    | true => exact iff_of_true ⟨g.name, by simp⟩ (Or.inr rfl)
    | false =>
      simp only [true_and, not_and, not_forall, Bool.false_eq_true, or_false]
      constructor
      · rintro ⟨k, hk⟩
        split at hk
        · exact hk.elim
        · next hne => exact ⟨⟨k, hk⟩, fun _ => ⟨k, hk, hne⟩⟩
      · rintro ⟨hin, hother⟩
        obtain ⟨k, hk, hne⟩ := hother hin
        refine ⟨k, ?_⟩
        rwa [if_neg hne]

theorem not_restores_of_strips (h : m.Strips c) : ¬Restores m.localNode c := by
  cases c with
  | delete name => exact id
  | register g => simp [Restores, h.2.1]
  | create name => exact h.2.elim
  | join name n => exact h.2.elim
  | quit name n => exact h.2.elim

theorem isIn_start (localNode : Node) : (start localNode).IsIn defaultGroup := by
  refine ⟨(Group.named defaultGroup).add localNode, ?_, ?_⟩
  · rw [find?, start, Table.get?_set, if_pos rfl]
  · simp [start, Group.contains, Group.add]

theorem afterAll_concat :
    afterAll localNode (changes ++ [c]) = (afterAll localNode changes).change c := by
  rw [afterAll, List.foldl_append]
  rfl

theorem not_isIn_afterAll_iff (localNode : Node) (changes : List GroupChange) :
    (¬∃ k, (afterAll localNode changes).IsIn k) ↔
      ∃ before c rest, changes = before ++ c :: rest ∧ (afterAll localNode before).Strips c ∧
        ∀ later ∈ rest, ¬Restores localNode later := by
  induction changes using List.reverseRecOn with
  | nil =>
    refine iff_of_false (not_not.mpr ⟨defaultGroup, isIn_start localNode⟩) ?_
    rintro ⟨before, c, rest, hsplit, -⟩
    simp at hsplit
  | append_singleton changes c ih =>
    have hlast := isIn_change (m := afterAll localNode changes) (c := c)
    rw [localNode_afterAll] at hlast
    rw [afterAll_concat, hlast, not_or, not_and, not_not]
    constructor
    · rintro ⟨hin, hrestores⟩
      by_cases hbefore : ∃ k, (afterAll localNode changes).IsIn k
      · exact ⟨changes, c, [], rfl, hin hbefore, by simp⟩
      · obtain ⟨before, c', rest, rfl, hstrips, hrest⟩ := ih.mp hbefore
        refine ⟨before, c', rest ++ [c], by simp, hstrips, fun later hlater => ?_⟩
        rcases List.mem_append.mp hlater with hin | hc
        · exact hrest later hin
        · rwa [List.mem_singleton.mp hc]
    · rintro ⟨before, c', rest, hsplit, hstrips, hrest⟩
      rcases List.eq_nil_or_concat rest with rfl | ⟨rest, d, rfl⟩
      · -- the last change is the one that takes the node out
        obtain ⟨rfl, hc⟩ := List.append_inj' hsplit rfl
        obtain rfl := List.singleton_inj.mp hc
        have hrestores := not_restores_of_strips hstrips
        rw [localNode_afterAll] at hrestores
        exact ⟨fun _ => hstrips, hrestores⟩
      · have hsplit' : changes ++ [c] = (before ++ c' :: rest) ++ [d] := by simpa using hsplit
        obtain ⟨rfl, hc⟩ := List.append_inj' hsplit' rfl
        obtain rfl := List.singleton_inj.mp hc
        refine ⟨fun hin => absurd hin ?_, hrest c (by simp)⟩
        exact ih.mpr ⟨before, c', rest, rfl, hstrips, fun later h => hrest later (by simp [h])⟩

/-- The local node is in no group exactly if some change took it out of its last one and none
after that has put it into a group again. -/
theorem localGroups_eq_nil_iff (localNode : Node) (changes : List GroupChange) :
    (afterAll localNode changes).localGroups = [] ↔
      ∃ before c rest, changes = before ++ c :: rest ∧ (afterAll localNode before).Strips c ∧
        ∀ later ∈ rest, ¬Restores localNode later := by
  rw [← not_isIn_afterAll_iff, ← localGroups_ne_nil_iff, not_not]

/-- To delete the default group at once leaves the local node in no group. -/
theorem localGroups_delete_default :
    (afterAll ⟨"n1", none, "127.0.0.1", 5701⟩ [.delete defaultGroup]).localGroups = [] := by
  decide +kernel

end GroupManager

end ClusterMesh
