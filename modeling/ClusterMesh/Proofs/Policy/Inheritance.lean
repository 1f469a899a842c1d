import ClusterMesh.Proofs.Policy.Decision
import Mathlib.Logic.Relation

/-!
# What a group inherits

The entries of a group are gathered by a walk up the chain of parents, which reads the list of each
group once and stops at the first group that it has read before. Such a walk always ends, whatever
the parents are, and it reads exactly the groups that can be reached from where it begins.
-/

namespace ClusterMesh

open Expression (Engine)

namespace Policy

variable {engine : Engine} {groups : Option GroupManager} {properties : Properties} {kind : ListKind}
variable {group above category item entry name parent : String} {direction : Direction}
variable {visited names : List String} {gathered : TextSet}

/-! ### The groups above a group -/

/-- One group is reached from another one by going from parent to parent, or is that group. -/
def Above (groups : Option GroupManager) (properties : Properties) : String → String → Prop :=
  Relation.ReflTransGen (IsParent groups properties)

theorem IsChain.parent_mem (h : IsChain groups properties group names) (hname : name ∈ names)
    (hparent : IsParent groups properties name parent) : parent ∈ names := by
  obtain ⟨before, rest, rfl⟩ := List.append_of_mem hname
  cases rest with
  | nil => exact h.ends List.getLast?_concat hparent
  | cons next rest =>
    have hfollows := (List.isChain_append.mp h.follows).2.1
    have hnext := (List.isChain_cons.mp hfollows).1 next rfl
    obtain rfl := isParent_unique hnext hparent
    simp

theorem IsChain.mem_iff (h : IsChain groups properties group names) :
    name ∈ names ↔ Above groups properties group name := by
  obtain ⟨rest, rfl⟩ := List.head?_eq_some_iff.mp h.head
  constructor
  · intro hname
    have hall := List.IsChain.induction (Above groups properties group) _ h.follows
      (fun _ _ hparent habove => habove.tail hparent)
      (fun hne => by rw [List.head_cons]; exact .refl)
    exact hall name hname
  · intro habove
    induction habove with
    | refl => exact List.mem_cons_self
    | tail _ hparent ih => exact h.parent_mem ih hparent

theorem mem_chain_iff : name ∈ chain groups properties group ↔ Above groups properties group name :=
  isChain_chain.mem_iff

theorem length_chainFrom_le (groups : Option GroupManager) (properties : Properties) (steps : Nat)
    (visited : List String) (group : String) :
    (chainFrom groups properties steps visited group).length ≤ steps + 1 := by
  induction steps generalizing visited group with
  | zero =>
    unfold chainFrom
    split <;> simp
  | succ steps ih =>
    by_cases hseen : group ∈ visited
    · simp [chainFrom_of_mem hseen]
    · cases hparent : parent? groups properties group with
      | none => simp [chainFrom_last hseen hparent]
      | some p =>
        rw [chainFrom_succ hseen hparent, List.length_cons]
        exact Nat.succ_le_succ (ih (group :: visited) p)

/-! ### The walk -/

/-- The items of the list that a group itself keeps. -/
def ownItems (properties : Properties) (kind : ListKind) (category : String) (direction : Direction)
    (group : String) : List String :=
  (itemsAt properties (listKey kind group category direction)).toList

/-- A walk up from a group while it is under way: what was gathered so far, the groups whose lists
were read, the last one first, and the group that is next. -/
structure Walk where
  gathered : TextSet
  read : List String
  next? : Option String

namespace Walk

def start (group : String) : Walk := ⟨∅, [], some group⟩

/-- The list of the next group is read, unless there is no such group or its list was read before. -/
def step? (groups : Option GroupManager) (properties : Properties) (kind : ListKind)
    (category : String) (direction : Direction) (w : Walk) : Option Walk :=
  match w.next? with
  | none => none
  | some name =>
    if name ∈ w.read then none
    else
      some {
        gathered := w.gathered.insertMany (ownItems properties kind category direction name)
        read := name :: w.read
        next? := parent? groups properties name }

/-- Where a walk ends, if it takes no more than a number of steps. -/
def last? (groups : Option GroupManager) (properties : Properties) (kind : ListKind)
    (category : String) (direction : Direction) : Nat → Walk → Option Walk
  | steps, w =>
    match w.step? groups properties kind category direction, steps with
    | none, _ => some w
    | some _, 0 => none
    | some w', steps + 1 => last? groups properties kind category direction steps w'

theorem step?_eq_none {w : Walk} (h : ∀ name, w.next? = some name → name ∈ w.read) :
    w.step? groups properties kind category direction = none := by
  unfold step?
  split
  · rfl
  · next name hname => exact if_pos (h name hname)

theorem last?_of_step?_none {w : Walk} {steps : Nat}
    (h : w.step? groups properties kind category direction = none) :
    last? groups properties kind category direction steps w = some w := by
  unfold last?
  rw [h]

theorem last?_of_step?_some {w w' : Walk} {steps : Nat}
    (h : w.step? groups properties kind category direction = some w') :
    last? groups properties kind category direction (steps + 1) w =
      last? groups properties kind category direction steps w' := by
  conv_lhs => unfold last?
  rw [h]

end Walk

theorem Climbs.tail {rest : List String}
    (h : Climbs groups properties visited group (group :: parent :: rest)) :
    Climbs groups properties (group :: visited) parent (parent :: rest) where
  head := rfl
  follows := (List.isChain_cons_cons.mp h.follows).2
  distinct := (List.nodup_cons.mp h.distinct).2
  fresh := by
    intro name hname hmem
    rcases List.mem_cons.mp hmem with rfl | hmem
    · exact (List.nodup_cons.mp h.distinct).1 hname
    · exact h.fresh (List.mem_cons_of_mem group hname) hmem
  ends := by
    intro last p hlast hp
    rw [← List.getLast?_cons_cons (a := group)] at hlast
    rcases h.ends hlast hp with hmem | hmem
    · exact Or.inl (List.mem_cons_of_mem group hmem)
    · rcases List.mem_cons.mp hmem with rfl | hmem
      · exact Or.inl List.mem_cons_self
      · exact Or.inr hmem

/-- A walk reads the lists of a whole chain and then ends, for want of a parent or because the next
group was read before. -/
theorem Climbs.last? (kind : ListKind) (category : String) (direction : Direction)
    (h : Climbs groups properties visited group names) {steps : Nat} (hsteps : names.length ≤ steps)
    (gathered : TextSet) :
    ∃ next?, Walk.last? groups properties kind category direction steps
        ⟨gathered, visited, some group⟩ =
      some ⟨gathered.insertMany (names.flatMap (ownItems properties kind category direction)),
        names.reverse ++ visited, next?⟩ := by
  induction names generalizing visited group steps gathered with
  | nil => cases h.head
  | cons name rest ih =>
    obtain rfl := Option.some.inj h.head
    obtain ⟨steps, rfl⟩ := Nat.exists_eq_add_of_le' (Nat.le_of_add_left_le hsteps)
    let more : TextSet := gathered.insertMany (ownItems properties kind category direction name)
    have hstep : Walk.step? groups properties kind category direction
        ⟨gathered, visited, some name⟩ =
        some ⟨more, name :: visited, parent? groups properties name⟩ :=
      if_neg (h.fresh List.mem_cons_self)
    rw [Walk.last?_of_step?_some hstep]
    cases rest with
    | nil =>
      refine ⟨parent? groups properties name, ?_⟩
      rw [Walk.last?_of_step?_none (Walk.step?_eq_none ?_)]
      · simp [more]
      · intro p hp
        refine (h.ends rfl (parent?_eq_some_iff.mp hp)).elim (List.mem_cons_of_mem name) ?_
        exact fun hmem => List.mem_singleton.mp hmem ▸ List.mem_cons_self
    | cons p rest =>
      have hparent := parent?_eq_some_iff.mpr (List.isChain_cons_cons.mp h.follows).1
      obtain ⟨next?, hlast⟩ := ih h.tail (Nat.le_of_succ_le_succ hsteps) more
      refine ⟨next?, ?_⟩
      rw [hparent, hlast]
      simp [more, KeyedList.insertMany, List.foldl_append]

/-- How a walk from a group has ended: it has read the lists of exactly the groups above, each once,
beginning with the group itself and going from parent to parent, and it has gathered their items in
that order, each where it first came. -/
structure Gathers (groups : Option GroupManager) (properties : Properties) (kind : ListKind)
    (group category : String) (direction : Direction) (w : Walk) : Prop where
  once : w.read.Nodup
  reached : ∀ {name}, name ∈ w.read ↔ Above groups properties group name
  upward : IsChain groups properties group w.read.reverse
  items : w.gathered.toList =
    (w.read.reverse.flatMap (ownItems properties kind category direction)).eraseDups

theorem exists_last (groups : Option GroupManager) (properties : Properties) (kind : ListKind)
    (group category : String) (direction : Direction) :
    ∃ last, Walk.last? groups properties kind category direction
        (chainBound groups properties + 1) (.start group) = some last ∧
      Gathers groups properties kind group category direction last ∧
      entries groups properties kind group category direction = last.gathered := by
  have hchain : IsChain groups properties group (chain groups properties group) := isChain_chain
  obtain ⟨next?, hlast⟩ := climbs_chain.last? kind category direction
    (length_chainFrom_le groups properties _ [] group) ∅
  refine ⟨_, hlast, ⟨?_, ?_, ?_, ?_⟩, rfl⟩
  · simpa using hchain.distinct
  · simp [mem_chain_iff]
  · simpa using hchain
  · rw [List.append_nil, List.reverse_reverse]
    exact KeyedList.toList_ofList_eq_eraseDups _

/-! ### What is handed down -/

theorem mem_entries_of_above (h : Above groups properties group above)
    (hentry : entry ∈ (entries groups properties kind above category direction).toList) :
    entry ∈ (entries groups properties kind group category direction).toList := by
  obtain ⟨name, hname, hentry⟩ := mem_entries.mp hentry
  exact mem_entries.mpr ⟨name, mem_chain_iff.mpr (h.trans (mem_chain_iff.mp hname)), hentry⟩

theorem isAllowed_eq_false_of_black (hdoc : engine.Documented)
    (h : entry ∈ (entries groups properties .blacklist group category direction).toList)
    (hmatch : Matches engine entry item) :
    isAllowed engine groups properties group category direction item = false := by
  obtain ⟨name, hname, hentry⟩ := mem_entries.mp h
  rw [← Bool.not_eq_true, isAllowed_iff hdoc]
  rintro ⟨-, hblack⟩
  exact hblack name hname entry hentry hmatch

theorem isAllowed_congr (hdoc : engine.Documented) {other : String}
    (h : ∀ name, name ∈ chain groups properties group ↔ name ∈ chain groups properties other) :
    isAllowed engine groups properties group category direction item =
      isAllowed engine groups properties other category direction item := by
  rw [Bool.eq_iff_iff, isAllowed_iff hdoc, isAllowed_iff hdoc]
  simp only [h]

theorem mem_chain_congr {other : String} (h : Above groups properties group other)
    (h' : Above groups properties other group) (name : String) :
    name ∈ chain groups properties group ↔ name ∈ chain groups properties other := by
  rw [mem_chain_iff, mem_chain_iff]
  exact ⟨h'.trans, h.trans⟩

end Policy

namespace AccessPolicy

/-- What a policy tells of a group and of one above it: the entries of the upper one are entries of
the lower one too, and what its blacklists match is denied below. -/
structure HandsDown (p : AccessPolicy) (above group : String) : Prop where
  entries : ∀ {kind category direction entry},
    entry ∈ (Policy.entries p.groups p.properties kind above category direction).toList →
      entry ∈ (Policy.entries p.groups p.properties kind group category direction).toList
  denials : ∀ {category direction item entry},
    entry ∈ (Policy.entries p.groups p.properties .blacklist above category direction).toList →
      Policy.Matches p.engine entry item → (p.decide group category direction item).2 = false

/-- What a policy tells of two groups is the same. -/
structure TellsAlike (p : AccessPolicy) (a b : String) : Prop where
  entries : ∀ {kind category direction entry},
    entry ∈ (Policy.entries p.groups p.properties kind a category direction).toList ↔
      entry ∈ (Policy.entries p.groups p.properties kind b category direction).toList
  verdicts : ∀ {category direction item},
    (p.decide a category direction item).2 = (p.decide b category direction item).2

/-- However a policy came about, the walk up from a group ends with the items of all groups above
it, each read once. Whatever is above hands its entries down, groups of one cycle are alike, and
the entries of several groups are theirs one after the other. -/
theorem inherited {engine : Engine} (hdoc : engine.Documented) (properties : Properties)
    (groups : Option GroupManager) (events : List Event) :
    let p := events.foldl after (start properties groups engine)
    (∀ kind group category direction, ∃ last,
      Policy.Walk.last? p.groups p.properties kind category direction
          (Policy.chainBound p.groups p.properties + 1) (.start group) = some last ∧
        Policy.Gathers p.groups p.properties kind group category direction last ∧
        Policy.entries p.groups p.properties kind group category direction = last.gathered) ∧
    (∀ group above, Policy.Above p.groups p.properties group above → p.HandsDown above group) ∧
    (∀ a b, Policy.Above p.groups p.properties a b → Policy.Above p.groups p.properties b a →
      p.TellsAlike a b) ∧
    ∀ kind names category direction,
      (Policy.entriesForGroups p.groups p.properties kind names category direction).toList =
        (names.flatMap fun name =>
          (Policy.entries p.groups p.properties kind name category direction).toList).eraseDups := by
  intro p
  obtain ⟨hengine, hsound⟩ : p.engine = engine ∧ p.cache.Sound engine :=
    sound_foldl (p := start properties groups engine) (PatternCache.sound_empty engine) events
  have hverdict := fun group category direction item =>
    (sound_decide (p := p) (hengine.symm ▸ hsound) group category direction item).2
  rw [← hengine] at hdoc
  refine ⟨Policy.exists_last p.groups p.properties, ?_, ?_, ?_⟩
  · intro group above h
    refine ⟨Policy.mem_entries_of_above h, ?_⟩
    intro category direction item entry hentry hmatch
    rw [hverdict]
    exact Policy.isAllowed_eq_false_of_black hdoc (Policy.mem_entries_of_above h hentry) hmatch
  · intro a b h h'
    refine ⟨⟨Policy.mem_entries_of_above h', Policy.mem_entries_of_above h⟩, ?_⟩
    intro category direction item
    rw [hverdict, hverdict]
    exact Policy.isAllowed_congr hdoc (Policy.mem_chain_congr h h')
  · intro kind names category direction
    exact KeyedList.toList_ofList_eq_eraseDups _

/-- Three groups, each the parent of the next, and one below them that nobody knows. -/
def cycleProperties : Properties :=
  Table.ofPairs [("a.parent", " b "), ("b.parent", "c"), ("c.parent", "a"), ("d.parent", "c"),
    ("b.cat.blacklist.inbound", "y,\nx*, y")]

theorem above_cycle : Policy.Above none cycleProperties "d" "c" ∧
    Policy.Above none cycleProperties "a" "c" ∧ Policy.Above none cycleProperties "c" "a" := by
  have hparent : ∀ group parent, Policy.parent? none cycleProperties group = some parent →
      Policy.IsParent none cycleProperties group parent :=
    fun _ _ => Policy.parent?_eq_some_iff.mp
  have hab := hparent "a" "b" (by decide +kernel)
  have hbc := hparent "b" "c" (by decide +kernel)
  have hca := hparent "c" "a" (by decide +kernel)
  have hdc := hparent "d" "c" (by decide +kernel)
  exact ⟨.single hdc, .tail (.single hab) hbc, .single hca⟩

theorem inherited_cycle :
    let p := start cycleProperties none
    Engine.running.Documented ∧
    (Policy.Above none cycleProperties "d" "c" ∧ Policy.Above none cycleProperties "a" "c" ∧
      Policy.Above none cycleProperties "c" "a") ∧
    p.HandsDown "c" "d" ∧ p.TellsAlike "a" "c" ∧
    (Policy.entries none cycleProperties .blacklist "d" "cat" .inbound).toList = ["y", "x*"] := by
  have hdoc := Engine.running_documented
  obtain ⟨-, hdown, halike, -⟩ := inherited hdoc cycleProperties none []
  obtain ⟨hdc, hac, hca⟩ := above_cycle
  exact ⟨hdoc, ⟨hdc, hac, hca⟩, hdown "d" "c" hdc, halike "a" "c" hac hca, by decide +kernel⟩

end AccessPolicy

end ClusterMesh
