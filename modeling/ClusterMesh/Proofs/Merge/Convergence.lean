import ClusterMesh.Proofs.Merge.Tagged
import Mathlib.Data.List.Induction
import Mathlib.Logic.Function.Basic

/-!
# Replicas converge

Where all values of a key are of one kind that unites elements, what a replica holds is the
union of what the replicas that it has absorbed held at first. In what order they were absorbed,
and how often, does not matter.
-/

namespace ClusterMesh

/-- The kinds of values that are united when they are merged. A group keeps its name and
parent. -/
inductive JoiningKind
  | set
  | tagged
  | nodes (name : String) (parent : Option String)
deriving DecidableEq, Repr

namespace ReplicatedValue

def joiningKind? : ReplicatedValue → Option JoiningKind
  | text s => if Tagged.isTagged s then some .tagged else none
  | set _ => some .set
  | nodes g => some (.nodes g.name g.parent)
  | _ => none

/-- What is united: the members of a set, the items of a text, the ids of the nodes of a group. -/
def elements : ReplicatedValue → List String
  | text s => (Tagged.items s).keys
  | set items => items.keys
  | nodes g => g.nodes.keys
  | _ => []

variable {a b : ReplicatedValue} {k : JoiningKind}

theorem joiningKind?_mergeBoth (ha : a.joiningKind? = some k) (hb : b.joiningKind? = some k) :
    (mergeBoth a b).joiningKind? = some k := by
  cases a with
  | scalar _ => cases ha
  | list _ => cases ha
  | set s =>
    cases b with
    | set t => exact hb
    | _ => exact hb
  | nodes g =>
    cases b with
    | nodes h => exact hb
    | _ => exact hb
  | text s =>
    cases b with
    | text t =>
      simp only [joiningKind?, Option.ite_none_right_eq_some] at ha hb
      simp only [mergeBoth, ha.1, Bool.true_or, if_true, joiningKind?,
        Tagged.isTagged_merge hb.1, hb.2]
    | _ => exact hb

theorem mem_elements_mergeBoth (ha : a.joiningKind? = some k) (hb : b.joiningKind? = some k)
    {element : String} :
    element ∈ (mergeBoth a b).elements ↔ element ∈ a.elements ∨ element ∈ b.elements := by
  cases a with
  | scalar _ => cases ha
  | list _ => cases ha
  | set s =>
    obtain rfl := Option.some.inj ha
    cases b with
    | set t => exact KeyedList.mem_keys_union
    | text t =>
      simp [joiningKind?] at hb
    | _ => cases hb
  | nodes g =>
    obtain rfl := Option.some.inj ha
    cases b with
    | nodes h => exact KeyedList.mem_keys_union
    | text t => simp [joiningKind?] at hb
    | _ => cases hb
  | text s =>
    simp only [joiningKind?, Option.ite_none_right_eq_some, Option.some.injEq] at ha
    obtain ⟨htagged, rfl⟩ := ha
    cases b with
    | text t =>
      simp only [mergeBoth, htagged, Bool.true_or, if_true, elements]
      exact Tagged.mem_items_merge
    | _ => cases hb

end ReplicatedValue

namespace Replica

/-! ### One replica takes in another -/

theorem get?_absorb (r : Replica) (entry : String × ReplicatedValue) (key : String) :
    Table.get? (r.absorb entry) key =
      if key = entry.1 then ReplicatedValue.merge (some entry.2) (Table.get? r key)
      else Table.get? r key := by
  unfold absorb
  split
  · next resolved heq =>
    rw [Table.get?_set]
    split
    · next hkey => rw [hkey, heq]
    · rfl
  · next heq =>
    cases hget : Table.get? r entry.1 with
    | none =>
      rw [hget] at heq
      cases heq
    | some existing =>
      rw [hget] at heq
      cases heq

theorem get?_reconcile (r incoming : Replica) (key : String) :
    Table.get? (r.reconcile incoming) key =
      ReplicatedValue.merge (Table.get? incoming key) (Table.get? r key) := by
  have hfold : ∀ (entries : List (String × ReplicatedValue)) (r : Replica),
      (entries.map Prod.fst).Nodup →
      Table.get? (entries.foldl absorb r) key =
        ReplicatedValue.merge ((entries.find? (fun e => decide (e.1 = key))).map Prod.snd)
          (Table.get? r key) := by
    intro entries
    induction entries with
    | nil => exact fun r _ => rfl
    | cons entry entries ih =>
      intro r hnodup
      rw [List.map_cons, List.nodup_cons] at hnodup
      rw [List.foldl_cons, ih _ hnodup.2, get?_absorb]
      by_cases hkey : key = entry.1
      · subst hkey
        -- the key does not come again
        have hnone : entries.find? (fun e => decide (e.1 = entry.1)) = none := by
          rw [List.find?_eq_none]
          intro e he heq
          exact hnodup.1 (List.mem_map.mpr ⟨e, he, of_decide_eq_true heq⟩)
        rw [if_pos rfl, hnone, List.find?_cons_of_pos (by simp)]
        rfl
      · have hne : ¬entry.1 = key := fun h => hkey h.symm
        simp [hkey, hne]
  exact hfold incoming.toList r incoming.nodup

theorem mem_keys_reconcile {r incoming : Replica} {key : String} :
    key ∈ (r.reconcile incoming).keys ↔ key ∈ r.keys ∨ key ∈ incoming.keys := by
  simp only [Table.mem_keys_iff, get?_reconcile]
  cases Table.get? incoming key <;> cases Table.get? r key <;> simp [ReplicatedValue.merge]

theorem reconcile_cases {r incoming : Replica} {key : String} {value : ReplicatedValue}
    (h : Table.get? (r.reconcile incoming) key = some value) :
    (Table.get? incoming key = none ∧ Table.get? r key = some value) ∨
      (Table.get? incoming key = some value ∧ Table.get? r key = none) ∨
      ∃ a b, Table.get? incoming key = some a ∧ Table.get? r key = some b ∧
        value = ReplicatedValue.mergeBoth a b := by
  rw [get?_reconcile] at h
  cases hin : Table.get? incoming key with
  | none =>
    rw [hin] at h
    exact Or.inl ⟨rfl, h⟩
  | some a =>
    cases hex : Table.get? r key with
    | none =>
      rw [hin, hex] at h
      exact Or.inr (Or.inl ⟨h, rfl⟩)
    | some b =>
      rw [hin, hex] at h
      exact Or.inr (Or.inr ⟨a, b, rfl, rfl, (Option.some.inj h).symm⟩)

/-! ### Many replicas -/

/-- Two replicas agree: they hold the same keys, and under each key values of one kind with the
same elements. -/
def Agree (r s : Replica) : Prop :=
  ∀ key, Option.Rel (fun a b : ReplicatedValue => a.joiningKind? = b.joiningKind? ∧
    ∀ element, element ∈ a.elements ↔ element ∈ b.elements) (Table.get? r key) (Table.get? s key)

section

variable {ι : Type}

/-- The first of a pair of replicas takes in the second as it is at the moment. -/
def exchange [DecidableEq ι] (replicas : ι → Replica) (pair : ι × ι) : ι → Replica :=
  Function.update replicas pair.1 ((replicas pair.1).reconcile (replicas pair.2))

def afterAll [DecidableEq ι] (replicas : ι → Replica) (pairs : List (ι × ι)) : ι → Replica :=
  pairs.foldl exchange replicas

/-- Whom a replica has absorbed: itself, and whomever those that it took in had absorbed by
then. -/
inductive Absorbed : List (ι × ι) → ι → ι → Prop
  | itself (i : ι) : Absorbed [] i i
  | before {pairs : List (ι × ι)} {i j : ι} (pair : ι × ι) (h : Absorbed pairs i j) :
      Absorbed (pairs ++ [pair]) i j
  | through {pairs : List (ι × ι)} {i j k : ι} (h : Absorbed pairs k j) :
      Absorbed (pairs ++ [(i, k)]) i j

variable {replicas : ι → Replica} {pairs : List (ι × ι)} {i j : ι} {A B : ι → Prop} {r s : Replica}

theorem absorbed_nil : Absorbed [] i j ↔ i = j := by
  constructor
  · intro h
    generalize heq : ([] : List (ι × ι)) = all at h
    cases h with
    | itself i => rfl
    | before pair h => simp at heq
    | through h => simp at heq
  · rintro rfl
    exact .itself i

theorem absorbed_concat {pair : ι × ι} :
    Absorbed (pairs ++ [pair]) i j ↔
      Absorbed pairs i j ∨ i = pair.1 ∧ Absorbed pairs pair.2 j := by
  constructor
  · intro h
    generalize heq : pairs ++ [pair] = all at h
    cases h with
    | itself i => simp at heq
    | before pair' h =>
      obtain ⟨rfl, -⟩ := List.append_inj' heq rfl
      exact Or.inl h
    | through h =>
      obtain ⟨rfl, hpair⟩ := List.append_inj' heq rfl
      obtain rfl := List.singleton_inj.mp hpair
      exact Or.inr ⟨rfl, h⟩
  · intro h
    rcases h with h | ⟨rfl, h⟩
    · exact .before pair h
    · exact .through h

/-- All values that replicas hold under a key are of one joining kind. -/
def Joining (replicas : ι → Replica) : Prop :=
  ∀ key, ∃ kind, ∀ i a, Table.get? (replicas i) key = some a → a.joiningKind? = some kind

/-- A replica holds the keys that certain replicas hold, and under each key a value of their kind
with the elements of all of theirs. -/
structure Unites (replicas : ι → Replica) (A : ι → Prop) (r : Replica) : Prop where
  keys : ∀ {key}, key ∈ r.keys ↔ ∃ j, A j ∧ key ∈ (replicas j).keys
  kind : ∀ {key a j b}, Table.get? r key = some a → Table.get? (replicas j) key = some b →
    a.joiningKind? = b.joiningKind?
  elements : ∀ {key a}, Table.get? r key = some a → ∀ {element}, element ∈ a.elements ↔
    ∃ j b, A j ∧ Table.get? (replicas j) key = some b ∧ element ∈ b.elements

theorem unites_itself (h : Joining replicas) (i : ι) :
    Unites replicas (fun j => i = j) (replicas i) where
  keys := by simp
  kind := by
    intro key a j b ha hb
    obtain ⟨kind, hkind⟩ := h key
    rw [hkind i a ha, hkind j b hb]
  elements := by
    intro key a ha element
    constructor
    · exact fun helement => ⟨i, a, rfl, ha, helement⟩
    · rintro ⟨j, b, rfl, hb, helement⟩
      obtain rfl := Option.some.inj (ha.symm.trans hb)
      exact helement

theorem Unites.exists_get? (h : Unites replicas A r) {key : String} {a : ReplicatedValue}
    (ha : Table.get? r key = some a) : ∃ j b, A j ∧ Table.get? (replicas j) key = some b := by
  obtain ⟨j, hj, hkey⟩ := h.keys.mp (Table.mem_keys_iff.mpr ⟨a, ha⟩)
  obtain ⟨b, hb⟩ := Table.mem_keys_iff.mp hkey
  exact ⟨j, b, hj, hb⟩

theorem Unites.joiningKind? (h : Unites replicas A r) {key : String} {kind : JoiningKind}
    (hkind : ∀ i a, Table.get? (replicas i) key = some a → a.joiningKind? = some kind)
    {a : ReplicatedValue} (ha : Table.get? r key = some a) : a.joiningKind? = some kind := by
  obtain ⟨j, b, -, hb⟩ := h.exists_get? ha
  rw [h.kind ha hb, hkind j b hb]

theorem Unites.not_get? (h : Unites replicas A r) {key : String} (hnone : Table.get? r key = none)
    {b : ReplicatedValue} (hj : A j) : Table.get? (replicas j) key ≠ some b := by
  intro hb
  refine Table.get?_eq_none_iff.mp hnone (h.keys.mpr ⟨j, hj, ?_⟩)
  exact Table.mem_keys_iff.mpr ⟨b, hb⟩

/-- A replica that takes in another one unites what the two have united. -/
theorem Unites.reconcile (h : Joining replicas) (hr : Unites replicas A r)
    (hs : Unites replicas B s) : Unites replicas (fun j => A j ∨ B j) (r.reconcile s) where
  keys := by
    intro key
    rw [mem_keys_reconcile, hr.keys, hs.keys]
    simp only [or_and_right, exists_or]
  kind := by
    intro key value j w hvalue hw
    obtain ⟨kind, hkind⟩ := h key
    rw [hkind j w hw]
    rcases reconcile_cases hvalue with ⟨-, hex⟩ | ⟨hin, -⟩ | ⟨a, b, hin, hex, rfl⟩
    · exact hr.joiningKind? hkind hex
    · exact hs.joiningKind? hkind hin
    · exact ReplicatedValue.joiningKind?_mergeBoth (hs.joiningKind? hkind hin)
        (hr.joiningKind? hkind hex)
  elements := by
    intro key value hvalue element
    obtain ⟨kind, hkind⟩ := h key
    simp only [or_and_right, exists_or]
    rcases reconcile_cases hvalue with ⟨hnone, hex⟩ | ⟨hin, hnone⟩ | ⟨a, b, hin, hex, rfl⟩
    · rw [hr.elements hex]
      refine (or_iff_left ?_).symm
      rintro ⟨j, w, hj, hw, -⟩
      exact hs.not_get? hnone hj hw
    · rw [hs.elements hin]
      refine (or_iff_right ?_).symm
      rintro ⟨j, w, hj, hw, -⟩
      exact hr.not_get? hnone hj hw
    · rw [ReplicatedValue.mem_elements_mergeBoth (hs.joiningKind? hkind hin)
        (hr.joiningKind? hkind hex), hs.elements hin, hr.elements hex, or_comm]

theorem unites_afterAll [DecidableEq ι] (h : Joining replicas) (pairs : List (ι × ι)) (i : ι) :
    Unites replicas (Absorbed pairs i) (afterAll replicas pairs i) := by
  induction pairs using List.reverseRecOn generalizing i with
  | nil =>
    have hself : Absorbed ([] : List (ι × ι)) i = fun j => i = j :=
      funext fun j => propext absorbed_nil
    rw [hself]
    exact unites_itself h i
  | append_singleton pairs pair ih =>
    have hstep : afterAll replicas (pairs ++ [pair]) = exchange (afterAll replicas pairs) pair :=
      List.foldl_concat ..
    rw [hstep, exchange]
    by_cases hi : i = pair.1
    · have hwhom : Absorbed (pairs ++ [pair]) i = fun j => Absorbed pairs i j ∨ Absorbed pairs pair.2 j :=
        funext fun j => propext (by rw [absorbed_concat, and_iff_right hi])
      rw [hwhom, hi, Function.update_self]
      exact (ih pair.1).reconcile h (ih pair.2)
    · have hwhom : Absorbed (pairs ++ [pair]) i = Absorbed pairs i :=
        funext fun j => propext (by simp [absorbed_concat, hi])
      rw [hwhom, Function.update_of_ne hi]
      exact ih i

theorem Unites.agree (hr : Unites replicas A r) (hs : Unites replicas B s)
    (hsame : ∀ j, A j ↔ B j) : Agree r s := by
  intro key
  cases ha : Table.get? r key with
  | none =>
    cases hb : Table.get? s key with
    | none => exact .none
    | some b =>
      obtain ⟨j, w, hj, hw⟩ := hs.exists_get? hb
      exact absurd hw (hr.not_get? ha ((hsame j).mpr hj))
  | some a =>
    obtain ⟨j, w, hj, hw⟩ := hr.exists_get? ha
    cases hb : Table.get? s key with
    | none => exact absurd hw (hs.not_get? hb ((hsame j).mp hj))
    | some b =>
      refine .some ⟨?_, fun element => ?_⟩
      · rw [hr.kind ha hw, hs.kind hb hw]
      · rw [hr.elements ha, hs.elements hb]
        simp only [hsame]

/-- After any exchanges every replica holds the union of what the replicas that it has absorbed
held at first, so that two which have absorbed the same ones agree, whatever the exchanges
were. -/
theorem converges [DecidableEq ι] (h : Joining replicas) (pairs : List (ι × ι)) (i : ι) :
    Unites replicas (Absorbed pairs i) (afterAll replicas pairs i) ∧
      ∀ pairs' i', (∀ j, Absorbed pairs i j ↔ Absorbed pairs' i' j) →
        Agree (afterAll replicas pairs i) (afterAll replicas pairs' i') :=
  ⟨unites_afterAll h pairs i, fun pairs' i' hsame =>
    (unites_afterAll h pairs i).agree (unites_afterAll h pairs' i') hsame⟩

end

/-! ### Three replicas -/

def sampleNode (id : String) : Node := ⟨id, none, "localhost", 5701⟩

def sampleGroup (id : String) : ReplicatedValue :=
  .nodes ⟨"default", KeyedList.ofList [sampleNode id], some "root"⟩

def sampleReplicas : Fin 3 → Replica
  | 0 => Table.ofPairs [("features", .set (KeyedList.ofList ["a"])),
      ("topics", .text "MERGABLE[x, y]")]
  | 1 => Table.ofPairs [("topics", .text "MERGABLE[]"), ("members", sampleGroup "n1")]
  | 2 => Table.ofPairs [("members", sampleGroup "n2"), ("topics", .text "MERGABLE[y,z]"),
      ("features", .set (KeyedList.ofList ["b"]))]

def sampleKind (key : String) : JoiningKind :=
  if key = "features" then .set else if key = "topics" then .tagged else .nodes "default" (some "root")

theorem sample_joining : Joining sampleReplicas := by
  have hall : ∀ i, ∀ entry ∈ (sampleReplicas i).toList,
      entry.2.joiningKind? = some (sampleKind entry.1) := by decide +kernel
  exact fun key => ⟨sampleKind key, fun i a ha => hall i (key, a) (Table.mem_of_get? ha)⟩

/-- The first replica takes in the second before and after the second has taken in the third. -/
def samplePairs : List (Fin 3 × Fin 3) := [(0, 1), (1, 2), (0, 1), (1, 0)]

theorem sample_absorbed (j : Fin 3) : Absorbed samplePairs 0 j ∧ Absorbed samplePairs 1 j := by
  have hfirst : ∀ j, Absorbed [(0, 1), (1, 2), (0, 1)] (0 : Fin 3) j := fun j =>
    match j with
    | 0 => .before (0, 1) (.before (1, 2) (.before (0, 1) (.itself 0)))
    | 1 => .before (0, 1) (.before (1, 2) (.through (.itself 1)))
    | 2 => .through (.through (.before (0, 1) (.itself 2)))
  exact ⟨.before (1, 0) (hfirst j), .through (hfirst j)⟩

theorem converges_sample : Joining sampleReplicas ∧
    Unites sampleReplicas (Absorbed samplePairs 0) (afterAll sampleReplicas samplePairs 0) ∧
    Agree (afterAll sampleReplicas samplePairs 0) (afterAll sampleReplicas samplePairs 1) := by
  have hboth := converges sample_joining samplePairs 0
  refine ⟨sample_joining, hboth.1, hboth.2 samplePairs 1 fun j => ?_⟩
  exact iff_of_true (sample_absorbed j).1 (sample_absorbed j).2

end Replica

end ClusterMesh
