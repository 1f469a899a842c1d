import ClusterMesh.Proofs.Json.Settled
import ClusterMesh.Proofs.Message.Times
import ClusterMesh.Proofs.Wire.Records
import ClusterMesh.Wire.Message
import ClusterMesh.Wire.Replicated
import Mathlib.Data.List.Nodup
import Mathlib.Data.Option.Basic

/-!
# What is written on the wire is read back

A message that is written and read is the same message: the nodes of its destination may come in
another order, everything else stays as it is. A replicated value is read as it is, with its
members in their order. Whatever can be read at all can be written and read again.
-/

namespace ClusterMesh

open Json

/-! ### Nodes and groups -/

theorem Node.toJson_ne_null (n : Node) : n.toJson ≠ .null := nofun

theorem Node.ofJson?_toJson (n : Node) : Node.ofJson? n.toJson = some n := by
  rw [Node.ofJson?, Node.toJson, record?_object (by rfl) (by simp)]
  simp [required?, text?, optional?_text, halfword?_toNat]

theorem NodeSet.ofJson?_list (nodes : List Node) :
    NodeSet.ofJson? (.list (nodes.map Node.toJson)) = some (KeyedList.ofList nodes) := by
  rw [NodeSet.ofJson?, listOf?_list fun n _ => Node.ofJson?_toJson n]
  rfl

theorem NodeSet.ofJson?_toJson (s : NodeSet) : NodeSet.ofJson? (NodeSet.toJson s) = some s := by
  rw [NodeSet.toJson, NodeSet.ofJson?_list, KeyedList.ofList_toList]

theorem Group.ofJson?_toJson (g : Group) : Group.ofJson? g.toJson = some g := by
  rw [Group.ofJson?, Group.toJson, record?_object (by rfl) (by simp)]
  simp [required?, text?, optional?_text, NodeSet.ofJson?_toJson]

/-! ### Points of time -/

namespace Timestamp

variable {t : Timestamp} {j : Json}

theorem ofJson?_toJson (h : t.isValid = true) : ofJson? t.toJson = some t := by
  simp only [ofJson?, toJson, text?, Option.bind_some, parse_render h]

theorem isValid_of_ofJson? (h : ofJson? j = some t) : t.isValid = true := by
  obtain ⟨s, -, hparse⟩ := Option.bind_eq_some_iff.mp h
  exact isValid_of_parse hparse

end Timestamp

/-! ### Events -/

/-- A set of nodes in the order of their ids. -/
def NodeSet.arranged (s : NodeSet) : NodeSet := KeyedList.ofList s.sorted

theorem NodeSet.mem_arranged {s : NodeSet} {n : Node} : n ∈ s.arranged.toList ↔ n ∈ s.toList := by
  have hperm : s.sorted.Perm s.toList := List.mergeSort_perm ..
  have hnodup : (s.sorted.map Node.id).Nodup := (hperm.map Node.id).nodup_iff.mpr s.nodup
  rw [NodeSet.arranged, KeyedList.toList_ofList_of_nodup hnodup, hperm.mem_iff]

variable {e : Event} {m : Message} {j : Json}

namespace Event

/-- An event that can be held: the calendar has the time at which it was made, and the objects
among the values of its properties have each name once, in order. -/
structure IsProper (e : Event) : Prop where
  createdAt : e.createdAt.isValid = true
  properties : ∀ entry ∈ e.properties.toList, entry.2.IsSettled

/-- Two events that are equal but for the order in which they hold the nodes of their
destinations. -/
structure Agrees (a b : Event) : Prop where
  destination : Option.Rel (fun s t : NodeSet => ∀ n, n ∈ s.toList ↔ n ∈ t.toList)
    a.destination b.destination
  rest : { a with destination := none } = { b with destination := none }

def arranged (e : Event) : Event := { e with destination := e.destination.map NodeSet.arranged }

theorem agrees_arranged (e : Event) : e.Agrees e.arranged where
  destination := by
    rw [arranged]
    cases e.destination with
    | none => exact .none
    | some s => exact .some fun _ => NodeSet.mem_arranged.symm
  rest := rfl

theorem propertiesOfJson?_object {properties : Table String Json}
    (h : ∀ entry ∈ properties.toList, entry.2.IsSettled) :
    propertiesOfJson? (.object properties.toList) = some properties := by
  have hall : properties.toList.mapM (fun f => (some f.2.settled).map fun v => (f.1, v)) =
      some (properties.toList.map fun f => f) :=
    mapM_eq_some fun f hf => congrArg some (Prod.ext rfl (h f hf))
  rw [propertiesOfJson?, mapOf?, hall, List.map_id', Option.map_some, Table.ofPairs_toList]

theorem isSettled_of_propertiesOfJson? {properties : Table String Json}
    (h : propertiesOfJson? j = some properties) :
    ∀ entry ∈ properties.toList, entry.2.IsSettled := by
  obtain ⟨pairs, hpairs, rfl⟩ := Option.map_eq_some_iff.mp h
  intro entry hentry
  have hmem := Table.mem_of_mem_ofPairs hentry
  cases j with
  | object fields =>
    have hall : mapOf? (fun v => some v.settled) (.object fields) =
        some (fields.map fun f => (f.1, f.2.settled)) := mapM_eq_some fun _ _ => rfl
    rw [← Option.some.inj (hall.symm.trans hpairs)] at hmem
    obtain ⟨f, -, rfl⟩ := List.mem_map.mp hmem
    exact isSettled_settled f.2
  | _ => cases hpairs

theorem ofJson?_toJson (h : e.IsProper) : ofJson? e.toJson = some e.arranged := by
  have hsource : optional? Node.ofJson? (some (ofOption Node.toJson e.sourceNode)) =
      some e.sourceNode := by
    rw [optional?_ofOption Node.toJson_ne_null (fun n _ => Node.ofJson?_toJson n)]
    simp
  have hdestination : optional? NodeSet.ofJson?
      (some (ofOption (fun s => .list (s.sorted.map Node.toJson)) e.destination)) =
      some (e.destination.map NodeSet.arranged) := by
    refine optional?_ofOption (fun s => ?_) (fun s _ => NodeSet.ofJson?_list s.sorted)
    exact Json.noConfusion
  rw [ofJson?, toJson, record?_object (by rfl) (by simp)]
  simp [required?, text?, optional?_text, hsource, hdestination, bool?,
    propertiesOfJson?_object h.properties, Timestamp.ofJson?_toJson h.createdAt, arranged]

theorem isProper_of_ofJson? (h : ofJson? j = some e) : e.IsProper := by
  obtain ⟨fields, -, h⟩ := Option.bind_eq_some_iff.mp h
  split at h
  · simp only [Option.bind_eq_bind, Option.bind_eq_some_iff, Option.some.injEq] at h
    obtain ⟨_, -, _, -, _, -, _, -, _, -, _, -, properties, hproperties, createdAt, hcreated, rfl⟩ := h
    obtain ⟨_, -, hproperties⟩ := Option.bind_eq_some_iff.mp hproperties
    obtain ⟨_, -, hcreated⟩ := Option.bind_eq_some_iff.mp hcreated
    exact ⟨Timestamp.isValid_of_ofJson? hcreated, isSettled_of_propertiesOfJson? hproperties⟩
  · cases h

end Event

/-! ### Messages -/

theorem Command.ofJson?_toJson {c : Command} (h : c.event.IsProper) :
    Command.ofJson? c.toJson = some { c with event := c.event.arranged } := by
  have htimeout : optional? word? (some (ofOption (fun t : UInt64 => .int t.toNat) c.timeout)) =
      some c.timeout := by
    rw [optional?_ofOption (fun _ => Json.noConfusion) (fun t _ => word?_toNat t)]
    simp
  rw [Command.ofJson?, Command.toJson, record?_object (by rfl) (by simp)]
  simp [required?, Event.ofJson?_toJson h, htimeout]

theorem CommandResult.ofJson?_toJson {r : CommandResult} (h : r.event.IsProper) :
    CommandResult.ofJson? r.toJson = some ⟨r.event.arranged⟩ := by
  rw [CommandResult.ofJson?, CommandResult.toJson, record?_object (by rfl) (by simp)]
  simp [required?, Event.ofJson?_toJson h]

theorem Command.isProper_of_ofJson? {c : Command} (h : Command.ofJson? j = some c) :
    c.event.IsProper := by
  obtain ⟨fields, -, h⟩ := Option.bind_eq_some_iff.mp h
  split at h
  · simp only [Option.bind_eq_bind, Option.bind_eq_some_iff, Option.some.injEq] at h
    obtain ⟨event, hevent, _, -, rfl⟩ := h
    obtain ⟨_, -, hevent⟩ := Option.bind_eq_some_iff.mp hevent
    exact Event.isProper_of_ofJson? hevent
  · cases h

theorem CommandResult.isProper_of_ofJson? {r : CommandResult}
    (h : CommandResult.ofJson? j = some r) : r.event.IsProper := by
  obtain ⟨fields, -, h⟩ := Option.bind_eq_some_iff.mp h
  split at h
  · simp only [Option.bind_eq_bind, Option.bind_eq_some_iff, Option.some.injEq] at h
    obtain ⟨event, hevent, rfl⟩ := h
    obtain ⟨_, -, hevent⟩ := Option.bind_eq_some_iff.mp hevent
    exact Event.isProper_of_ofJson? hevent
  · cases h

namespace Message

def IsProper (m : Message) : Prop := m.header.IsProper

/-- Two messages of one kind that say the same. -/
inductive Agrees : Message → Message → Prop
  | event {a b : Event} (header : a.Agrees b) : Agrees (.event a) (.event b)
  | command {a b : Command} (header : a.event.Agrees b.event) (timeout : a.timeout = b.timeout) :
      Agrees (.command a) (.command b)
  | result {a b : CommandResult} (header : a.event.Agrees b.event) : Agrees (.result a) (.result b)

theorem agrees_mapHeader_arranged (m : Message) : m.Agrees (m.mapHeader Event.arranged) := by
  cases m with
  | event e => exact .event e.agrees_arranged
  | command c => exact .command c.event.agrees_arranged rfl
  | result r => exact .result r.event.agrees_arranged

theorem ofJson?_toJson (h : m.IsProper) : ofJson? m.toJson = some (m.mapHeader Event.arranged) := by
  cases m with
  | event e =>
    rw [ofJson?, toJson, record?_object (by rfl) (by simp)]
    simp [required?, case?, bodyReaders, List.lookup_cons, Event.ofJson?_toJson (e := e) h,
      mapHeader]
  | command c =>
    rw [ofJson?, toJson, record?_object (by rfl) (by simp)]
    simp [required?, case?, bodyReaders, List.lookup_cons, Command.ofJson?_toJson h, mapHeader]
  | result r =>
    rw [ofJson?, toJson, record?_object (by rfl) (by simp)]
    simp [required?, case?, bodyReaders, List.lookup_cons, CommandResult.ofJson?_toJson h,
      mapHeader]

theorem isProper_of_ofJson? (h : ofJson? j = some m) : m.IsProper := by
  obtain ⟨fields, -, h⟩ := Option.bind_eq_some_iff.mp h
  split at h
  · next kind body =>
    simp only [Option.bind_eq_bind, Option.bind_eq_some_iff] at h
    obtain ⟨read, hkind, body, -, hread⟩ := h
    obtain ⟨_, -, hcase⟩ := Option.bind_eq_some_iff.mp hkind
    obtain ⟨name, hmem⟩ := case?_mem hcase
    simp only [bodyReaders, List.mem_cons, Prod.mk.injEq, List.not_mem_nil, or_false] at hmem
    rcases hmem with ⟨-, rfl⟩ | ⟨-, rfl⟩ | ⟨-, rfl⟩
    · obtain ⟨e, he, rfl⟩ := Option.map_eq_some_iff.mp hread
      exact Event.isProper_of_ofJson? he
    · obtain ⟨c, hc, rfl⟩ := Option.map_eq_some_iff.mp hread
      exact Command.isProper_of_ofJson? hc
    · obtain ⟨r, hr, rfl⟩ := Option.map_eq_some_iff.mp hread
      exact CommandResult.isProper_of_ofJson? hr
  · cases h

end Message

/-! ### Replicated values -/

namespace ReplicatedValue

variable {v : ReplicatedValue}

/-- A replicated value that can be held: the objects in a scalar have each name once, in order. -/
def IsSettled : ReplicatedValue → Prop
  | scalar value => value.IsSettled
  | _ => True

theorem ofJson?_toJson (h : v.IsSettled) : ofJson? v.toJson = some v := by
  rw [ofJson?, toJson, record?_object (by rfl) (by simp)]
  cases v with
  | scalar value =>
    have hvalue : value.settled = value := h
    simp [required?, case?, kind, payload, payloadReaders, List.lookup_cons, hvalue]
  | text s => simp [required?, case?, kind, payload, payloadReaders, List.lookup_cons, text?]
  | set items =>
    have htexts : listOf? text? (ofTexts items.toList) = some items.toList :=
      listOf?_list fun _ _ => rfl
    simp [required?, case?, kind, payload, payloadReaders, List.lookup_cons, htexts]
  | list items =>
    have htexts : listOf? text? (ofTexts items) = some items := listOf?_list fun _ _ => rfl
    simp [required?, case?, kind, payload, payloadReaders, List.lookup_cons, htexts]
  | nodes group =>
    simp [required?, case?, kind, payload, payloadReaders, List.lookup_cons, Group.ofJson?_toJson]

theorem isSettled_of_ofJson? (h : ofJson? j = some v) : v.IsSettled := by
  obtain ⟨fields, -, h⟩ := Option.bind_eq_some_iff.mp h
  split at h
  · next kind value =>
    simp only [Option.bind_eq_bind, Option.bind_eq_some_iff] at h
    obtain ⟨read, hkind, value, -, hread⟩ := h
    obtain ⟨_, -, hcase⟩ := Option.bind_eq_some_iff.mp hkind
    obtain ⟨name, hmem⟩ := case?_mem hcase
    simp only [payloadReaders, List.mem_cons, Prod.mk.injEq, List.not_mem_nil, or_false] at hmem
    rcases hmem with ⟨-, rfl⟩ | ⟨-, rfl⟩ | ⟨-, rfl⟩ | ⟨-, rfl⟩ | ⟨-, rfl⟩
    · rw [← Option.some.inj hread]
      exact isSettled_settled value
    all_goals
      obtain ⟨_, -, rfl⟩ := Option.map_eq_some_iff.mp hread
      trivial
  · cases h

end ReplicatedValue

/-! ### Both ways -/

/-- A message that can be held is read back from what it is written as, and so is one that came
from anywhere at all. The same is true of replicated values. -/
theorem wire_round_trip :
    (∀ m : Message, m.IsProper → ∃ m', Message.ofJson? m.toJson = some m' ∧ m.Agrees m') ∧
    (∀ j m, Message.ofJson? j = some m → ∃ m', Message.ofJson? m.toJson = some m' ∧ m.Agrees m') ∧
    (∀ v : ReplicatedValue, v.IsSettled → ReplicatedValue.ofJson? v.toJson = some v) ∧
    ∀ j v, ReplicatedValue.ofJson? j = some v → ReplicatedValue.ofJson? v.toJson = some v := by
  have hmessage : ∀ m : Message, m.IsProper →
      ∃ m', Message.ofJson? m.toJson = some m' ∧ m.Agrees m' := fun m hm =>
    ⟨m.mapHeader Event.arranged, Message.ofJson?_toJson hm, m.agrees_mapHeader_arranged⟩
  refine ⟨hmessage, fun j m hread => ?_, fun v hv => ReplicatedValue.ofJson?_toJson hv,
    fun j v hread => ?_⟩
  · exact hmessage m (Message.isProper_of_ofJson? hread)
  · exact ReplicatedValue.ofJson?_toJson (ReplicatedValue.isSettled_of_ofJson? hread)

/-- A command for two nodes, which it holds against the order of their ids, with a list and an
object among its properties and a time to the nanosecond. -/
def relayedCommand : Command where
  event :=
    { Event.withId "c-1" "reindex" with
      destination := some (KeyedList.ofList
        [⟨"b", none, "10.0.0.2", 5702⟩, ⟨"a", some "first", "10.0.0.1", 5701⟩])
      force := true
      properties := Table.ofPairs [("shards", .list [.int 3, .null]),
        ("options", .object [("deep", .bool true), ("note", .text "all")])]
      createdAt := ⟨2024, 2, 29, 23, 59, 59, 120000005⟩ }
  timeout := some 250

theorem isProper_relayedCommand : (Message.command relayedCommand).IsProper where
  createdAt := by decide
  properties := by
    intro entry hentry
    have hcases : entry ∈ [("shards", Json.list [.int 3, .null]),
        ("options", .object [("deep", .bool true), ("note", .text "all")])] := hentry
    simp only [List.mem_cons, List.not_mem_nil, or_false] at hcases
    rcases hcases with rfl | rfl
    · rfl
    · rfl

theorem wire_round_trip_relayed :
    (∃ m', Message.ofJson? (Message.command relayedCommand).toJson = some m' ∧
      (Message.command relayedCommand).Agrees m') ∧
    (∃ m', Message.ofJson?
        ((Message.command relayedCommand).mapHeader Event.arranged).toJson = some m' ∧
      ((Message.command relayedCommand).mapHeader Event.arranged).Agrees m') ∧
    ReplicatedValue.ofJson? (ReplicatedValue.scalar (.object [("a", .int 1)])).toJson =
      some (.scalar (.object [("a", .int 1)])) ∧
    ReplicatedValue.ofJson? (ReplicatedValue.set (KeyedList.ofList ["b", "a"])).toJson =
      some (.set (KeyedList.ofList ["b", "a"])) :=
  ⟨wire_round_trip.1 (.command relayedCommand) isProper_relayedCommand,
    wire_round_trip.2.1 (Message.command relayedCommand).toJson _
      (Message.ofJson?_toJson isProper_relayedCommand),
    wire_round_trip.2.2.1 (.scalar (.object [("a", .int 1)])) rfl,
    wire_round_trip.2.2.2 (.list [.text "set", .list [.text "b", .text "a", .text "b"]]) _ rfl⟩

end ClusterMesh
