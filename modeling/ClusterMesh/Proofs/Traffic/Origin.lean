import ClusterMesh.Proofs.Traffic.Permits

/-!
# Results go to where their commands came from

A result carries the id of the command that it answers and is addressed to the node that the
command came from. Where every command is stamped by the station that executes it and every result
is the answer of a handler, no result reaches a pending command of another station.
-/

namespace ClusterMesh

namespace Mesh

/-- No two stations have one node id. -/
def HasDistinctNodes (m : Mesh) : Prop :=
  ∀ {i j}, i < m.stations.length → j < m.stations.length →
    (m.station i).node.id = (m.station j).node.id → i = j

theorem hasDistinctNodes_of_nodup {m : Mesh} (h : (m.stations.map fun s => s.node.id).Nodup) :
    m.HasDistinctNodes := by
  intro i j hi hj hid
  have hat : ∀ {k}, k < m.stations.length →
      (m.stations.map fun s => s.node.id)[k]? = some (m.station k).node.id := by
    intro k hk
    simp [station, List.getD_eq_getElem?_getD, hk]
  exact (List.getElem?_inj (by simpa using hi) h).mp (by rw [hat hi, hat hj, hid])

/-- A move takes no station away and gives none another node. -/
theorem HasDistinctNodes.of_move {m m' : Mesh} {e : Traffic} (h : m'.HasDistinctNodes)
    (hmove : m.Move e m') : m.HasDistinctNodes := by
  intro i j hi hj hid
  obtain ⟨hlength, hnode⟩ := hmove.nodes
  refine h (Nat.lt_of_lt_of_le hi hlength) (Nat.lt_of_lt_of_le hj hlength) ?_
  rw [hnode hi, hnode hj, hid]

end Mesh

/-- A run in which commands are sent only by calls that name no source node, and results only as
the answers of handlers. Its moves may follow each other in any order in which they can. -/
structure Exchange where
  state : Nat → Mesh
  traffic : Nat → Traffic
  start : ∃ capacity, state 0 = Mesh.ofCapacity capacity
  step : ∀ n, (state n).Move (traffic n) (state (n + 1))
  distinct : ∀ n, (state n).HasDistinctNodes
  sourceless : ∀ {n i c}, traffic n = .submits i c → c.event.sourceNode = none
  plain : ∀ {n message}, traffic n = .injects message → ∃ e, message = .event e

namespace Exchange

variable {h : Exchange} {n k a b i : Nat} {c : Command} {result : CommandResult}

/-- A station has published a command before a step. -/
def Published (h : Exchange) (n a : Nat) (c : Command) : Prop := ∃ q < n, h.traffic q = .sends a c

/-- A result answers a command that a station has published before a step, for another station or
for the same. -/
def Replies (h : Exchange) (n a : Nat) (c : Command) (result : CommandResult) : Prop :=
  h.Published n a c ∧ ∃ b < (h.state n).stations.length,
    result.Answers c ((h.state n).station b).node

theorem node_succ (n : Nat) (hi : i < (h.state n).stations.length) :
    i < (h.state (n + 1)).stations.length ∧
      ((h.state (n + 1)).station i).node = ((h.state n).station i).node := by
  obtain ⟨hlength, hnode⟩ := (h.step n).nodes
  exact ⟨Nat.lt_of_lt_of_le hi hlength, hnode hi⟩

theorem Published.succ (hp : h.Published n a c) : h.Published (n + 1) a c := by
  obtain ⟨q, hq, he⟩ := hp
  exact ⟨q, Nat.lt_succ_of_lt hq, he⟩

theorem Replies.succ (hr : h.Replies n a c result) : h.Replies (n + 1) a c result := by
  obtain ⟨hp, b, hb, hanswers⟩ := hr
  obtain ⟨hb', hnode⟩ := node_succ n hb
  exact ⟨hp.succ, b, hb', hnode ▸ hanswers⟩

/-- A published command names the node of its station as its source. -/
def Sourced (h : Exchange) (n a : Nat) (c : Command) : Prop :=
  a < (h.state n).stations.length ∧ c.event.sourceNode = some ((h.state n).station a).node

theorem Sourced.succ (hs : h.Sourced n a c) : h.Sourced (n + 1) a c := by
  obtain ⟨ha, hnode⟩ := node_succ n hs.1
  exact ⟨ha, by rw [hnode, hs.2]⟩

/-- What is on the bus before a step: commands of the stations that published them, and answers to
such commands. -/
def Travels (h : Exchange) (n : Nat) : Message → Prop
  | .event _ => True
  | .command c => ∃ a, h.Published n a c ∧ h.Sourced n a c
  | .result result => ∃ a c, h.Replies n a c result ∧ h.Sourced n a c

theorem Travels.succ {message : Message} (ht : h.Travels n message) :
    h.Travels (n + 1) message := by
  cases message with
  | event e => trivial
  | command c =>
    obtain ⟨a, hp, hs⟩ := ht
    exact ⟨a, hp.succ, hs.succ⟩
  | result result =>
    obtain ⟨a, c, hr, hs⟩ := ht
    exact ⟨a, c, hr.succ, hs.succ⟩

def permits (h : Exchange) (n : Nat) : Permits where
  travels := h.Travels n
  held i message := i < (h.state n).stations.length ∧ h.Travels n message ∧
    message.header.isAddressedTo ((h.state n).station i).node = true
  submitted _ c := c.event.sourceNode = none
  executed i c := h.Sourced n i c
  recorded i result := ∃ c, h.Replies n i c result

theorem permits_le (n : Nat) : (h.permits n).Le (h.permits (n + 1)) where
  travels := Travels.succ
  held := by
    rintro i message ⟨hi, htravels, haddressed⟩
    obtain ⟨hi', hnode⟩ := node_succ n hi
    exact ⟨hi', htravels.succ, by rw [hnode, haddressed]⟩
  submitted := id
  executed := Sourced.succ
  recorded := by
    rintro _ result ⟨c, hr⟩
    exact ⟨c, hr.succ⟩

/-- An answer is addressed to the station of the command and to no other. -/
theorem eq_of_addressed (hs : h.Sourced n a c) (hi : i < (h.state n).stations.length)
    {node : Node} (hanswers : result.Answers c node)
    (haddressed : result.event.isAddressedTo ((h.state n).station i).node = true) : i = a := by
  obtain ⟨resultType, properties, hevent⟩ := hanswers
  have hdestination : result.event.destination =
      some (KeyedList.ofList [((h.state n).station a).node]) := by
    rw [hevent]
    simp [CommandResult.replyTo, hs.2]
  rw [Event.isAddressedTo, hdestination] at haddressed
  simp only [KeyedList.contains_iff, KeyedList.mem_keys_ofList, List.map_cons, List.map_nil,
    List.mem_singleton] at haddressed
  exact h.distinct n hi hs.1 haddressed

theorem allows (n : Nat) : (h.state n).Allows (h.permits n) (h.permits (n + 1)) (h.traffic n) := by
  cases he : h.traffic n with
  | submits i c => exact h.sourceless he
  | injects message =>
    obtain ⟨e, rfl⟩ := h.plain he
    refine ⟨trivial, ?_, ?_⟩
    · intro i hi haddressed
      obtain ⟨hi', hnode⟩ := node_succ n hi
      exact ⟨hi', trivial, by rw [hnode, haddressed]⟩
    · intro i result heq
      cases heq
  | sends i c =>
    rintro hi ⟨c', hc', rfl⟩
    have hstamped : (c'.stamped ((h.state n).station i).node).event.sourceNode =
        some ((h.state n).station i).node := by
      simp only [Command.stamped, Event.sourceNode_stamped, hc'.2, Option.getD_some]
    have hs : h.Sourced n i (c'.stamped ((h.state n).station i).node) := ⟨hi, hstamped⟩
    exact ⟨i, ⟨n, Nat.lt_succ_self n, he⟩, hs.succ⟩
  | arrives i message =>
    intro hi htravels haddressed
    obtain ⟨hi', hnode⟩ := node_succ n hi
    exact ⟨hi', htravels.succ, by rw [hnode, haddressed]⟩
  | answers i c result =>
    rintro hi ⟨-, ⟨a, hp, hs⟩, -⟩ hanswers
    have hr : h.Replies n a c result := ⟨hp, i, hi, hanswers⟩
    exact ⟨a, c, hr.succ, hs.succ⟩
  | takesIn i result =>
    rintro hi ⟨-, ⟨a, c, hr, hs⟩, haddressed⟩
    obtain ⟨b, -, hanswers⟩ := hr.2
    obtain rfl := eq_of_addressed hs hi hanswers haddressed
    exact ⟨c, hr.succ⟩
  | calm => trivial

/-- Everything in a run is permitted, step after step. -/
theorem carries (h : Exchange) (n : Nat) : (h.state n).Carries (h.permits n) := by
  induction n with
  | zero =>
    obtain ⟨capacity, hstart⟩ := h.start
    have hnone : ∀ {i}, ¬i < (h.state 0).stations.length := by
      intro i
      rw [hstart]
      exact Nat.not_lt_zero i
    refine ⟨?_, fun hm => absurd hm.1 hnone, fun hc => absurd hc.1 hnone,
      fun hc => absurd hc.1 hnone, fun hr => absurd hr.1 hnone⟩
    intro message hm
    rw [hstart] at hm
    cases hm
  | succ n ih =>
    refine ih.move (h.step n) (permits_le n) ?_ (allows n)
    intro i c hi hsubmitted
    have hnone : c.event.sourceNode = none := hsubmitted
    exact ⟨hi, by simp only [Command.stamped, Event.sourceNode_stamped, hnone, Option.getD_none]⟩

theorem id_of_answers {node : Node} (h : result.Answers c node) : c.id = result.id := by
  obtain ⟨resultType, properties, hevent⟩ := h
  rw [CommandResult.id, hevent]
  rfl

/-- A result that a station has recorded, or hands to its store, answers a command of its id that
the station itself has published. A result that arrives at any other station than the one that
published its command is not dispatched there: nothing but the bus changes. -/
theorem isolated (h : Exchange) (n : Nat) :
    (∀ {a k p entry}, ((h.state n).store a).command? k = some p → entry ∈ p.results.toList →
      ∃ c, h.Replies n a c entry.2 ∧ c.id = entry.2.id) ∧
    (∀ {a result}, h.traffic n = .takesIn a result →
      ∃ c, h.Replies n a c result ∧ c.id = result.id) ∧
    ∀ {b result}, h.traffic n = .arrives b (.result result) →
      ∃ a c, h.Replies n a c result ∧ c.id = result.id ∧
        (b ≠ a → ∃ bus, h.state (n + 1) = { h.state n with bus }) := by
  have hcarries := h.carries n
  refine ⟨?_, ?_, ?_⟩
  · intro a k p entry hp hentry
    have ha : a < (h.state n).stations.length := by
      by_contra hout
      have hdefault : (h.state n).station a = default := by
        simp [Mesh.station, List.getD_eq_getElem?_getD, hout]
      simp only [Mesh.store, hdefault] at hp
      cases hp
    obtain ⟨c, hr⟩ := hcarries.records ⟨ha, k, p, entry.1, hp, hentry⟩
    obtain ⟨b, -, hanswers⟩ := hr.2
    exact ⟨c, hr, id_of_answers hanswers⟩
  · intro a result he
    have hmove := h.step n
    rw [he] at hmove
    generalize h.state (n + 1) = next at hmove
    cases hmove with
    | takeIn held calm =>
      obtain ⟨hi, ⟨a', c, hr, hs⟩, haddressed⟩ := hcarries.holds held
      obtain ⟨b, -, hanswers⟩ := hr.2
      obtain rfl := eq_of_addressed hs hi hanswers haddressed
      exact ⟨c, hr, id_of_answers hanswers⟩
  · intro b result he
    have hmove := h.step n
    rw [he] at hmove
    generalize hnext : h.state (n + 1) = next at hmove
    cases hmove with
    | @arrive _ subscriber bus _ received placed =>
      obtain ⟨a, c, hr, hs⟩ := hcarries.kept (Bus.receive_message received).1
      obtain ⟨b', -, hanswers⟩ := hr.2
      refine ⟨a, c, hr, id_of_answers hanswers, fun hne => ⟨bus, ?_⟩⟩
      have hnot : ¬(({ h.state n with bus } : Mesh).station b).takes (.result result) = true :=
        fun htakes => hne (eq_of_addressed hs placed hanswers (Station.isAddressed_of_takes htakes))
      rw [Mesh.consume, if_neg hnot]
    | @read _ subscriber bus _ received placed takes =>
      obtain ⟨a, c, hr, hs⟩ := hcarries.kept (Bus.receive_message received).1
      obtain ⟨b', -, hanswers⟩ := hr.2
      refine ⟨a, c, hr, id_of_answers hanswers, fun hne => ?_⟩
      exact absurd (eq_of_addressed hs placed hanswers (Station.isAddressed_of_takes takes)) hne

/-! ### A run in which two nodes ask each other under one id -/

def northNode : Node := ⟨"n", none, "localhost", 5701⟩

def southNode : Node := ⟨"s", none, "localhost", 5702⟩

def answeringHandler : Handler :=
  ⟨"ask", Switch.named "answerer", .answerer "answer" ⟨0, .succeeds⟩⟩

def stationAt (node : Node) : Station := .start node ∅ true {} ⟨10000, false⟩

def questionTo (node : Node) : Command :=
  ⟨{ Event.withId "q" "ask" with destination := some (KeyedList.ofList [node]) }, none⟩

def northQuestion : Command := (questionTo southNode).stamped northNode

def southQuestion : Command := (questionTo northNode).stamped southNode

def southAnswer : CommandResult := Mesh.scriptedResult southNode "answer" northQuestion

def northAnswer : CommandResult := Mesh.scriptedResult northNode "answer" southQuestion

def readingOf (m : Mesh) (subscriber : Nat) : Mesh :=
  { m with bus := (m.bus.receive subscriber).1 }

/-- Two stations send each other a question of one id. Both read both questions; the call to the
dispatcher of the southern one is under way while the northern one reads. Both answer, both read the
answer of the southern one, and the northern one takes it in. -/
def askingNext (m : Mesh) : Nat → Mesh
  | 0 => (m.addStation (stationAt northNode)).1
  | 1 => (m.addStation (stationAt southNode)).1
  | 2 => m.startConsumer 0 false
  | 3 => m.startConsumer 1 false
  | 4 => m.bindAnswerer 0 answeringHandler
  | 5 => m.bindAnswerer 1 answeringHandler
  | 6 => (m.execute 0 (questionTo southNode)).1
  | 7 => (m.execute 1 (questionTo northNode)).1
  | 8 => (m.enter 2 0 northQuestion).1
  | 9 => (m.enter 3 1 southQuestion).1
  | 10 => m.publish (.command northQuestion)
  | 11 => m.publish (.command southQuestion)
  | 12 => m.depart 2 0 northQuestion 0 10000 4 (.ok true)
  | 13 => m.depart 3 1 southQuestion 0 10000 5 (.ok true)
  | 14 => ((readingOf m 0).consume 0 (.command northQuestion)).1
  | 15 => (readingOf m 1).beginDispatch 1 ⟨.command northQuestion, some (m.bus.place 1)⟩
  | 16 => ((readingOf m 0).consume 0 (.command southQuestion)).1
  | 17 => m.endDispatch 1 0 (.command northQuestion)
  | 18 => ((readingOf m 1).consume 1 (.command southQuestion)).1
  | 19 => (m.handle 1 0 (.command northQuestion)).1
  | 20 => (m.handle 0 0 (.command southQuestion)).1
  | 21 => ((readingOf m 0).consume 0 (.result southAnswer)).1
  | 22 => ((readingOf m 1).consume 1 (.result southAnswer)).1
  | 23 => (m.handle 0 1 (.result southAnswer)).1
  | _ => m

def askingState : Nat → Mesh
  | 0 => Mesh.ofCapacity 4
  | n + 1 => askingNext (askingState n) n

def askingTraffic : Nat → Traffic
  | 6 => .submits 0 (questionTo southNode)
  | 7 => .submits 1 (questionTo northNode)
  | 10 => .sends 0 northQuestion
  | 11 => .sends 1 southQuestion
  | 14 => .arrives 0 (.command northQuestion)
  | 15 => .arrives 1 (.command northQuestion)
  | 16 => .arrives 0 (.command southQuestion)
  | 18 => .arrives 1 (.command southQuestion)
  | 19 => .answers 1 northQuestion southAnswer
  | 20 => .answers 0 southQuestion northAnswer
  | 21 => .arrives 0 (.result southAnswer)
  | 22 => .arrives 1 (.result southAnswer)
  | 23 => .takesIn 0 southAnswer
  | _ => .calm

theorem answers_scriptedResult (node : Node) (resultType : String) (c : Command) :
    (Mesh.scriptedResult node resultType c).Answers c node :=
  Mesh.answers_setProperty (Mesh.answers_replyTo c resultType node) _ _

theorem asking_step (n : Nat) : (askingState n).Move (askingTraffic n) (askingState (n + 1)) := by
  match n with
  | 0 => exact .calm (Mesh.calm_addStation (Mesh.placed_of_nil rfl) rfl rfl)
  | 1 => exact .calm (Mesh.calm_addStation (Mesh.placed_of_nil rfl) rfl rfl)
  | 2 => exact .calm (Mesh.calm_startConsumer _ 0 false)
  | 3 => exact .calm (Mesh.calm_startConsumer _ 1 false)
  | 4 | 5 => exact .calm (Mesh.calm_updateStation rfl id (.refl _))
  | 6 | 7 => exact .submit _ (by decide)
  | 8 =>
    have htask : (askingState 8).tasks[2]? =
      some ⟨0, .executing (questionTo southNode) .submitted, false⟩ := rfl
    exact .calm (Mesh.calm_enter (m := askingState 8) (by decide) htask)
  | 9 =>
    have htask : (askingState 9).tasks[3]? =
      some ⟨1, .executing (questionTo northNode) .submitted, false⟩ := rfl
    exact .calm (Mesh.calm_enter (m := askingState 9) (by decide) htask)
  | 10 =>
    exact .send (m := askingState 10) (i := 0) (c := northQuestion)
      ⟨by decide, 2, .sending 0 10000 4, false, by simp, rfl⟩
  | 11 =>
    exact .send (m := askingState 11) (i := 1) (c := southQuestion)
      ⟨by decide, 3, .sending 0 10000 5, false, by simp, rfl⟩
  | 12 =>
    have htask : (askingState 12).tasks[2]? =
      some ⟨0, .executing northQuestion (.sending 0 10000 4), false⟩ := rfl
    exact .calm (Mesh.calm_depart (m := askingState 12) (by decide) htask (.ok true))
  | 13 =>
    have htask : (askingState 13).tasks[3]? =
      some ⟨1, .executing southQuestion (.sending 0 10000 5), false⟩ := rfl
    exact .calm (Mesh.calm_depart (m := askingState 13) (by decide) htask (.ok true))
  | 14 => exact .arrive (m := askingState 14) (Bus.receive_eq (askingState 14).bus 0 rfl) (by decide)
  | 15 =>
    exact .read (m := askingState 15) (Bus.receive_eq (askingState 15).bus 1 rfl) (by decide) rfl
  | 16 => exact .arrive (m := askingState 16) (Bus.receive_eq (askingState 16).bus 0 rfl) (by decide)
  | 17 =>
    have hcall : ((askingState 17).station 1).dispatcher.entering[0]? =
      some ⟨.command northQuestion, some 0⟩ := rfl
    exact .calm (Mesh.calm_endDispatch (m := askingState 17) (i := 1) (k := 0) (by decide) hcall)
  | 18 => exact .arrive (m := askingState 18) (Bus.receive_eq (askingState 18).bus 1 rfl) (by decide)
  | 19 =>
    exact .answer (m := askingState 19) (i := 1) ⟨by decide, Or.inl ⟨7, _, rfl, rfl, rfl⟩⟩
      (Mesh.calm_note (askingState 19) answeringHandler (.command northQuestion))
      (answers_scriptedResult southNode "answer" northQuestion)
  | 20 =>
    exact .answer (m := askingState 20) (i := 0) ⟨by decide, Or.inl ⟨6, _, rfl, rfl, rfl⟩⟩
      (Mesh.calm_note (askingState 20) answeringHandler (.command southQuestion))
      (answers_scriptedResult northNode "answer" southQuestion)
  | 21 => exact .arrive (m := askingState 21) (Bus.receive_eq (askingState 21).bus 0 rfl) (by decide)
  | 22 => exact .arrive (m := askingState 22) (Bus.receive_eq (askingState 22).bus 1 rfl) (by decide)
  | 23 =>
    exact .takeIn (m := askingState 23) (i := 0) ⟨by decide, Or.inl ⟨8, _, rfl, rfl, rfl⟩⟩ (.refl _)
  | n + 24 => exact .calm (.refl _)

theorem askingState_rest (n : Nat) : askingState (n + 24) = askingState 24 := by
  induction n with
  | zero => rfl
  | succ n ih => exact ih

theorem asking_distinct (n : Nat) : (askingState n).HasDistinctNodes := by
  have hlast : ((askingState 24).stations.map fun s => s.node.id).Nodup := by decide +kernel
  rcases Nat.le_total 24 n with hge | hle
  · rw [← Nat.sub_add_cancel hge, askingState_rest]
    apply Mesh.hasDistinctNodes_of_nodup
    exact hlast
  · induction hle using Nat.decreasingInduction with
    | self => exact Mesh.hasDistinctNodes_of_nodup hlast
    | of_succ k _ ih => exact ih.of_move (asking_step k)

def asking : Exchange where
  state := askingState
  traffic := askingTraffic
  start := ⟨4, rfl⟩
  step := asking_step
  distinct := asking_distinct
  sourceless := by
    intro n i c he
    unfold askingTraffic at he
    split at he <;> cases he <;> rfl
  plain := by
    intro n message he
    unfold askingTraffic at he
    split at he <;> cases he

/-- The answer reaches both stations while both have a command of its id. Only the one that it
answers takes it in. -/
theorem isolated_sample :
    ((asking.state 22).store 0).get? "q" = some 0 ∧
    ((asking.state 22).store 1).get? "q" = some 0 ∧
    asking.traffic 22 = .arrives 1 (.result southAnswer) ∧
    asking.traffic 23 = .takesIn 0 southAnswer ∧
    (((asking.state 24).store 0).command? 0).map (fun p => p.results.toList.length) = some 1 ∧
    (((asking.state 24).store 1).command? 0).map (fun p => p.results.toList.length) = some 0 ∧
    (∃ a c, asking.Replies 22 a c southAnswer ∧ c.id = southAnswer.id ∧
      (1 ≠ a → ∃ bus, asking.state 23 = { asking.state 22 with bus })) ∧
    (∃ c, asking.Replies 23 0 c southAnswer ∧ c.id = southAnswer.id) ∧
    ∀ {p entry}, ((asking.state 24).store 0).command? 0 = some p → entry ∈ p.results.toList →
      ∃ c, asking.Replies 24 0 c entry.2 ∧ c.id = entry.2.id :=
  ⟨by decide +kernel, by decide +kernel, rfl, rfl, by decide +kernel, by decide +kernel,
    (isolated asking 22).2.2 rfl, (isolated asking 23).2.1 rfl, (isolated asking 24).1⟩

/-! ### What the tasks do is a run -/

/-- A run up to a state, one more move, and then nothing. -/
def followedBy (h : Exchange) (k : Nat) {e : Traffic} {m : Mesh} (hmove : (h.state k).Move e m)
    (hdistinct : m.HasDistinctNodes) (hsubmits : ∀ {i c}, e = .submits i c → c.event.sourceNode = none)
    (hinjects : ∀ {message}, e = .injects message → ∃ e, message = .event e) : Exchange where
  state n := if n ≤ k then h.state n else m
  traffic n := if n < k then h.traffic n else if n = k then e else .calm
  start := h.start
  step := steps_followedBy h.step hmove (.calm (.refl m))
  distinct := by
    intro n
    split
    · exact h.distinct n
    · exact hdistinct
  sourceless := by
    intro n i c he
    split at he
    · exact h.sourceless he
    · split at he
      · exact hsubmits he
      · cases he
  plain := by
    intro n message he
    split at he
    · exact h.plain he
    · split at he
      · exact hinjects he
      · cases he

theorem extends_course {es : List Traffic} {m : Mesh} (h : Exchange) (n : Nat)
    (hcourse : (h.state n).Course es m) (hdistinct : m.HasDistinctNodes)
    (hes : ∀ e ∈ es, (∀ i c, e ≠ .submits i c) ∧ ∀ message, e ≠ .injects message) :
    ∃ h' : Exchange, h'.state (n + es.length) = m ∧ ∀ q ≤ n, h'.state q = h.state q := by
  induction hcourse with
  | stay => exact ⟨h, rfl, fun _ _ => rfl⟩
  | @move es e m' m'' _ hmove ih =>
    obtain ⟨h', hstate, hsame⟩ := ih (hdistinct.of_move hmove) fun e he =>
      hes e (List.mem_append_left _ he)
    subst hstate
    have hlast := hes e (List.mem_append_right _ List.mem_cons_self)
    refine ⟨h'.followedBy (n + es.length) hmove hdistinct (fun he => absurd he (hlast.1 _ _))
      (fun he => absurd he (hlast.2 _)), ?_, ?_⟩
    · rw [List.length_append]
      exact if_neg (Nat.not_succ_le_self (n + es.length))
    · intro q hq
      rw [← hsame q hq]
      exact if_pos (Nat.le_trans hq (Nat.le_add_right n es.length))

theorem extends_run (h : Exchange) (n t : Nat) (hplaced : (h.state n).Placed)
    (hdistinct : (((h.state n).taken t).run t).HasDistinctNodes) :
    ∃ (h' : Exchange) (k : Nat), h'.state (n + k) = ((h.state n).taken t).run t ∧
      ∀ q ≤ n, h'.state q = h.state q := by
  obtain ⟨es, hcourse, hes⟩ := Mesh.flows_run hplaced t
  obtain ⟨h', hstate, hsame⟩ := h.extends_course n hcourse hdistinct fun e he => (hes e he).2
  exact ⟨h', es.length, hstate, hsame⟩

end Exchange

end ClusterMesh
