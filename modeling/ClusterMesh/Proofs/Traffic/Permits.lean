import ClusterMesh.Proofs.Execution.Collected
import ClusterMesh.Proofs.Traffic.Flow

/-!
# What is permitted to be where it is

What may travel on the bus, be held by a station, be with its calls and be recorded for its commands
is permitted, or it is not. A move leads from a mesh in which everything is permitted to another one
if it brings nothing that is not.
-/

namespace ClusterMesh

/-- What may travel on the bus, be held, submitted and executed by a station, and be recorded for
its commands. -/
structure Permits where
  travels : Message → Prop
  held : Nat → Message → Prop
  submitted : Nat → Command → Prop
  executed : Nat → Command → Prop
  recorded : Nat → CommandResult → Prop

namespace Permits

structure Le (P P' : Permits) : Prop where
  travels : ∀ {message}, P.travels message → P'.travels message
  held : ∀ {i message}, P.held i message → P'.held i message
  submitted : ∀ {i c}, P.submitted i c → P'.submitted i c
  executed : ∀ {i c}, P.executed i c → P'.executed i c
  recorded : ∀ {i result}, P.recorded i result → P'.recorded i result

theorem Le.refl (P : Permits) : P.Le P := ⟨id, id, id, id, id⟩

end Permits

theorem Bus.receive_eq {μ : Type} (b : Bus μ) (subscriber : Nat) {message : μ}
    (h : (b.receive subscriber).2 = .message message) :
    b.receive subscriber = ((b.receive subscriber).1, .message message) :=
  Prod.ext rfl h

theorem Bus.receive_message {μ : Type} {b b' : Bus μ} {subscriber : Nat} {message : μ}
    (h : b.receive subscriber = (b', .message message)) :
    message ∈ b.kept ∧ b'.kept = b.kept := by
  simp only [receive] at h
  split at h
  · cases h
  · split at h
    · cases h
    · next heq =>
      cases h
      exact ⟨List.mem_of_mem_drop (heq ▸ List.mem_cons_self), rfl⟩

namespace PendingStore

theorem records_correlate {s : PendingStore} {r : CommandResult} {k : Nat} {p' : Pending}
    {entry : Node × CommandResult} (hp : (s.correlate r).1.command? k = some p')
    (hentry : entry ∈ p'.results.toList) :
    (∃ p, s.command? k = some p ∧ entry ∈ p.results.toList) ∨
      entry.2 = r ∧ r.sourceId = some entry.1.id := by
  have hadd : ∀ (p : Pending), entry ∈ (p.addResults [r]).1.results.toList →
      entry ∈ p.results.toList ∨ entry.2 = r ∧ r.sourceId = some entry.1.id := by
    intro p h
    have hresults : (p.addResults [r]).1.results = p.results ∨
        (p.addResults [r]).1.results = p.results.add r := by
      cases hc : p.completed with
      | true => exact Or.inl (by simp [Pending.addResults, hc])
      | false =>
        rcases Pending.addResults_one hc r with ⟨-, heq⟩ | ⟨-, heq⟩ <;> exact Or.inr (by rw [heq]; rfl)
    rcases hresults with heq | heq
    · exact Or.inl (heq ▸ h)
    · exact Results.mem_of_mem_add (heq ▸ h)
  have hstep : ∀ ticket, (s.addResults ticket [r]).1.command? k = some p' →
      (∃ p, s.command? k = some p ∧ entry ∈ p.results.toList) ∨
        entry.2 = r ∧ r.sourceId = some entry.1.id := by
    intro ticket h
    unfold addResults at h
    split at h
    · next p hticket =>
      rw [command?_update] at h
      split at h
      · next heq =>
        rw [hticket] at h
        obtain rfl := Option.some.inj h
        exact (hadd p hentry).imp_left fun hmem => ⟨p, heq ▸ hticket, hmem⟩
      · exact Or.inl ⟨p', h, hentry⟩
    · exact Or.inl ⟨p', h, hentry⟩
  simp only [correlate] at hp
  split at hp
  · next ticket _ =>
    have hremoved : ∀ (s : PendingStore), (s.removeEntry ticket).1.command? k = s.command? k := by
      intro s
      unfold removeEntry
      split
      · split <;> rfl
      · rfl
    split at hp
    · rw [hremoved] at hp
      exact hstep ticket hp
    · exact hstep ticket hp
  · exact Or.inl ⟨p', hp, hentry⟩

end PendingStore

namespace Mesh

variable {m m' : Mesh} {P P' : Permits} {e : Traffic}

/-- Everything in a mesh is permitted. -/
structure Carries (m : Mesh) (P : Permits) : Prop where
  kept : ∀ {message}, message ∈ m.bus.kept → P.travels message
  holds : ∀ {i message}, m.Holds i message → P.held i message
  submits : ∀ {i c}, m.Submits i c → P.submitted i c
  executes : ∀ {i c}, m.Executes i c → P.executed i c
  records : ∀ {i result}, m.Records i result → P.recorded i result

/-- What is permitted before a move allows what comes of it after the move. -/
def Allows (m : Mesh) (P P' : Permits) : Traffic → Prop
  | .submits i c => P'.submitted i c
  | .injects message => P'.travels message ∧
      (∀ {i}, i < m.stations.length → message.header.isAddressedTo (m.station i).node = true →
        P'.held i message) ∧
      ∀ {i result}, message = .result result → P'.recorded i result
  | .sends i c => i < m.stations.length →
      (∃ c', P.executed i c' ∧ c = c'.stamped (m.station i).node) → P'.travels (.command c)
  | .arrives i message => i < m.stations.length → P.travels message →
      message.header.isAddressedTo (m.station i).node = true → P'.held i message
  | .answers i c result => i < m.stations.length → P.held i (.command c) →
      result.Answers c (m.station i).node → P'.travels (.result result)
  | .takesIn i result => i < m.stations.length → P.held i (.result result) →
      P'.recorded i result
  | .calm => True

theorem Carries.le (h : m.Carries P) (hle : P.Le P') : m.Carries P' where
  kept := fun hm => hle.travels (h.kept hm)
  holds := fun hm => hle.held (h.holds hm)
  submits := fun hc => hle.submitted (h.submits hc)
  executes := fun hc => hle.executed (h.executes hc)
  records := fun hr => hle.recorded (h.records hr)

theorem Carries.calm (h : m.Carries P) (hcalm : m.Calm m')
    (hstamp : ∀ {i c}, i < m.stations.length → P.submitted i c →
      P.executed i (c.stamped (m.station i).node)) : m'.Carries P where
  kept := fun hm => h.kept (hcalm.kept hm)
  holds := fun hm => h.holds (hcalm.holds hm)
  submits := fun hc => h.submits (hcalm.submits hc)
  executes := by
    intro i c hc
    rcases hcalm.executes hc with hold | ⟨c', hc', rfl⟩
    · exact h.executes hold
    · exact hstamp hc'.1 (h.submits hc')
  records := fun hr => h.records (hcalm.records hr)

theorem Carries.of_eq (h : m.Carries P) (hstations : m'.stations = m.stations)
    (htasks : m'.tasks = m.tasks)
    (hkept : ∀ {message}, message ∈ m'.bus.kept → message ∈ m.bus.kept) : m'.Carries P := by
  have hstation : ∀ i, m'.station i = m.station i := fun i => by rw [station, station, hstations]
  refine ⟨fun hm => h.kept (hkept hm), ?_, ?_, ?_, ?_⟩
  · intro i message hm
    rw [Holds, hstations, htasks, hstation] at hm
    exact h.holds hm
  · intro i c hc
    rw [Submits, hstations, htasks] at hc
    exact h.submits hc
  · intro i c hc
    rw [Executes, hstations, htasks] at hc
    exact h.executes hc
  · intro i result hr
    rw [Records, hstations, store, hstation] at hr
    exact h.records hr

theorem kept_publish {message other : Message} (h : other ∈ (m.publish message).bus.kept) :
    other ∈ m.bus.kept ∨ other = message := by
  simp only [publish, Bus.publish] at h
  split at h
  · exact Or.inl h
  · simpa using List.mem_of_mem_drop h

theorem Carries.publish (h : m.Carries P) {message : Message} (hm : P.travels message) :
    (m.publish message).Carries P where
  kept := by
    intro other hother
    rcases kept_publish hother with hold | rfl
    · exact h.kept hold
    · exact hm
  holds := h.holds
  submits := h.submits
  executes := h.executes
  records := h.records

theorem Carries.spawn (h : m.Carries P) {i : Nat} {a : Activity}
    (hheld : ∀ {message}, a.held = some message → P.held i message)
    (hsubmitted : ∀ {c}, a = .executing c .submitted → P.submitted i c)
    (hexecuted : ∀ {c stage}, a = .executing c stage → stage = .submitted) :
    (m.spawn i a).1.Carries P := by
  have hold : ∀ {u : Nat} {task : Task}, (m.spawn i a).1.tasks[u]? = some task →
      task = ⟨i, a, false⟩ ∨ m.tasks[u]? = some task := by
    intro u task hu
    rw [tasks_spawn] at hu
    split at hu
    · exact Or.inl (Option.some.inj hu).symm
    · exact Or.inr hu
  refine ⟨h.kept, ?_, ?_, ?_, h.records⟩
  · rintro j message ⟨hj, ⟨u, task, hu, hstation, hmessage⟩ | hwaits⟩
    · rcases hold hu with rfl | hu
      · obtain rfl : i = j := hstation
        exact hheld hmessage
      · exact h.holds ⟨hj, Or.inl ⟨u, task, hu, hstation, hmessage⟩⟩
    · exact h.holds ⟨hj, Or.inr hwaits⟩
  · rintro j c ⟨hj, u, aborted, hu⟩
    rcases hold hu with heq | hu
    · cases heq
      exact hsubmitted rfl
    · exact h.submits ⟨hj, u, aborted, hu⟩
  · rintro j c ⟨hj, u, stage, aborted, hstage, hu⟩
    rcases hold hu with heq | hu
    · cases heq
      exact absurd (hexecuted rfl) hstage
    · exact h.executes ⟨hj, u, stage, aborted, hstage, hu⟩

theorem Carries.execute (h : m.Carries P) {i : Nat} {c : Command} (hc : P.submitted i c) :
    (m.execute i c).1.Carries P := by
  refine h.spawn (fun heq => by cases heq) ?_ ?_
  · intro c' heq
    cases heq
    exact hc
  · intro c' stage heq
    cases heq
    rfl

/-- One more message comes to a dispatcher. -/
theorem Carries.updateDispatcher (h : m.Carries P) {i : Nat} {message : Message}
    (hm : P.held i message) {f : Dispatcher → Dispatcher}
    (hwaits : ∀ {other}, other ∈ (f (m.station i).dispatcher).waits →
      other ∈ (m.station i).dispatcher.waits ∨ other = message) :
    (m.updateDispatcher i f).Carries P := by
  refine ⟨h.kept, ?_, ?_, ?_, ?_⟩
  · rintro j other ⟨hj, hat⟩
    rw [Mesh.updateDispatcher, updateStation, List.length_modify] at hj
    rcases hat with htask | hother
    · exact h.holds ⟨hj, Or.inl htask⟩
    · rw [station_updateDispatcher] at hother
      split at hother
      · next heq =>
        obtain rfl := heq.1
        rcases hwaits hother with hold | rfl
        · exact h.holds ⟨hj, Or.inr hold⟩
        · exact hm
      · exact h.holds ⟨hj, Or.inr hother⟩
  · rintro j c ⟨hj, hat⟩
    rw [Mesh.updateDispatcher, updateStation, List.length_modify] at hj
    exact h.submits ⟨hj, hat⟩
  · rintro j c ⟨hj, hat⟩
    rw [Mesh.updateDispatcher, updateStation, List.length_modify] at hj
    exact h.executes ⟨hj, hat⟩
  · rintro j result ⟨hj, k, p, node, hp, hmem⟩
    rw [Mesh.updateDispatcher, updateStation, List.length_modify] at hj
    refine h.records ⟨hj, k, p, node, ?_, hmem⟩
    rw [← hp, store, store, station_updateDispatcher]
    split
    · next heq => rw [heq.1]
    · rfl

theorem Carries.beginDispatch (h : m.Carries P) {i : Nat} {c : DispatchCall}
    (hm : P.held i c.message) : (m.beginDispatch i c).Carries P := by
  refine h.updateDispatcher hm fun {other} hother => ?_
  have hwaits : ((m.station i).dispatcher.enter c).waits =
      (m.station i).dispatcher.waits ++ [c.message] := by
    simp [Dispatcher.waits, Dispatcher.enter, Dispatcher.enlist]
  rw [hwaits] at hother
  exact (List.mem_append.mp hother).imp_right List.mem_singleton.mp

theorem Carries.dispatch (h : m.Carries P) {i : Nat} {message : Message} (hm : P.held i message) :
    (m.dispatch i message).Carries P := by
  have haccepted : (m.updateDispatcher i fun _ =>
      ((m.station i).dispatcher.accept message).1).Carries P :=
    h.updateDispatcher hm (Dispatcher.mem_waits_accept _ message)
  rw [Mesh.dispatch]
  obtain ⟨-, heq⟩ | ⟨-, heq⟩ | ⟨-, heq⟩ :=
    m.deliver_cases i message ((m.station i).dispatcher.accept message)
  · rw [heq]
    exact haccepted
  · rw [heq]
    refine haccepted.of_eq (stations_wakeWorker _ i) (tasks_wakeWorker _ i) ?_
    rw [bus_wakeWorker]
    exact id
  · rw [heq]
    refine haccepted.spawn ?_ (fun heq => by cases heq) (fun heq => by cases heq)
    intro other heq
    cases heq
    exact hm

/-- A station takes in only a message that is addressed to its node. -/
theorem Carries.consume (h : m.Carries P) {i : Nat} {message : Message}
    (hm : message.header.isAddressedTo (m.station i).node = true → P.held i message) :
    (m.consume i message).1.Carries P := by
  unfold Mesh.consume
  split
  · next htakes => exact h.dispatch (hm (Station.isAddressed_of_takes htakes))
  · exact h

theorem Carries.correlate (h : m.Carries P) {i : Nat} {result : CommandResult}
    (hm : P.recorded i result) : (m.correlate i result).1.Carries P := by
  have hstore : (m.updateStore i fun _ => ((m.store i).correlate result).1).Carries P := by
    have hlength := length_updateStore m i fun _ => ((m.store i).correlate result).1
    refine ⟨h.kept, ?_, ?_, ?_, ?_⟩
    · intro j message hmessage
      rw [Holds, hlength, updateStore, station_updateStation] at hmessage
      refine h.holds (hmessage.imp_right fun hat => hat.imp_right fun hwaits => ?_)
      split at hwaits
      · next heq => exact heq.1 ▸ hwaits
      · exact hwaits
    · intro j c hc
      rw [Submits, hlength] at hc
      exact h.submits hc
    · intro j c hc
      rw [Executes, hlength] at hc
      exact h.executes hc
    · rintro j other ⟨hj, k, p', node, hp', hmem⟩
      rw [hlength] at hj
      rw [store, updateStore, station_updateStation] at hp'
      split at hp'
      · next heq =>
        obtain rfl := heq.1
        rcases PendingStore.records_correlate hp' hmem with ⟨p, hp, hold⟩ | ⟨rfl, -⟩
        · exact h.records ⟨hj, k, p, node, hp, hold⟩
        · exact hm
      · exact h.records ⟨hj, k, p', node, hp', hmem⟩
  simp only [Mesh.correlate]
  split
  · refine hstore.of_eq (stations_wakeCaller _ i _) (tasks_wakeCaller _ i _) ?_
    rw [bus_wakeCaller]
    exact id
  · exact hstore

theorem Carries.move (h : m.Carries P) (hmove : m.Move e m') (hle : P.Le P')
    (hstamp : ∀ {i c}, i < m.stations.length → P.submitted i c →
      P.executed i (c.stamped (m.station i).node)) (hallows : m.Allows P P' e) :
    m'.Carries P' := by
  cases hmove with
  | submit c placed => exact (h.le hle).execute hallows
  | publish message => exact (h.le hle).publish hallows.1
  | hand message placed => exact (h.le hle).consume (hallows.2.1 placed)
  | enter message placed takes =>
    exact (h.le hle).beginDispatch (hallows.2.1 placed (Station.isAddressed_of_takes takes))
  | correlate result placed => exact (h.le hle).correlate (hallows.2.2 rfl)
  | send executes => exact (h.le hle).publish (hallows executes.1 ⟨_, h.executes executes, rfl⟩)
  | @arrive i subscriber bus message received placed =>
    obtain ⟨hmem, hkept⟩ := Bus.receive_message received
    have hbus : ({ m with bus := bus } : Mesh).Carries P' :=
      (h.le hle).of_eq rfl rfl fun hm => hkept ▸ hm
    exact hbus.consume (hallows placed (h.kept hmem))
  | @read i subscriber bus message received placed takes =>
    obtain ⟨hmem, hkept⟩ := Bus.receive_message received
    have hbus : ({ m with bus := bus } : Mesh).Carries P' :=
      (h.le hle).of_eq rfl rfl fun hm => hkept ▸ hm
    have hheld := hallows placed (h.kept hmem) (Station.isAddressed_of_takes takes)
    exact hbus.beginDispatch (c := ⟨message, some (m.bus.place subscriber)⟩) hheld
  | answer held calm answers =>
    exact ((h.calm calm hstamp).le hle).publish (hallows held.1 (h.holds held) answers)
  | takeIn held calm =>
    exact ((h.calm calm hstamp).le hle).correlate (hallows held.1 (h.holds held))
  | calm hcalm => exact (h.calm hcalm hstamp).le hle

/-! ### Nodes -/

theorem node_updateDispatcher (m : Mesh) (i : Nat) (f : Dispatcher → Dispatcher) (j : Nat) :
    ((m.updateDispatcher i f).station j).node = (m.station j).node := by
  rw [updateDispatcher, station_updateStation]
  split
  · next h => rw [h.1]
  · rfl

theorem node_consume (m : Mesh) (i : Nat) (message : Message) (j : Nat) :
    ((m.consume i message).1.station j).node = (m.station j).node := by
  unfold Mesh.consume
  split
  · rw [Mesh.dispatch, station_deliver]
    split
    · next h => rw [h.1]
    · rfl
  · rfl

theorem node_correlate (m : Mesh) (i : Nat) (result : CommandResult) (j : Nat) :
    ((m.correlate i result).1.station j).node = (m.station j).node := by
  have hstore : ((m.updateStore i fun _ => ((m.store i).correlate result).1).station j).node =
      (m.station j).node := by
    rw [updateStore, station_updateStation]
    split
    · next h => rw [h.1]
    · rfl
  simp only [Mesh.correlate]
  split
  · rw [station, stations_wakeCaller]
    exact hstore
  · exact hstore

theorem Move.nodes (h : m.Move e m') : m.stations.length ≤ m'.stations.length ∧
    ∀ {i}, i < m.stations.length → (m'.station i).node = (m.station i).node := by
  cases h with
  | submit c placed => exact ⟨Nat.le_refl _, fun _ => rfl⟩
  | publish message => exact ⟨Nat.le_refl _, fun _ => rfl⟩
  | hand message placed =>
    exact ⟨Nat.le_of_eq (serves_consume placed message).stations.symm,
      fun _ => node_consume m _ message _⟩
  | enter message placed takes =>
    exact ⟨Nat.le_of_eq (length_updateDispatcher ..).symm,
      fun _ => node_updateDispatcher m _ _ _⟩
  | correlate result placed =>
    exact ⟨Nat.le_of_eq (length_correlate m _ result).symm, fun _ => node_correlate m _ result _⟩
  | send executes => exact ⟨Nat.le_refl _, fun _ => rfl⟩
  | @arrive _ subscriber bus message received placed =>
    exact ⟨Nat.le_of_eq (serves_consume (m := { m with bus := bus }) placed message).stations.symm,
      fun _ => node_consume { m with bus := bus } _ message _⟩
  | @read i subscriber bus message received placed takes =>
    exact ⟨Nat.le_of_eq (length_updateDispatcher { m with bus := bus } i _).symm,
      fun _ => node_updateDispatcher { m with bus := bus } _ _ _⟩
  | answer held calm answers => exact ⟨calm.stations, calm.node⟩
  | @takeIn m₁ i result held calm =>
    refine ⟨Nat.le_trans calm.stations (Nat.le_of_eq (length_correlate m₁ i result).symm), ?_⟩
    intro j hj
    rw [node_correlate, calm.node hj]
  | calm hcalm => exact ⟨hcalm.stations, hcalm.node⟩

theorem Course.nodes {es : List Traffic} (h : m.Course es m') :
    m.stations.length ≤ m'.stations.length ∧
      ∀ {i}, i < m.stations.length → (m'.station i).node = (m.station i).node := by
  induction h with
  | stay => exact ⟨Nat.le_refl _, fun _ => rfl⟩
  | move _ hmove ih =>
    obtain ⟨hlength, hnode⟩ := hmove.nodes
    exact ⟨Nat.le_trans ih.1 hlength, fun hi => (hnode (Nat.lt_of_lt_of_le hi ih.1)).trans (ih.2 hi)⟩

theorem Carries.course {es : List Traffic} (h : m.Carries P) (hcourse : m.Course es m')
    (hlength : m'.stations.length ≤ m.stations.length)
    (hstamp : ∀ {i c}, i < m.stations.length → P.submitted i c →
      P.executed i (c.stamped (m.station i).node))
    (hallows : ∀ {m₁ : Mesh} {e : Traffic}, e ∈ es → m₁.stations.length = m.stations.length →
      (∀ {i}, i < m.stations.length → (m₁.station i).node = (m.station i).node) →
        m₁.Allows P P e) : m'.Carries P := by
  induction hcourse with
  | stay => exact h
  | @move es e m₁ m₂ hcourse hmove ih =>
    obtain ⟨hle, hnode⟩ := hcourse.nodes
    have hle' := hmove.nodes.1
    have hsame : m₁.stations.length = m.stations.length := by omega
    have hcarries := ih (Nat.le_of_eq hsame) fun he => hallows (List.mem_append_left _ he)
    refine hcarries.move hmove (.refl P) ?_
      (hallows (List.mem_append_right _ List.mem_cons_self) hsame hnode)
    intro i c hi hsubmitted
    rw [hsame] at hi
    rw [hnode hi]
    exact hstamp hi hsubmitted

end Mesh

end ClusterMesh
