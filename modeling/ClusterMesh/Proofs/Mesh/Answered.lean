import ClusterMesh.Proofs.Execution.Completion
import ClusterMesh.Proofs.Mesh.Return

/-!
# Who has answered a complete command

A command is complete when as many nodes have answered as its destination has. Where results come
in one by one no more nodes than that have answered then, so that all nodes of the destination are
among them exactly when nobody else is.
-/

namespace ClusterMesh

namespace Results

/-- All nodes of a set have answered. -/
def Covers (rs : Results) (nodes : NodeSet) : Prop := ∀ id ∈ nodes.keys, id ∈ rs.keys

instance (rs : Results) (nodes : NodeSet) : Decidable (rs.Covers nodes) :=
  inferInstanceAs (Decidable (∀ id ∈ nodes.keys, id ∈ rs.keys))

/-- Only nodes of a set have answered. -/
def Within (rs : Results) (nodes : NodeSet) : Prop := ∀ id ∈ rs.keys, id ∈ nodes.keys

instance (rs : Results) (nodes : NodeSet) : Decidable (rs.Within nodes) :=
  inferInstanceAs (Decidable (∀ id ∈ rs.keys, id ∈ nodes.keys))

/-- Those who have answered and are not in a set. -/
def outsiders (rs : Results) (nodes : NodeSet) : List String :=
  rs.keys.filter fun id => id ∉ nodes.keys

variable {rs : Results} {nodes : NodeSet}

theorem size_eq_card_nodes (nodes : NodeSet) : nodes.size = nodes.keys.toFinset.card := by
  rw [List.toFinset_card_of_nodup nodes.keys_nodup, KeyedList.length_keys]

theorem covers_iff_subset : rs.Covers nodes ↔ nodes.keys.toFinset ⊆ rs.keys.toFinset := by
  simp [Covers, Finset.subset_iff]

theorem within_iff_outsiders : rs.Within nodes ↔ (rs.outsiders nodes).length = 0 := by
  simp [Within, outsiders, List.filter_eq_nil_iff]

theorem length_outsiders :
    (rs.outsiders nodes).length = (rs.keys.toFinset \ nodes.keys.toFinset).card := by
  have hnodup : (rs.outsiders nodes).Nodup := rs.keys_nodup.filter _
  rw [← List.toFinset_card_of_nodup hnodup]
  congr 1
  ext id
  simp [outsiders]

/-- Of those who have answered, the ones in the set are all of it exactly when the others are no
more than the surplus. -/
theorem covers_iff_outsiders (h : nodes.size ≤ rs.size) :
    rs.Covers nodes ↔ (rs.outsiders nodes).length ≤ rs.size - nodes.size := by
  have hcount := Finset.card_sdiff_add_card_inter rs.keys.toFinset nodes.keys.toFinset
  have hpart : rs.keys.toFinset ∩ nodes.keys.toFinset ⊆ nodes.keys.toFinset :=
    Finset.inter_subset_right
  rw [size_eq_card_nodes, size_eq_card_keys] at h
  rw [covers_iff_subset, length_outsiders, size_eq_card_nodes, size_eq_card_keys]
  constructor
  · intro hsubset
    rw [Finset.inter_eq_right.mpr hsubset] at hcount
    omega
  · intro hle
    have hall := Finset.eq_of_subset_of_card_le hpart (by omega)
    exact Finset.inter_eq_right.mp hall

theorem covers_iff (hle : nodes.size ≤ rs.size) (hge : rs.size ≤ max nodes.size 1) :
    rs.Covers nodes ↔ nodes.size = 0 ∨ rs.Within nodes := by
  by_cases hzero : nodes.size = 0
  · have hkeys : nodes.keys = [] := List.length_eq_zero_iff.mp (by
      rw [KeyedList.length_keys, hzero])
    simp [Covers, hkeys, hzero]
  · rw [covers_iff_outsiders hle, within_iff_outsiders]
    omega

theorem size_add_le (rs : Results) (r : CommandResult) : (rs.add r).size ≤ rs.size + 1 := by
  rw [size_eq_card_keys, size_eq_card_keys]
  have hsubset : (rs.add r).keys.toFinset ⊆
      rs.keys.toFinset ∪ r.sourceId.toList.toFinset := by
    intro id hid
    simpa [mem_keys_add] using hid
  have hone : r.sourceId.toList.toFinset.card ≤ 1 := by
    cases r.sourceId <;> simp
  have hunion := Finset.card_union_le rs.keys.toFinset r.sourceId.toList.toFinset
  have hcard := Finset.card_le_card hsubset
  omega

end Results

namespace Pending

/-- No more nodes have answered than the destination has, or one if it has none, and fewer or none
as long as the command is open. -/
structure Bounded (p : Pending) : Prop where
  size : ∀ {nodes}, p.command.destination = some nodes → p.results.size ≤ max nodes.size 1
  opened : ∀ {nodes}, p.command.destination = some nodes → p.completed = false →
    p.results.size < nodes.size ∨ p.results.size = 0

variable {p p' : Pending}

theorem bounded_ofCommand (c : Command) : (ofCommand c).Bounded := by
  have hempty : (∅ : Results).size = 0 := rfl
  refine ⟨?_, ?_⟩
  · intro nodes _
    exact Nat.zero_le _
  · intro nodes _ _
    exact Or.inr hempty

theorem isFull_iff {nodes : NodeSet} (h : p.command.destination = some nodes) :
    p.IsFull ↔ nodes.size ≤ p.results.size := by
  simp [IsFull, Command.expected, h]

theorem bounded_collecting {r : CommandResult} (hnot : ¬(p.collecting r).IsFull) :
    (p.collecting r).Bounded := by
  refine ⟨?_, ?_⟩
  · intro nodes hnodes
    rw [isFull_iff hnodes] at hnot
    omega
  · intro nodes hnodes _
    rw [isFull_iff hnodes] at hnot
    exact Or.inl (Nat.lt_of_not_le hnot)

theorem Bounded.collecting_closed (h : p.Bounded) (ho : p.completed = false)
    (r : CommandResult) : (p.collecting r).closed.Bounded := by
  have hadd := Results.size_add_le p.results r
  refine ⟨?_, ?_⟩
  · intro nodes hnodes
    have hresults : (p.collecting r).closed.results = p.results.add r := rfl
    rw [hresults]
    rcases h.opened hnodes ho with hlt | hzero <;> omega
  · intro nodes _ hopen
    cases hopen

theorem Bounded.of_same (h : p.Bounded) (hcommand : p'.command = p.command)
    (hresults : p'.results = p.results) (hopen : p'.completed = false → p.completed = false) :
    p'.Bounded := by
  refine ⟨?_, ?_⟩
  · intro nodes hnodes
    rw [hresults]
    exact h.size (hcommand ▸ hnodes)
  · intro nodes hnodes ho
    rw [hresults]
    exact h.opened (hcommand ▸ hnodes) (hopen ho)

/-- Results that come in one by one. -/
def oneByOne (results : List CommandResult) : List Call := results.map fun r => .addResults [r]

theorem oneByOne_concat (results : List CommandResult) (r : CommandResult) :
    oneByOne (results ++ [r]) = oneByOne results ++ [.addResults [r]] := by
  simp [oneByOne]

theorem bounded_oneByOne (c : Command) (results : List CommandResult) :
    (after c (oneByOne results)).Bounded := by
  -- one result brings at most one node, and the result that closes the command is the last
  -- that counts
  induction results using List.reverseRecOn with
  | nil => exact bounded_ofCommand c
  | append_singleton results r ih =>
    rw [oneByOne_concat, after_concat]
    cases ho : (after c (oneByOne results)).completed with
    | true =>
      rw [perform_completed ho]
      exact ih
    | false =>
      rcases addResults_one ho r with ⟨-, hadd⟩ | ⟨hnot, hadd⟩
      · rw [perform, hadd]
        exact ih.collecting_closed ho r
      · rw [perform, hadd]
        exact bounded_collecting hnot

theorem size_of_told {c : Command} {nodes : NodeSet} {results : List CommandResult}
    {last : CommandResult} (hnodes : c.destination = some nodes)
    (htold : told c (oneByOne results) (.addResults [last]) = true) :
    (gathered (oneByOne (results ++ [last]))).size ≤ max nodes.size 1 := by
  have hbounded := bounded_oneByOne c results
  rcases stillOpen_or_completedBy c (oneByOne results) with hopen | ⟨ys, x, zs, heq, hdone⟩
  · rw [hopen.state] at hbounded
    have hclosed := (hbounded.collecting_closed rfl last).size hnodes
    rw [oneByOne_concat, gathered_concat]
    exact hclosed
  · have hnot := ((told_iff _ _ _).mp htold).1
    rw [heq] at hnot
    exact absurd hdone.mem hnot

theorem le_size_of_told {c : Command} {nodes : NodeSet} {calls : List Call}
    {batch : List CommandResult} (hnodes : c.destination = some nodes)
    (htold : told c calls (.addResults batch) = true) :
    nodes.size ≤ (gathered (calls ++ [.addResults batch])).size := by
  obtain ⟨expected, hexpected, hle⟩ := ((told_iff _ _ _).mp htold).2
  rw [Command.expected, hnodes] at hexpected
  cases hexpected
  rw [gathered_concat]
  exact hle

end Pending

namespace History

open Mesh

variable (h : History) {n : Nat} {r : Registration}

theorem bounded (hr : r ∈ h.registered n) {p : Pending} (hp : (h.state n).pending r = some p) :
    p.Bounded := by
  induction n generalizing p with
  | zero => cases hr
  | succ n ih =>
    rcases List.mem_append.mp hr with hold | hnew
    · obtain ⟨q, q', caller, caller', reaper, reaper', hbefore, hafter, hevolves, -⟩ :=
        (h.upkeep n).proceeds hold
      obtain rfl := Option.some.inj (hp.symm.trans hafter.pending)
      have hbounded := ih hold hbefore.pending
      have hcommand : p.command = q.command := hafter.command.trans hbefore.command.symm
      cases hevolves with
      | kept results completed =>
        exact hbounded.of_same hcommand results fun ho => completed ▸ ho
      | collects _ _ _ notFull => exact Pending.bounded_collecting notFull
      | fills opened _ _ _ => exact hbounded.collecting_closed opened _
      | displaced _ _ _ _ => exact hbounded.of_same rfl rfl fun ho => by cases ho
      | expires _ results completed _ =>
        refine hbounded.of_same hcommand results fun ho => ?_
        rw [completed] at ho
        cases ho
    · have hevent : h.event n = .registers r := by
        cases he : h.event n with
        | registers r' =>
          rw [he] at hnew
          rw [List.mem_singleton.mp hnew]
        | _ =>
          rw [he] at hnew
          cases hnew
      have htracks := ((h.upkeep n).enrolled hevent).2
      obtain rfl := Option.some.inj (hp.symm.trans htracks.pending)
      exact Pending.bounded_ofCommand _

theorem size_of_isComplete (hr : r ∈ h.registered n) {nodes : NodeSet}
    (hnodes : r.command.destination = some nodes) {task : Task} {instant : Nat}
    {outcome : Outcome} (htask : (h.state n).tasks[r.caller]? = some task)
    (hended : task.activity = .ended (.returned instant (.ok outcome)))
    (hcomplete : outcome.isComplete = true) :
    nodes.size ≤ outcome.results.size ∧ outcome.results.size ≤ max nodes.size 1 := by
  obtain ⟨p, caller, reaper, ht⟩ := (h.ledger n).tracked hr
  have hbounded := h.bounded hr ht.pending
  obtain rfl := Option.some.inj (ht.caller_at.symm.trans htask)
  cases ht.caller_stands with
  | returned completed =>
    cases hended
    refine ⟨?_, hbounded.size (ht.command ▸ hnodes)⟩
    simpa [Outcome.isComplete, Command.expected, hnodes] using hcomplete
  | _ => cases hended

end History

/-- All nodes of the destination are among those that completed a command exactly when no other
node is, unless the destination is empty. -/
theorem covers_iff_within {c : Command} {nodes : NodeSet} (hnodes : c.destination = some nodes) :
    -- results complete the command one by one
    (∀ {results last}, Pending.told c (Pending.oneByOne results) (.addResults [last]) = true →
      ((Pending.gathered (Pending.oneByOne (results ++ [last]))).Covers nodes ↔
        nodes.size = 0 ∨
          (Pending.gathered (Pending.oneByOne (results ++ [last]))).Within nodes)) ∧
    -- a batch completes it, which may bring more results than were missing
    (∀ {calls batch}, Pending.told c calls (.addResults batch) = true →
      ((Pending.gathered (calls ++ [.addResults batch])).Covers nodes ↔
        ((Pending.gathered (calls ++ [.addResults batch])).outsiders nodes).length ≤
          (Pending.gathered (calls ++ [.addResults batch])).size - nodes.size)) ∧
    -- its call has returned a complete outcome
    (∀ (h : History) {n r task instant outcome}, r ∈ h.registered n → r.command = c →
      (h.state n).tasks[r.caller]? = some task →
      task.activity = .ended (.returned instant (.ok outcome)) → outcome.isComplete = true →
        (outcome.results.Covers nodes ↔ nodes.size = 0 ∨ outcome.results.Within nodes)) := by
  refine ⟨?_, ?_, ?_⟩
  · intro results last htold
    refine Results.covers_iff ?_ (Pending.size_of_told hnodes htold)
    rw [Pending.oneByOne_concat]
    exact Pending.le_size_of_told hnodes htold
  · intro calls batch htold
    exact Results.covers_iff_outsiders (Pending.le_size_of_told hnodes htold)
  · intro h n r task instant outcome hr hcommand htask hended hcomplete
    obtain ⟨hle, hge⟩ := h.size_of_isComplete hr (hcommand ▸ hnodes) htask hended hcomplete
    exact Results.covers_iff hle hge

/-! ### A run in which a node answers that was not asked -/

namespace History

open Mesh

def sampleNodes : NodeSet := KeyedList.ofList [sampleNode "b", sampleNode "d"]

def otherResult : CommandResult :=
  ⟨{ Event.withId "c" "answer" with sourceNode := some (sampleNode "d") }⟩

def strayResult : CommandResult :=
  ⟨{ Event.withId "c" "answer" with sourceNode := some (sampleNode "e") }⟩

/-- After the result of one of the two nodes the result of a third node comes in, and the call
returns at once. -/
def strayStep : Nat → Mesh → Mesh
  | 5, m => (m.correlate 0 strayResult).1
  | 6, m => (m.taken 0).awaitResults 0 0 sampleCommand 0 5 1
  | 7, m => m
  | n, m => sampleStep n m

def strayState : Nat → Mesh
  | 0 => ofCapacity 1
  | n + 1 => strayStep n (strayState n)

def strayEvent : Nat → Happening
  | 5 => .correlates 0 strayResult
  | n => sampleEvent n

theorem stray_step : ∀ n, (strayState n).Step (strayEvent n) (strayState (n + 1))
  | 0 => sample_step 0
  | 1 => sample_step 1
  | 2 => sample_step 2
  | 3 => sample_step 3
  | 4 => sample_step 4
  | 5 =>
    have hstep : (strayState 5).Step (.correlates 0 strayResult)
        ((strayState 5).correlate 0 strayResult).1 := .correlate strayResult (by decide)
    hstep
  | 6 =>
    have hstep : (strayState 6).Step .other
        (((strayState 6).taken 0).awaitResults 0 0 sampleCommand 0 5 1) := .wait (by decide) rfl
    hstep
  | 7 => .aside (.refl _)
  | n + 8 => .aside (.refl _)

def stray : History where
  state := strayState
  event := strayEvent
  start := ⟨1, rfl⟩
  step := stray_step

def strayOutcome : Outcome := ⟨"c", some 2, (∅ : Results).addAll [sampleResult, strayResult]⟩

theorem stray_ended : ∃ task, (stray.state 7).tasks[sampleCall.caller]? = some task ∧
    task.activity = .ended (.returned 0 (.ok strayOutcome)) := ⟨_, rfl, rfl⟩

end History

open History in
theorem covers_iff_within_stray :
    -- of the two nodes of the destination both answer, one by one
    (Pending.told sampleCommand (Pending.oneByOne [sampleResult])
        (.addResults [otherResult]) = true ∧
      (Pending.gathered (Pending.oneByOne ([sampleResult] ++ [otherResult]))).Covers sampleNodes) ∧
    -- they answer in one batch together with a third node
    (Pending.told sampleCommand [] (.addResults [sampleResult, strayResult, otherResult]) = true ∧
      (Pending.gathered
        ([] ++ [.addResults [sampleResult, strayResult, otherResult]])).Covers sampleNodes) ∧
    -- one of them and a third node answer, and the call has returned
    strayOutcome.isComplete = true ∧
      (strayOutcome.results.Covers sampleNodes ↔
        sampleNodes.size = 0 ∨ strayOutcome.results.Within sampleNodes) := by
  have hdestination : sampleCommand.destination = some sampleNodes := rfl
  have hone : Pending.told sampleCommand (Pending.oneByOne [sampleResult])
      (.addResults [otherResult]) = true := by decide
  have hbatch : Pending.told sampleCommand []
      (.addResults [sampleResult, strayResult, otherResult]) = true := by decide
  have hcomplete : strayOutcome.isComplete = true := by decide
  have hregistered : sampleCall ∈ stray.registered 7 := List.mem_singleton_self sampleCall
  obtain ⟨task, htask, hended⟩ := stray_ended
  refine ⟨⟨hone, ?_⟩, ⟨hbatch, ?_⟩, hcomplete, ?_⟩
  · refine ((covers_iff_within hdestination).1 hone).mpr (Or.inr ?_)
    decide
  · refine ((covers_iff_within hdestination).2.1 hbatch).mpr ?_
    decide
  · exact (covers_iff_within hdestination).2.2 stray hregistered rfl htask hended hcomplete

open History in
/-- A node of the destination is missing in what completes the command and in what the call
returns as complete. -/
theorem stray_completes :
    sampleCommand.destination = some sampleNodes ∧
    Pending.told sampleCommand (Pending.oneByOne [sampleResult])
      (.addResults [strayResult]) = true ∧
    ¬(Pending.gathered (Pending.oneByOne ([sampleResult] ++ [strayResult]))).Covers sampleNodes ∧
    (∃ task, (stray.state 7).tasks[sampleCall.caller]? = some task ∧
      task.activity = .ended (.returned 0 (.ok strayOutcome))) ∧
    strayOutcome.isComplete = true ∧ ¬strayOutcome.results.Covers sampleNodes := by
  refine ⟨rfl, by decide, by decide, stray_ended, by decide, by decide⟩

end ClusterMesh
