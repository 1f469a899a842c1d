import ClusterMesh.Proofs.Execution.Independence

/-!
# Calls that fail

A call that is refused leaves the stores as they are. One whose command the transport does not
take has stored it before, and takes it out again: what was stored under other ids stays, with its
results. A command that was stored under the same id has given up its place to the call, and is
completed with what it had.
-/

namespace ClusterMesh

namespace PendingStore

variable {s s' s'' : PendingStore} {c : Command} {id : String} {k l : Ticket} {p : Pending}

/-- Every entry and every command is as it was. -/
structure Spares (s s' : PendingStore) : Prop where
  entries : s'.entries = s.entries
  command : ∀ (l : Ticket) p, s.command? l = some p → s'.command? l = some p

/-- Of the commands that there were only the one stored under an id is another: it is completed
with what it had. -/
def Expires (s : PendingStore) (id : String) (s' : PendingStore) : Prop :=
  ∀ (l : Ticket) p, s.command? l = some p →
    s'.command? l = some (if s.get? id = some l then p.onTimeout.1 else p)

/-- A new command takes the place under its id. -/
structure TakesPlace (s : PendingStore) (c : Command) (s' : PendingStore) : Prop where
  entries : s'.entries = Table.set s.entries c.id s.commands.length
  command : s.Expires c.id s'

/-- A ticket leaves the entries, and no command changes. -/
structure Withdraws (s : PendingStore) (k : Ticket) (s' : PendingStore) : Prop where
  commands : s'.commands = s.commands
  entry : ∀ id, s'.get? id =
    if s.get? id = some k ∧ (s.command? k).map Pending.id = some id then none else s.get? id

/-- Nothing is stored under an id any more, and what was is completed with what it had. -/
structure Vacates (s : PendingStore) (id : String) (s' : PendingStore) : Prop where
  entries : s'.entries = s.entries.erase id
  command : s.Expires id s'

theorem Vacates.spares (h : s.Vacates id s') (hnone : s.get? id = none) : s.Spares s' where
  entries := by rw [h.entries, KeyedList.erase_of_not_mem (Table.get?_eq_none_iff.mp hnone)]
  command := by
    intro l p hp
    have hcommand := h.command l p hp
    rwa [hnone, if_neg (by simp)] at hcommand

theorem command?_onTimeout (s : PendingStore) (k l : Ticket) :
    (s.onTimeout k).1.command? l =
      if l = k then (s.command? k).map fun p => p.onTimeout.1 else s.command? l := by
  cases hp : s.command? k with
  | some p => simp only [onTimeout, hp, command?_update, Option.map_some]
  | none =>
    simp only [onTimeout, hp, Option.map_none]
    split
    · next hl => rw [hl, hp]
    · rfl

theorem entries_onTimeout (s : PendingStore) (k : Ticket) :
    (s.onTimeout k).1.entries = s.entries := by
  simp only [onTimeout]
  split <;> rfl

theorem onTimeout_id (p : Pending) : p.onTimeout.1.id = p.id := by
  simp only [Pending.onTimeout, Pending.complete]
  split <;> rfl

theorem register_entries (s : PendingStore) (c : Command) :
    (s.register c).1.entries = Table.set s.entries c.id s.commands.length := by
  simp only [register, issue, put]
  split
  · rw [entries_onTimeout]
  · rfl

theorem register_command (s : PendingStore) (c : Command) (l : Ticket) :
    (s.register c).1.command? l =
      (if l = s.commands.length then some (Pending.ofCommand c) else s.command? l).map
        fun p => if s.get? c.id = some l then p.onTimeout.1 else p := by
  have hput : ((s.issue c).1.put c.id s.commands.length).2 = s.get? c.id := rfl
  rw [← put_issue_command]
  cases hget : s.get? c.id with
  | none =>
    have heq : (s.register c).1 = ((s.issue c).1.put c.id s.commands.length).1 := by
      simp only [register, issue, hget] at hput ⊢
      rw [hput]
    rw [heq]
    simp
  | some k =>
    have heq : (s.register c).1 =
        (((s.issue c).1.put c.id s.commands.length).1.onTimeout k).1 := by
      simp only [register, issue, hget] at hput ⊢
      rw [hput]
    rw [heq, command?_onTimeout]
    by_cases hl : l = k
    · simp [hl]
    · have hkl : k ≠ l := fun h => hl h.symm
      simp [hl, hkl]

theorem register_takesPlace (s : PendingStore) (c : Command) :
    s.TakesPlace c (s.register c).1 where
  entries := register_entries s c
  command := by
    intro l p hp
    have hlt : l ≠ s.commands.length := Nat.ne_of_lt (lt_of_command? hp)
    rw [register_command, if_neg hlt, hp]
    rfl

theorem removeEntry_withdraws (s : PendingStore) (k : Ticket) :
    s.Withdraws k (s.removeEntry k).1 := by
  cases hp : s.command? k with
  | none =>
    refine ⟨by simp [removeEntry, hp], ?_⟩
    intro id
    simp [removeEntry, hp]
  | some p =>
    by_cases hstored : s.get? p.id = some k
    · refine ⟨by simp [removeEntry, hp, hstored], ?_⟩
      intro id
      simp only [removeEntry, hp, if_pos hstored, Option.map_some, Option.some.injEq]
      by_cases hid : id = p.id
      · subst hid
        rw [if_pos ⟨hstored, rfl⟩]
        exact (Table.get?_erase s.entries p.id p.id).trans (if_pos rfl)
      · have hne : p.id ≠ id := fun h => hid h.symm
        simp [get?, Table.get?_erase, hid, hne]
    · refine ⟨by simp [removeEntry, hp, hstored], ?_⟩
      intro id
      have hnot : ¬(s.get? id = some k ∧ p.id = id) := by
        rintro ⟨hget, rfl⟩
        exact hstored hget
      simp only [removeEntry, hp, if_neg hstored, Option.map_some, Option.some.injEq, if_neg hnot]

theorem vacates_of_register (s : PendingStore) (c : Command) :
    s.Vacates c.id ((s.register c).1.removeEntry s.commands.length).1 := by
  have hplace := register_takesPlace s c
  obtain ⟨p, hp, hid⟩ :
      ∃ p, (s.register c).1.command? s.commands.length = some p ∧ p.id = c.id := by
    rw [register_command, if_pos rfl]
    refine ⟨_, rfl, ?_⟩
    split
    · exact onTimeout_id _
    · rfl
  have hstored : (s.register c).1.get? p.id = some s.commands.length := by
    rw [get?, hplace.entries, hid, Table.get?_set, if_pos rfl]
  have hremove : ((s.register c).1.removeEntry s.commands.length).1 =
      { (s.register c).1 with entries := (s.register c).1.entries.erase c.id } := by
    rw [← hid]
    simp only [removeEntry, hp, if_pos hstored]
  rw [hremove]
  refine ⟨?_, hplace.command⟩
  rw [hplace.entries]
  exact KeyedList.erase_put s.entries (c.id, s.commands.length)

end PendingStore

namespace Mesh

open PendingStore

variable {m : Mesh} {t i j : Nat} {c : Command} {e : MeshError}

theorem store_register (hplaced : i < m.stations.length) (c : Command) (timeout j : Nat) :
    (m.register i c timeout).1.store j =
      if j = i then ((m.store i).register c).1 else m.store j := by
  have hspawn : ∀ (m : Mesh) i a, (m.spawn i a).1.store j = m.store j := fun _ _ _ => rfl
  simp only [register, hspawn]
  split
  · next k hk =>
    have hregister : ((m.store i).register c).1 =
        ((((m.store i).issue c).1.put c.id ((m.store i).issue c).2).1.onTimeout k).1 := by
      simp only [PendingStore.register, hk]
    rw [store_timeOut (by simpa using hplaced), store_updateStore hplaced,
      store_updateStore hplaced, if_pos rfl, hregister]
    split <;> rfl
  · next hk =>
    have hregister : ((m.store i).register c).1 =
        (((m.store i).issue c).1.put c.id ((m.store i).issue c).2).1 := by
      simp only [PendingStore.register, hk]
    rw [store_updateStore hplaced, hregister]

theorem stations_register (m : Mesh) (i : Nat) (c : Command) (timeout : Nat) :
    (m.register i c timeout).1.stations.length = m.stations.length := by
  have hspawn : ∀ (m : Mesh) i a, (m.spawn i a).1.stations = m.stations := fun _ _ _ => rfl
  simp only [register, hspawn]
  split <;> simp

theorem store_enter (hplaced : i < m.stations.length) (t : Nat) (c : Command) (j : Nat) :
    (m.enter t i c).1.store j = if j = i then ((m.store i).register c).1 else m.store j :=
  store_register hplaced c ((m.station i).timeoutOf c) j

theorem store_depart_error (hplaced : i < m.stations.length) (t : Nat) (c : Command)
    (ticket timeout reaper : Nat) (e : MeshError) (j : Nat) :
    (m.depart t i c ticket timeout reaper (.error e)).store j =
      if j = i then ((m.store i).removeEntry ticket).1 else m.store j := by
  simp only [depart, endCall, store_finish, store_abort]
  exact store_updateStore hplaced _ j

/-! ### How a call ends -/

theorem taskEnd?_finish (m : Mesh) (t : Nat) (e : TaskEnd) :
    (m.finish t e).taskEnd? t = m.tasks[t]?.map fun _ => e := by
  simp only [taskEnd?, tasks_finish, tasks_setActivity, if_true]
  cases m.tasks[t]? <;> rfl

theorem taskEnd?_endCall {instant : Nat} {outcome : Except MeshError Outcome}
    (h : (m.endCall t outcome).taskEnd? t = some (.returned instant (.error e))) :
    outcome = .error e := by
  rw [endCall, taskEnd?_finish] at h
  cases htask : m.tasks[t]? with
  | none =>
    rw [htask] at h
    cases h
  | some task =>
    rw [htask] at h
    cases h
    rfl

theorem taskEnd?_depart_ok {instant ticket timeout reaper : Nat} {went : Bool} :
    (m.depart t i c ticket timeout reaper (.ok went)).taskEnd? t ≠
      some (.returned instant (.error e)) := by
  intro h
  have hwaiting : ∀ due, (m.beginWaiting t c ticket due reaper).taskEnd? t = none := by
    intro due
    simp only [beginWaiting, taskEnd?, tasks_setAlarm, tasks_setActivity, if_true]
    cases m.tasks[t]? <;> rfl
  have hreturned : ∀ (m : Mesh) results, (m.returnResults t i c ticket reaper results).taskEnd? t ≠
      some (.returned instant (.error e)) := by
    intro m results hend
    cases taskEnd?_endCall hend
  simp only [depart, awaitResults] at h
  split at h
  · split at h
    · exact hreturned _ _ h
    · split at h
      · rw [hwaiting] at h
        cases h
      · exact hreturned _ _ h
  · rw [hwaiting] at h
    cases h

theorem produce_result (m : Mesh) (i : Nat) (message : Message) :
    (∃ reason, m.produce i message = (m, .error (.transport reason))) ∨
      ∃ went, (m.produce i message).2 = .ok went := by
  simp only [produce]
  split
  · split
    · next reason _ => exact .inl ⟨reason, rfl⟩
    · exact .inr ⟨true, rfl⟩
  · exact .inr ⟨false, rfl⟩

/-- A call fails when it is refused, or when the transport does not take its command. -/
theorem submit_error {instant : Nat}
    (h : (m.submit t i c).taskEnd? t = some (.returned instant (.error e))) :
    refusal? (m.station i) c = some e ∧ m.submit t i c = m.endCall t (.error e) ∨
      refusal? (m.station i) c = none ∧ (∃ reason, e = .transport reason) ∧
        ∃ reaper, m.submit t i c = (m.enter t i (c.stamped (m.station i).node)).1.depart t i
          (c.stamped (m.station i).node) (m.store i).commands.length
            ((m.station i).timeoutOf c) reaper (.error e) := by
  cases hrefusal : refusal? (m.station i) c with
  | some e' =>
    have hsubmit : m.submit t i c = m.endCall t (.error e') := by simp only [submit, hrefusal]
    rw [hsubmit] at h
    obtain rfl := Except.error.inj (taskEnd?_endCall h)
    exact .inl ⟨rfl, hsubmit⟩
  | none =>
    refine .inr ⟨rfl, ?_⟩
    have hsubmit : m.submit t i c = (m.enter t i (c.stamped (m.station i).node)).1.send t i
        (c.stamped (m.station i).node) (m.store i).commands.length ((m.station i).timeoutOf c)
          (m.enter t i (c.stamped (m.station i).node)).2.2 := by
      simp only [submit, hrefusal]
      rfl
    rw [hsubmit] at h ⊢
    obtain ⟨reason, hproduce⟩ | ⟨went, hproduce⟩ :=
      produce_result (m.enter t i (c.stamped (m.station i).node)).1 i
        (.command (c.stamped (m.station i).node))
    · rw [send, hproduce] at h ⊢
      obtain rfl := Except.error.inj (taskEnd?_endCall h)
      exact ⟨⟨reason, rfl⟩, _, rfl⟩
    · rw [send, hproduce] at h
      exact absurd h taskEnd?_depart_ok

/-- What failed calls do to a store. A refused call spares every store. A call whose command the
transport does not take spares the other stores, and its own but for the place under its id, which
it vacates; if nothing was stored there it spares this store too. Where the transport takes its
time, the call takes its place at first, and to fail later is only to be withdrawn. -/
theorem failed_call (hplaced : i < m.stations.length) (t : Nat) (c : Command) :
    (∀ instant e, (m.submit t i c).taskEnd? t = some (.returned instant (.error e)) →
      (∀ j, j ≠ i → (m.submit t i c).store j = m.store j) ∧
      (refusal? (m.station i) c = some e ∧ (m.store i).Spares ((m.submit t i c).store i) ∨
        refusal? (m.station i) c = none ∧ (∃ reason, e = .transport reason) ∧
          (m.store i).Vacates c.id ((m.submit t i c).store i) ∧
          ((m.store i).get? c.id = none → (m.store i).Spares ((m.submit t i c).store i)))) ∧
    (∀ j, j ≠ i → (m.enter t i c).1.store j = m.store j) ∧
    (m.store i).TakesPlace c ((m.enter t i c).1.store i) ∧
    ∀ ticket timeout reaper e,
      (∀ j, j ≠ i → (m.depart t i c ticket timeout reaper (.error e)).store j = m.store j) ∧
      (m.store i).Withdraws ticket ((m.depart t i c ticket timeout reaper (.error e)).store i) := by
  refine ⟨?_, ?_, ?_, ?_⟩
  · intro instant e hend
    obtain ⟨hrefusal, hsubmit⟩ | ⟨hrefusal, hreason, reaper, hsubmit⟩ := submit_error hend
    · have hstore : ∀ j, (m.submit t i c).store j = m.store j := by
        intro j
        rw [hsubmit, endCall, store_finish]
      refine ⟨fun j _ => hstore j, .inl ⟨hrefusal, ?_⟩⟩
      rw [hstore]
      exact ⟨rfl, fun _ _ hp => hp⟩
    · have hentered : i < (m.enter t i (c.stamped (m.station i).node)).1.stations.length := by
        have hlength := stations_register m i (c.stamped (m.station i).node)
          ((m.station i).timeoutOf (c.stamped (m.station i).node))
        exact hlength ▸ hplaced
      have hstore : ∀ j, (m.submit t i c).store j = if j = i then
          (((m.store i).register (c.stamped (m.station i).node)).1.removeEntry
            (m.store i).commands.length).1 else m.store j := by
        intro j
        rw [hsubmit, store_depart_error hentered, store_enter hplaced, store_enter hplaced,
          if_pos rfl]
        split <;> rfl
      have hvacates : (m.store i).Vacates c.id ((m.submit t i c).store i) := by
        rw [hstore, if_pos rfl]
        exact vacates_of_register (m.store i) (c.stamped (m.station i).node)
      exact ⟨fun j hj => (hstore j).trans (if_neg hj),
        .inr ⟨hrefusal, hreason, hvacates, hvacates.spares⟩⟩
  · intro j hj
    rw [store_enter hplaced, if_neg hj]
  · rw [store_enter hplaced, if_pos rfl]
    exact register_takesPlace (m.store i) c
  · intro ticket timeout reaper e
    refine ⟨fun j hj => ?_, ?_⟩
    · rw [store_depart_error hplaced, if_neg hj]
    · rw [store_depart_error hplaced, if_pos rfl]
      exact removeEntry_withdraws (m.store i) ticket

section

def statusCommand : Command := ⟨Event.withId "c1" "status", none⟩

/-- A call waits under an id, and then the transport takes no more commands. -/
def refusingMesh : Mesh :=
  let station : Station := .start ⟨"n1", none, "localhost", 5701⟩ ∅ true {} {}
  let started := (((ofCapacity 1).addStation station).1.execute 0 statusCommand).1
  let waiting := (started.submit 0 0 statusCommand).setRefusal 0 (some "down")
  (waiting.execute 0 statusCommand).1

/-- A call that fails is not without effect on a command that waits under its id: that one is
completed, and nothing is stored under the id any more. -/
theorem failed_call_not_spares :
    ¬∀ (m : Mesh) (t i : Nat) (c : Command) (instant : Nat) (e : MeshError), i < m.stations.length →
      m.tasks[t]? = some ⟨i, .executing c .submitted, false⟩ →
      (m.submit t i c).taskEnd? t = some (.returned instant (.error e)) →
        (m.store i).Spares ((m.submit t i c).store i) := by
  intro hall
  have hspares := hall refusingMesh 2 0 statusCommand 0 (.transport "down") (by decide) rfl rfl
  have hstored : ([] : List String) = ["c1"] := congrArg KeyedList.keys hspares.entries
  cases hstored

theorem refusingMesh_vacates :
    0 < refusingMesh.stations.length ∧
      (refusingMesh.submit 2 0 statusCommand).taskEnd? 2 =
        some (.returned 0 (.error (.transport "down"))) ∧
      (refusingMesh.store 0).Vacates "c1" ((refusingMesh.submit 2 0 statusCommand).store 0) := by
  have hplaced : 0 < refusingMesh.stations.length := by decide
  have hend : (refusingMesh.submit 2 0 statusCommand).taskEnd? 2 =
      some (.returned 0 (.error (.transport "down"))) := rfl
  obtain ⟨-, ⟨hrefusal, -⟩ | ⟨-, -, hvacates, -⟩⟩ :=
    (failed_call hplaced 2 statusCommand).1 0 _ hend
  · cases hrefusal
  · exact ⟨hplaced, hend, hvacates⟩

end

end Mesh

end ClusterMesh
