import ClusterMesh.Mesh.Setup
import ClusterMesh.Proofs.Execution.Entries
import ClusterMesh.Proofs.Mesh.Turns

/-!
# Where messages are

A message is on the bus, in the queue of a station or with a call to its dispatcher that is under
way, or in the hands of a task that works on it; a command is also with the call that is to send it.
What brings no message, no command and no result where it was not before is calm.
-/

namespace ClusterMesh

/-- The message that a task works on. -/
def Activity.held : Activity → Option Message
  | .dispatching job => some job.message
  | .working job => job.map Job.message
  | .handling _ message _ => some message
  | _ => none

/-- A task that neither works on a message nor executes a command. -/
def Activity.IsBare (a : Activity) : Prop := a.held = none ∧ ∀ c stage, a ≠ .executing c stage

/-- The messages that wait in the queue, and those of the calls that are under way. -/
def Dispatcher.waits (d : Dispatcher) : List Message :=
  d.queue ++ d.entering.map DispatchCall.message

theorem Dispatcher.mem_waits_place (d : Dispatcher) (message : Message) {other : Message}
    (h : other ∈ (d.place message).1.waits) : other ∈ d.waits ∨ other = message := by
  unfold place at h
  split at h
  · split at h
    · exact Or.inl h
    · simp only [waits, List.mem_append, List.mem_singleton] at h ⊢
      tauto
  · exact Or.inl h

theorem Dispatcher.mem_waits_accept (d : Dispatcher) (message : Message) {other : Message}
    (h : other ∈ (d.accept message).1.waits) : other ∈ d.waits ∨ other = message := by
  unfold accept at h
  split at h
  · exact Or.inl h
  · exact d.enlist.mem_waits_place message h

theorem Station.isAddressed_of_takes {s : Station} {message : Message}
    (h : s.takes message = true) : message.header.isAddressedTo s.node = true := by
  rw [takes, Bool.and_eq_true] at h
  exact h.1

namespace PendingStore

variable {s s' s'' : PendingStore} {k : Nat} {f : Pending → Pending}

/-- No command has results that it did not have. -/
structure Stays (s s' : PendingStore) : Prop where
  results : ∀ {k : Nat} {p'}, s'.command? k = some p' → p'.results = ∅ ∨
    ∃ p, s.command? k = some p ∧ p'.results = p.results

theorem Stays.refl (s : PendingStore) : s.Stays s := ⟨fun hp => Or.inr ⟨_, hp, rfl⟩⟩

theorem Stays.trans (h : s.Stays s') (h' : s'.Stays s'') : s.Stays s'' where
  results := by
    intro k p'' hp''
    rcases h'.results hp'' with hnone | ⟨p', hp', hsame'⟩
    · exact Or.inl hnone
    · rcases h.results hp' with hnone | ⟨p, hp, hsame⟩
      · exact Or.inl (hsame'.trans hnone)
      · exact Or.inr ⟨p, hp, hsame'.trans hsame⟩

theorem stays_of_commands (h : s'.commands = s.commands) : s.Stays s' := by
  refine ⟨fun {k p} hp => Or.inr ⟨p, ?_, rfl⟩⟩
  rwa [command?, h] at hp

theorem stays_update (hf : ∀ p, s.command? k = some p → (f p).results = p.results) :
    s.Stays (s.update k f) := by
  refine ⟨?_⟩
  intro l p' hp'
  rw [command?_update] at hp'
  split at hp'
  · next heq =>
    obtain ⟨p, hp, rfl⟩ := Option.map_eq_some_iff.mp hp'
    exact Or.inr ⟨p, heq ▸ hp, hf p hp⟩
  · exact Or.inr ⟨p', hp', rfl⟩

theorem stays_removeEntry (s : PendingStore) (k : Nat) : s.Stays (s.removeEntry k).1 := by
  apply stays_of_commands
  unfold removeEntry
  split
  · split <;> rfl
  · rfl

theorem results_complete (p : Pending) : p.complete.1.results = p.results := by
  unfold Pending.complete
  split <;> rfl

theorem stays_onTimeout (s : PendingStore) (k : Nat) : s.Stays (s.onTimeout k).1 := by
  unfold onTimeout
  split
  · next p hp =>
    refine stays_update ?_
    intro q hq
    obtain rfl := Option.some.inj (hp.symm.trans hq)
    exact results_complete p
  · exact .refl s

theorem stays_expire (s : PendingStore) (k : Nat) : s.Stays (s.expire k).1 := by
  simp only [expire]
  split
  · exact (stays_removeEntry s k).trans (stays_onTimeout _ k)
  · exact stays_removeEntry s k

theorem stays_put_issue (s : PendingStore) (c : Command) :
    s.Stays ((s.issue c).1.put c.id (s.issue c).2).1 := by
  refine ⟨?_⟩
  intro l p' hp'
  rw [show (s.issue c).2 = s.commands.length from rfl, put_issue_command] at hp'
  split at hp'
  · obtain rfl := Option.some.inj hp'
    exact Or.inl rfl
  · exact Or.inr ⟨p', hp', rfl⟩

end PendingStore

namespace Mesh

variable {m m' m'' : Mesh} {t i k : Nat} {c : Command} {message : Message}

/-- A message waits at the dispatcher of a station, or a task of the station works on it. -/
def Holds (m : Mesh) (i : Nat) (message : Message) : Prop :=
  i < m.stations.length ∧ ((∃ (t : Nat) (task : Task), m.tasks[t]? = some task ∧
    task.station = i ∧ task.activity.held = some message) ∨
      message ∈ (m.station i).dispatcher.waits)

/-- A call at a station was submitted and has not begun. -/
def Submits (m : Mesh) (i : Nat) (c : Command) : Prop :=
  i < m.stations.length ∧
    ∃ (t : Nat) (aborted : Bool), m.tasks[t]? = some ⟨i, .executing c .submitted, aborted⟩

/-- A call at a station has stored its command. -/
def Executes (m : Mesh) (i : Nat) (c : Command) : Prop :=
  i < m.stations.length ∧ ∃ (t : Nat) (stage : CallStage) (aborted : Bool), stage ≠ .submitted ∧
    m.tasks[t]? = some ⟨i, .executing c stage, aborted⟩

/-- A result has been taken in for a command of a station. -/
def Records (m : Mesh) (i : Nat) (result : CommandResult) : Prop :=
  i < m.stations.length ∧ ∃ (k : Nat) (p : Pending) (node : Node),
    (m.store i).command? k = some p ∧ (node, result) ∈ p.results.toList

/-- Nothing new has come anywhere, except that calls have stored the commands that they were
submitted with, as commands of their stations. -/
structure Calm (m m' : Mesh) : Prop where
  stations : m.stations.length ≤ m'.stations.length
  node : ∀ {i}, i < m.stations.length → (m'.station i).node = (m.station i).node
  kept : ∀ {message}, message ∈ m'.bus.kept → message ∈ m.bus.kept
  holds : ∀ {i message}, m'.Holds i message → m.Holds i message
  submits : ∀ {i c}, m'.Submits i c → m.Submits i c
  executes : ∀ {i c}, m'.Executes i c → m.Executes i c ∨
    ∃ c', m.Submits i c' ∧ c = c'.stamped (m.station i).node
  records : ∀ {i result}, m'.Records i result → m.Records i result

theorem Calm.refl (m : Mesh) : m.Calm m :=
  ⟨Nat.le_refl _, fun _ => rfl, id, id, id, Or.inl, id⟩

theorem Calm.trans (h : m.Calm m') (h' : m'.Calm m'') : m.Calm m'' where
  stations := Nat.le_trans h.stations h'.stations
  node := fun hi => (h'.node (Nat.lt_of_lt_of_le hi h.stations)).trans (h.node hi)
  kept := fun hm => h.kept (h'.kept hm)
  holds := fun hm => h.holds (h'.holds hm)
  submits := fun hc => h.submits (h'.submits hc)
  executes := by
    intro i c hc
    rcases h'.executes hc with hold | ⟨c', hc', rfl⟩
    · exact h.executes hold
    · have hsubmits := h.submits hc'
      exact Or.inr ⟨c', hsubmits, by rw [h.node hsubmits.1]⟩
  records := fun hr => h.records (h'.records hr)

/-! ### Stations -/

theorem calm_of_eq (hstations : m'.stations = m.stations) (htasks : m'.tasks = m.tasks)
    (hkept : ∀ {message}, message ∈ m'.bus.kept → message ∈ m.bus.kept) : m.Calm m' := by
  have hstation : ∀ i, m'.station i = m.station i := fun i => by rw [station, station, hstations]
  refine ⟨Nat.le_of_eq (congrArg List.length hstations.symm),
    fun _ => congrArg Station.node (hstation _), hkept, ?_, ?_, ?_, ?_⟩
  · intro i message h
    rwa [Holds, hstations, htasks, hstation] at h
  · intro i c h
    rwa [Submits, hstations, htasks] at h
  · intro i c h
    rw [Executes, hstations, htasks] at h
    exact Or.inl h
  · intro i result h
    rwa [Records, hstations, store, hstation] at h

theorem calm_note (m : Mesh) (h : Handler) (message : Message) : m.Calm (m.note h message) :=
  calm_of_eq rfl rfl id

theorem calm_updateStation {f : Station → Station} (hnode : (f (m.station i)).node = (m.station i).node)
    (hwaits : ∀ {message}, message ∈ (f (m.station i)).dispatcher.waits →
      message ∈ (m.station i).dispatcher.waits)
    (hstore : (m.store i).Stays (f (m.station i)).store) : m.Calm (m.updateStation i f) := by
  have hlength : (m.updateStation i f).stations.length = m.stations.length :=
    List.length_modify ..
  refine ⟨Nat.le_of_eq hlength.symm, ?_, id, ?_, ?_, ?_, ?_⟩
  · intro j _
    rw [station_updateStation]
    split
    · next h => rw [hnode, h.1]
    · rfl
  · intro j message h
    rw [Holds, hlength] at h
    refine h.imp_right fun hat => hat.imp_right fun hmem => ?_
    rw [station_updateStation] at hmem
    split at hmem
    · next h => exact h.1 ▸ hwaits hmem
    · exact hmem
  · intro j c h
    rwa [Submits, hlength] at h
  · intro j c h
    rw [Executes, hlength] at h
    exact Or.inl h
  · rintro j result ⟨hj, k, p', node, hp', hmem⟩
    refine ⟨hlength ▸ hj, ?_⟩
    rw [store, station_updateStation] at hp'
    split at hp'
    · next h =>
      rcases hstore.results hp' with hnone | ⟨p, hp, hsame⟩
      · rw [hnone] at hmem
        cases hmem
      · exact ⟨k, p, node, h.1 ▸ hp, hsame ▸ hmem⟩
    · exact ⟨k, p', node, hp', hmem⟩

theorem calm_updateStore {f : PendingStore → PendingStore} (h : (m.store i).Stays (f (m.store i))) :
    m.Calm (m.updateStore i f) :=
  calm_updateStation (f := fun s => { s with store := f s.store }) rfl id h

theorem calm_updateDispatcher {f : Dispatcher → Dispatcher}
    (h : ∀ {message}, message ∈ (f (m.station i).dispatcher).waits →
      message ∈ (m.station i).dispatcher.waits) : m.Calm (m.updateDispatcher i f) :=
  calm_updateStation (f := fun s => { s with dispatcher := f s.dispatcher }) rfl h (.refl _)

/-! ### Tasks -/

/-- Nothing new comes with one more task, or with what one task does now, if it works on no message
that was not there and calls nothing that was not submitted. -/
theorem Calm.withTask {a : Activity} {aborted : Bool} {tasks : List Task} {agenda : Agenda}
    (h : m.Calm m') (htasks : ∀ {u : Nat} {task : Task}, tasks[u]? = some task →
      task = ⟨i, a, aborted⟩ ∨ m'.tasks[u]? = some task)
    (hheld : ∀ {message}, a.held = some message → m.Holds i message)
    (hcall : ∀ {c stage}, a = .executing c stage → stage ≠ .submitted ∧
      (m.Executes i c ∨ ∃ c', m.Submits i c' ∧ c = c'.stamped (m.station i).node)) :
    m.Calm { m' with tasks := tasks, agenda := agenda } := by
  refine ⟨h.stations, h.node, h.kept, ?_, ?_, ?_, h.records⟩
  · rintro j message ⟨hj, ⟨u, task, hu, hstation, hmessage⟩ | hwaits⟩
    · rcases htasks hu with rfl | hu
      · obtain rfl : i = j := hstation
        exact hheld hmessage
      · exact h.holds ⟨hj, Or.inl ⟨u, task, hu, hstation, hmessage⟩⟩
    · exact h.holds ⟨hj, Or.inr hwaits⟩
  · rintro j c ⟨hj, u, aborted', hu⟩
    rcases htasks hu with heq | hu
    · cases heq
      exact absurd rfl (hcall rfl).1
    · exact h.submits ⟨hj, u, aborted', hu⟩
  · rintro j c ⟨hj, u, stage, aborted', hstage, hu⟩
    rcases htasks hu with heq | hu
    · cases heq
      exact (hcall rfl).2
    · exact h.executes ⟨hj, u, stage, aborted', hstage, hu⟩

theorem Calm.setActivity {b a : Activity} {aborted : Bool} (h : m.Calm m')
    (htask : m'.tasks[t]? = some ⟨i, b, aborted⟩)
    (hheld : ∀ {message}, a.held = some message → m.Holds i message)
    (hcall : ∀ {c stage}, a = .executing c stage → stage ≠ .submitted ∧
      (m.Executes i c ∨ ∃ c', m.Submits i c' ∧ c = c'.stamped (m.station i).node)) :
    m.Calm (m'.setActivity t a) := by
  have htasks : ∀ {u : Nat} {task : Task}, (m'.setActivity t a).tasks[u]? = some task →
      task = ⟨i, a, aborted⟩ ∨ m'.tasks[u]? = some task := by
    intro u task hu
    rw [tasks_setActivity, htask] at hu
    split at hu
    · exact Or.inl (Option.some.inj hu).symm
    · exact Or.inr hu
  exact h.withTask htasks hheld hcall

theorem calm_finish (m : Mesh) (t : Nat) (e : TaskEnd) : m.Calm (m.finish t e) := by
  cases htask : m.tasks[t]? with
  | none =>
    refine calm_of_eq rfl ?_ id
    refine List.ext_getElem? fun u => ?_
    rw [tasks_finish, tasks_setActivity, htask]
    split
    · next h => rw [h, htask]; rfl
    · rfl
  | some task =>
    have hset : m.Calm (m.setActivity t (.ended e)) :=
      (Calm.refl m).setActivity (t := t) (i := task.station) (b := task.activity) htask
        (fun h => by cases h) (fun h => by cases h)
    exact hset.trans (calm_of_eq rfl rfl id)

theorem Calm.spawn {a : Activity} (h : m.Calm m')
    (hheld : ∀ {message}, a.held = some message → m.Holds i message)
    (hcall : ∀ c stage, a ≠ .executing c stage) : m.Calm (m'.spawn i a).1 := by
  have htasks : ∀ {u : Nat} {task : Task}, (m'.spawn i a).1.tasks[u]? = some task →
      task = ⟨i, a, false⟩ ∨ m'.tasks[u]? = some task := by
    intro u task hu
    rw [tasks_spawn] at hu
    split at hu
    · exact Or.inl (Option.some.inj hu).symm
    · exact Or.inr hu
  exact h.withTask htasks hheld fun he => absurd he (hcall _ _)

theorem calm_spawn (m : Mesh) (i : Nat) {a : Activity} (ha : a.IsBare) : m.Calm (m.spawn i a).1 :=
  (Calm.refl m).spawn (fun h => by rw [ha.1] at h; cases h) ha.2

theorem calm_abort (m : Mesh) (t : Nat) : m.Calm (m.abort t) := by
  have hold : ∀ {u : Nat} {task : Task}, (m.abort t).tasks[u]? = some task →
      ∃ aborted, m.tasks[u]? = some { task with aborted } := by
    intro u task hu
    cases hended : m.hasEnded t with
    | true =>
      rw [abort_of_ended m t hended] at hu
      exact ⟨task.aborted, hu⟩
    | false =>
      rw [tasks_abort m t u hended] at hu
      split at hu
      · next heq =>
        obtain ⟨before, hbefore, rfl⟩ := Option.map_eq_some_iff.mp hu
        exact ⟨before.aborted, heq ▸ hbefore⟩
      · exact ⟨task.aborted, hu⟩
  have hstations := stations_abort m t
  have hkept : (m.abort t).bus = m.bus := by
    unfold abort
    split <;> rfl
  have hstation : ∀ i, (m.abort t).station i = m.station i := fun i => by
    rw [station, station, hstations]
  refine ⟨Nat.le_of_eq (congrArg List.length hstations.symm),
    fun _ => congrArg Station.node (hstation _), ?_, ?_, ?_, ?_, ?_⟩
  · rw [hkept]
    exact id
  · rintro j message ⟨hj, hat⟩
    rw [hstations] at hj
    rcases hat with ⟨u, task, hu, hwhere, hmessage⟩ | hwaits
    · obtain ⟨aborted, hu⟩ := hold hu
      exact ⟨hj, Or.inl ⟨u, _, hu, hwhere, hmessage⟩⟩
    · rw [hstation] at hwaits
      exact ⟨hj, Or.inr hwaits⟩
  · rintro j c ⟨hj, u, aborted, hu⟩
    obtain ⟨aborted, hu⟩ := hold hu
    exact ⟨hstations ▸ hj, u, aborted, hu⟩
  · rintro j c ⟨hj, u, stage, aborted, hstage, hu⟩
    obtain ⟨aborted, hu⟩ := hold hu
    exact Or.inl ⟨hstations ▸ hj, u, stage, aborted, hstage, hu⟩
  · intro j result h
    rwa [Records, hstations, store, hstation] at h

/-! ### Calls and reapers -/

theorem calm_wakeCaller (m : Mesh) (i k : Nat) : m.Calm (m.wakeCaller i k) := by
  refine calm_of_eq (stations_wakeCaller m i k) (tasks_wakeCaller m i k) ?_
  rw [bus_wakeCaller]
  exact id

theorem calm_timeOut (m : Mesh) (i k : Nat) : m.Calm (m.timeOut i k).1 := by
  have hstore : m.Calm (m.updateStore i fun _ => ((m.store i).onTimeout k).1) :=
    calm_updateStore (PendingStore.stays_onTimeout _ k)
  simp only [timeOut]
  split
  · exact hstore.trans (calm_wakeCaller _ i k)
  · exact hstore

theorem calm_expire (m : Mesh) (i k : Nat) : m.Calm (m.expire i k).1 := by
  have hstore : m.Calm (m.updateStore i fun _ => ((m.store i).expire k).1) :=
    calm_updateStore (PendingStore.stays_expire _ k)
  simp only [expire]
  split
  · exact hstore.trans (calm_wakeCaller _ i k)
  · exact hstore

theorem calm_endCall (m : Mesh) (t : Nat) (outcome : Except MeshError Outcome) :
    m.Calm (m.endCall t outcome) := calm_finish m t _

theorem calm_returnResults (m : Mesh) (t i : Nat) (c : Command) (k reaper : Nat)
    (results : Results) : m.Calm (m.returnResults t i c k reaper results) := by
  have htaken : (m.store i).Stays ((m.store i).update k Pending.take) :=
    PendingStore.stays_update fun p _ => (Pending.take_eq p).2.1
  have hstore := calm_updateStore (m := m) (i := i)
    (f := fun s => ((s.update k Pending.take).removeEntry k).1)
    (htaken.trans (PendingStore.stays_removeEntry _ k))
  exact (hstore.trans (calm_abort _ reaper)).trans (calm_endCall _ t _)

theorem calm_awaitResults (m : Mesh) (t i : Nat) (c : Command) (k due reaper : Nat) :
    m.Calm (m.awaitResults t i c k due reaper) := by
  unfold awaitResults
  split
  · split
    · exact calm_returnResults m t i c k reaper _
    · split
      · exact .refl m
      · exact (calm_timeOut m i k).trans (calm_returnResults _ t i c k reaper _)
  · exact .refl m

theorem calm_register (m : Mesh) (i : Nat) (c : Command) (timeout : Nat) :
    m.Calm (m.register i c timeout).1 := by
  have hstore : m.Calm (m.updateStore i fun _ =>
      (((m.store i).issue c).1.put c.id ((m.store i).issue c).2).1) :=
    calm_updateStore (PendingStore.stays_put_issue _ c)
  have hbare : ∀ ticket, (Activity.reaping ticket timeout none).IsBare :=
    fun _ => ⟨rfl, fun _ _ h => by cases h⟩
  simp only [register]
  split
  · next displaced _ =>
    exact (hstore.trans (calm_timeOut _ i displaced)).trans (calm_spawn _ i (hbare _))
  · exact hstore.trans (calm_spawn _ i (hbare _))

theorem calm_enter (hi : i < m.stations.length) {aborted : Bool}
    (htask : m.tasks[t]? = some ⟨i, .executing c .submitted, aborted⟩) :
    m.Calm (m.enter t i (c.stamped (m.station i).node)).1 := by
  let c' := c.stamped (m.station i).node
  have hregister := calm_register m i c' ((m.station i).timeoutOf c')
  have hkept : (m.register i c' ((m.station i).timeoutOf c')).1.tasks[t]? =
      some ⟨i, .executing c .submitted, aborted⟩ := by
    obtain ⟨hlt, -⟩ := List.getElem?_eq_some_iff.mp htask
    simp only [register, tasks_spawn]
    split <;> simp [htask, Nat.ne_of_lt hlt]
  simp only [enter]
  generalize m.register i c' ((m.station i).timeoutOf c') = registered at hregister hkept ⊢
  have hset : registered.1.Calm (registered.1.setActivity t (.executing c'
      (.sending registered.2.1 ((m.station i).timeoutOf c') registered.2.2))) := by
    refine (Calm.refl _).setActivity hkept (fun h => by cases h) ?_
    intro c'' stage heq
    cases heq
    refine ⟨fun h => (by cases h), Or.inr ⟨c, ⟨?_, t, aborted, hkept⟩, ?_⟩⟩
    · exact Nat.lt_of_lt_of_le hi hregister.stations
    · rw [hregister.node hi]
  exact hregister.trans hset

theorem calm_depart (hi : i < m.stations.length) {k timeout reaper : Nat} {aborted : Bool}
    (htask : m.tasks[t]? = some ⟨i, .executing c (.sending k timeout reaper), aborted⟩)
    (sent : Except MeshError Bool) : m.Calm (m.depart t i c k timeout reaper sent) := by
  cases sent with
  | error e =>
    have hstore : m.Calm (m.updateStore i fun s => (s.removeEntry k).1) :=
      calm_updateStore (PendingStore.stays_removeEntry _ k)
    exact (hstore.trans (calm_abort _ reaper)).trans (calm_endCall _ t _)
  | ok sent =>
    have hset : m.Calm (m.setActivity t (.executing c (.waiting k (m.now + timeout) reaper))) := by
      refine (Calm.refl m).setActivity htask (fun h => by cases h) ?_
      intro c' stage heq
      cases heq
      exact ⟨fun h => (by cases h), Or.inl ⟨hi, t, _, aborted, fun h => (by cases h), htask⟩⟩
    have hwaits : m.Calm (m.beginWaiting t c k (m.now + timeout) reaper) :=
      hset.trans (calm_of_eq rfl rfl id)
    exact hwaits.trans (calm_awaitResults _ t i c k _ reaper)

theorem calm_runReaper {k delay : Nat} {due : Option Nat} {aborted : Bool}
    (htask : m.tasks[t]? = some ⟨i, .reaping k delay due, aborted⟩) :
    m.Calm (m.runReaper t i k delay due) := by
  have hset : ∀ instant, m.Calm (m.setActivity t (.reaping k delay (some instant))) := fun _ =>
    (Calm.refl m).setActivity htask (fun h => by cases h) (fun h => by cases h)
  simp only [runReaper]
  split
  · split
    · exact (hset _).trans (calm_of_eq rfl rfl id)
    · exact hset _
  · exact (calm_expire m i k).trans (calm_finish _ t _)

theorem calm_drop (m : Mesh) (t i : Nat) (a : Activity) : m.Calm (m.drop t i a) := by
  have habandon : ∀ k, m.Calm (m.updateStore i fun s => s.update k Pending.abandon) := fun k =>
    calm_updateStore (PendingStore.stays_update fun _ _ => rfl)
  unfold drop
  split
  · next subscriber =>
    have hleaves : m.Calm { m with bus := (m.bus.unsubscribe subscriber).leave t } :=
      calm_of_eq rfl rfl id
    exact hleaves.trans (calm_finish _ t _)
  · exact (habandon _).trans (calm_finish _ t _)
  · exact (habandon _).trans (calm_finish _ t _)
  · exact calm_finish m t _

/-! ### Calls to dispatchers and new stations -/

theorem calm_wakeWorker (m : Mesh) (i : Nat) : m.Calm (m.wakeWorker i) := by
  refine calm_of_eq (stations_wakeWorker m i) (tasks_wakeWorker m i) ?_
  rw [bus_wakeWorker]
  exact id

theorem calm_deliver {after : Dispatcher × Admission} (hholds : m.Holds i message)
    (hwaits : ∀ {other}, other ∈ after.1.waits → other ∈ (m.station i).dispatcher.waits) :
    m.Calm (m.deliver i message after) := by
  have hupdate : m.Calm (m.updateDispatcher i fun _ => after.1) := calm_updateDispatcher hwaits
  obtain ⟨-, heq⟩ | ⟨-, heq⟩ | ⟨-, heq⟩ := m.deliver_cases i message after
  · rw [heq]
    exact hupdate
  · rw [heq]
    exact hupdate.trans (calm_wakeWorker _ i)
  · rw [heq]
    refine hupdate.spawn ?_ (fun _ _ h => by cases h)
    intro other h
    cases h
    exact hholds

/-- A call to a dispatcher that was under way ends with the message that it began with. -/
theorem calm_endDispatch (hi : i < m.stations.length) {call : DispatchCall}
    (hcall : (m.station i).dispatcher.entering[k]? = some call) :
    m.Calm (m.endDispatch i k call.message) := by
  have hwaiting : call.message ∈ (m.station i).dispatcher.waits :=
    List.mem_append_right _ (List.mem_map_of_mem (List.mem_of_getElem? hcall))
  refine calm_deliver ⟨hi, Or.inr hwaiting⟩ fun {other} h => ?_
  rcases Dispatcher.mem_waits_place _ _ h with hold | rfl
  · refine (List.mem_append.mp hold).elim (fun hq => List.mem_append_left _ hq) fun hentering => ?_
    obtain ⟨c, hc, rfl⟩ := List.mem_map.mp hentering
    exact List.mem_append_right _ (List.mem_map_of_mem (List.mem_of_mem_eraseIdx hc))
  · exact hwaiting

theorem calm_addStation (hplaced : m.Placed) {s : Station} (hwaits : s.dispatcher.waits = [])
    (hstore : s.store = PendingStore.empty) : m.Calm (m.addStation s).1 := by
  have hlength : ({ m with stations := m.stations ++ [s] } : Mesh).stations.length =
      m.stations.length + 1 := List.length_append
  -- no task works for the new station
  have hplace : ∀ {j t : Nat} {task : Task}, j < m.stations.length + 1 → m.tasks[t]? = some task →
      task.station = j → j < m.stations.length := fun _ htask heq => heq ▸ hplaced.lt htask
  have hadd : m.Calm { m with stations := m.stations ++ [s] } := by
    refine ⟨by rw [hlength]; exact Nat.le_succ _, ?_, id, ?_, ?_, ?_, ?_⟩
    · intro j hj
      rw [station_append, if_neg (Nat.ne_of_lt hj)]
    · rintro j message ⟨hj, ⟨t, task, htask, hstation, hheld⟩ | hmem⟩
      · exact ⟨hplace (hlength ▸ hj) htask hstation, Or.inl ⟨t, task, htask, hstation, hheld⟩⟩
      · rw [station_append] at hmem
        split at hmem
        · rw [hwaits] at hmem
          cases hmem
        · next hne => exact ⟨by omega, Or.inr hmem⟩
    · rintro j c ⟨hj, t, aborted, htask⟩
      exact ⟨hplace (hlength ▸ hj) htask rfl, t, aborted, htask⟩
    · rintro j c ⟨hj, t, stage, aborted, hstage, htask⟩
      exact Or.inl ⟨hplace (hlength ▸ hj) htask rfl, t, stage, aborted, hstage, htask⟩
    · rintro j result ⟨hj, k, p, node, hp, hmem⟩
      rw [store, station_append] at hp
      split at hp
      · rw [hstore] at hp
        cases hp
      · next hne => exact ⟨by omega, k, p, node, hp, hmem⟩
  simp only [addStation]
  split
  · exact hadd
  · have hspawn := calm_spawn { m with stations := m.stations ++ [s] } m.stations.length
      (a := .working none) ⟨rfl, fun _ _ h => by cases h⟩
    exact (hadd.trans hspawn).trans (calm_updateStation rfl id (.refl _))

theorem calm_startConsumer (m : Mesh) (i : Nat) (busIsGone : Bool) :
    m.Calm (m.startConsumer i busIsGone) := by
  have hloop : ∀ (m : Mesh) σ, m.Calm (m.beginLoop i σ) := by
    intro m σ
    have hspawn : m.Calm (m.spawn i (.receiving σ)).1 :=
      calm_spawn m i ⟨rfl, fun _ _ h => by cases h⟩
    exact hspawn.trans (calm_updateStation rfl id (.refl _))
  have hsubscribes : m.Calm { m with bus := m.bus.subscribe.1 } := calm_of_eq rfl rfl id
  unfold startConsumer
  split
  · exact .refl m
  · split
    · exact hloop m none
    · exact hsubscribes.trans (hloop _ _)

end Mesh

end ClusterMesh
