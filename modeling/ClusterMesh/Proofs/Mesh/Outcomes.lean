import ClusterMesh.Proofs.Mesh.Views

/-!
# What comes of an operation

An operation on a mesh ends in one of a few ways. Whoever needs to know what it does goes through
these, and not through its definition.
-/

namespace ClusterMesh.Mesh

/-! ### Messages that go out -/

theorem produce_cases (m : Mesh) (i : Nat) (message : Message) :
    (m.produce i message).1 = m ∨
      (m.produce i message).1 = m.publish (message.stamped (m.station i).node) := by
  simp only [produce]
  split
  · split
    · exact Or.inl rfl
    · exact Or.inr rfl
  · exact Or.inl rfl

theorem produce_keeps (m : Mesh) (i : Nat) (message : Message) :
    (m.produce i message).1.tasks = m.tasks ∧ (m.produce i message).1.stations = m.stations := by
  obtain heq | heq := produce_cases m i message
  · rw [heq]
    exact ⟨rfl, rfl⟩
  · rw [heq]
    exact ⟨rfl, rfl⟩

theorem reply_fst (m : Mesh) (i : Nat) (result : CommandResult) :
    (m.reply i result).1 = (m.produce i (.result result)).1 := by
  unfold reply
  split
  · next heq => rw [heq]
  · next heq => rw [heq]

/-! ### Messages that come to a dispatcher -/

section

variable (m : Mesh) (i : Nat) (message : Message) (after : Dispatcher × Admission)

theorem deliver_cases :
    (after.2 = .refused ∧ m.deliver i message after = m.updateDispatcher i fun _ => after.1) ∨
    (after.2 = .queued ∧
      m.deliver i message after = (m.updateDispatcher i fun _ => after.1).wakeWorker i) ∨
    (after.2 = .started ∧ m.deliver i message after =
      ((m.updateDispatcher i fun _ => after.1).spawn i (.dispatching ⟨message, .arrived⟩)).1) := by
  obtain ⟨d, admission⟩ := after
  cases admission with
  | refused => exact Or.inl ⟨rfl, rfl⟩
  | queued => exact Or.inr (Or.inl ⟨rfl, rfl⟩)
  | started => exact Or.inr (Or.inr ⟨rfl, rfl⟩)

theorem station_deliver (j : Nat) : (m.deliver i message after).station j =
    if j = i ∧ i < m.stations.length then { m.station i with dispatcher := after.1 }
    else m.station j := by
  have hupdate := station_updateDispatcher m i j fun _ => after.1
  obtain ⟨-, heq⟩ | ⟨-, heq⟩ | ⟨-, heq⟩ := m.deliver_cases i message after
  · rw [heq]
    exact hupdate
  · rw [heq, station_wakeWorker]
    exact hupdate
  · rw [heq]
    exact hupdate

theorem length_deliver :
    (m.deliver i message after).stations.length = m.stations.length := by
  have hupdate := length_updateDispatcher m i fun _ => after.1
  obtain ⟨-, heq⟩ | ⟨-, heq⟩ | ⟨-, heq⟩ := m.deliver_cases i message after
  · rw [heq]
    exact hupdate
  · rw [heq, stations_wakeWorker]
    exact hupdate
  · rw [heq]
    exact hupdate

/-- A message that starts at once is in the hands of a new task. -/
theorem tasks_deliver (u : Nat) : (m.deliver i message after).tasks[u]? =
    if after.2 = .started ∧ u = m.tasks.length then
      some ⟨i, .dispatching ⟨message, .arrived⟩, false⟩
    else m.tasks[u]? := by
  obtain ⟨hadmission, heq⟩ | ⟨hadmission, heq⟩ | ⟨hadmission, heq⟩ :=
    m.deliver_cases i message after
  · rw [heq, if_neg (by simp [hadmission])]
    rfl
  · rw [heq, tasks_wakeWorker, if_neg (by simp [hadmission])]
    rfl
  · rw [heq, tasks_spawn]
    simp only [hadmission, true_and]
    rfl

theorem tasks_deliver_of_some {m : Mesh} {t : Nat} {task : Task} (h : m.tasks[t]? = some task) :
    (m.deliver i message after).tasks[t]? = some task := by
  obtain ⟨hlt, -⟩ := List.getElem?_eq_some_iff.mp h
  rw [tasks_deliver, if_neg fun hnew => Nat.ne_of_lt hlt hnew.2, h]

theorem grows_deliver : (m.deliver i message after).tasks.length =
    m.tasks.length + if after.2 = .started then 1 else 0 := by
  obtain ⟨hadmission, heq⟩ | ⟨hadmission, heq⟩ | ⟨hadmission, heq⟩ :=
    m.deliver_cases i message after
  · rw [heq, hadmission]
    rfl
  · rw [heq, tasks_wakeWorker, hadmission]
    rfl
  · rw [heq, hadmission]
    exact List.length_append

theorem now_deliver : (m.deliver i message after).now = m.now := by
  obtain ⟨-, heq⟩ | ⟨-, heq⟩ | ⟨-, heq⟩ := m.deliver_cases i message after
  · rw [heq]
    rfl
  · rw [heq, now_wakeWorker]
    rfl
  · rw [heq]
    rfl

theorem bus_deliver : (m.deliver i message after).bus = m.bus := by
  obtain ⟨-, heq⟩ | ⟨-, heq⟩ | ⟨-, heq⟩ := m.deliver_cases i message after
  · rw [heq]
    rfl
  · rw [heq, bus_wakeWorker]
    rfl
  · rw [heq]
    rfl

theorem alarms_deliver : (m.deliver i message after).agenda.alarms = m.agenda.alarms := by
  obtain ⟨-, heq⟩ | ⟨-, heq⟩ | ⟨-, heq⟩ := m.deliver_cases i message after
  · rw [heq]
    rfl
  · rw [heq, alarms_wakeWorker]
    rfl
  · rw [heq]
    rfl

theorem isReady_deliver {u : Nat} (h : m.IsReady u) : (m.deliver i message after).IsReady u := by
  obtain ⟨-, heq⟩ | ⟨-, heq⟩ | ⟨-, heq⟩ := m.deliver_cases i message after
  · rwa [heq]
  · rw [heq]
    exact isReady_wakeWorker (m := m.updateDispatcher i fun _ => after.1) h i
  · rw [heq]
    exact (isReady_spawn ..).mpr (Or.inl h)

theorem isReady_deliver_of_started (h : after.2 = .started) :
    (m.deliver i message after).IsReady m.tasks.length := by
  obtain ⟨hadmission, -⟩ | ⟨hadmission, -⟩ | ⟨-, heq⟩ := m.deliver_cases i message after
  · rw [h] at hadmission
    cases hadmission
  · rw [h] at hadmission
    cases hadmission
  · rw [heq]
    exact (isReady_spawn ..).mpr (Or.inr rfl)

theorem deliver_updateDispatcher (f : Dispatcher → Dispatcher) :
    (m.updateDispatcher i f).deliver i message after = m.deliver i message after := by
  have hupdate : ∀ d : Dispatcher, (m.updateDispatcher i f).updateDispatcher i (fun _ => d) =
      m.updateDispatcher i fun _ => d := by
    intro d
    simp only [updateDispatcher, updateStation, List.modify_modify_eq]
    rfl
  simp only [deliver, hupdate]

end

/-- A call at one stroke is one that ends as soon as it has passed the check. -/
theorem dispatch_of_open {m : Mesh} {i : Nat} (hi : i < m.stations.length)
    (h : (m.station i).dispatcher.closed = false) (c : DispatchCall) : m.dispatch i c.message =
      (m.beginDispatch i c).endDispatch i (m.station i).dispatcher.entering.length c.message := by
  have hstation : ((m.beginDispatch i c).station i).dispatcher =
      (m.station i).dispatcher.enter c := by
    rw [beginDispatch, station_updateDispatcher_self hi]
  rw [endDispatch, hstation, beginDispatch, deliver_updateDispatcher, dispatch,
    Dispatcher.accept_of_open h c]

/-! ### Handlers -/

/-- A handler does nothing or notes the message down, answers a command, carries it out, or takes a
result in. -/
theorem handle_cases (m : Mesh) (i : Nat) (id : HandlerId) (message : Message) :
    (m.handle i id message).1 = m ∨ (∃ h, (m.handle i id message).1 = m.note h message) ∨
      (∃ h c resultType, message = .command c ∧ (m.handle i id message).1 =
        ((m.note h message).produce i
          (.result (scriptedResult (m.station i).node resultType c))).1) ∨
      (∃ c target, message = .command c ∧ (m.handle i id message).1 =
        ((m.updateStation i fun _ => ((m.station i).executeControl target c).1).produce i
          (.result ((m.station i).executeControl target c).2)).1) ∨
      ∃ result, message = .result result ∧
        (m.handle i id message).1 = (m.correlate i result).1 := by
  unfold handle
  split
  · next h _ =>
    unfold handleNow
    split
    · exact Or.inr (Or.inl ⟨h, rfl⟩)
    · next resultType script c _ =>
      dsimp only
      split
      · exact Or.inr (Or.inr (Or.inl ⟨h, c, resultType, rfl, reply_fst _ i _⟩))
      · exact Or.inr (Or.inl ⟨h, rfl⟩)
    · next target c _ => exact Or.inr (Or.inr (Or.inr (Or.inl ⟨c, target, rfl, reply_fst _ i _⟩)))
    · next result _ => exact Or.inr (Or.inr (Or.inr (Or.inr ⟨result, rfl, rfl⟩)))
    · exact Or.inl rfl
    · exact Or.inl rfl
  · exact Or.inl rfl

/-! ### The work on a message -/

/-- The work on a message waits where it stands or is to go on at an instant; or it ends, without a
handler or with what a handler has done. -/
theorem stepJob_cases (m : Mesh) (t i : Nat) (job : Job) : m.stepJob t i job = (m, some job) ∨
    (∃ due stage, m.stepJob t i job = (m.setAlarm due t, some ⟨job.message, stage⟩)) ∨
    m.stepJob t i job = (m.updateDispatcher i fun d => d.finish .unhandled, none) ∨
    ∃ id, m.stepJob t i job = ((m.handle i id job.message).1.updateDispatcher i fun d =>
      d.finish (countedAs (m.handle i id job.message).2), none) := by
  have hseek : ∀ deadline, (∃ due stage, m.seekHandler t i job.message deadline =
        (m.setAlarm due t, some ⟨job.message, stage⟩)) ∨
      m.seekHandler t i job.message deadline =
        (m.updateDispatcher i fun d => d.finish .unhandled, none) ∨
      ∃ id, m.seekHandler t i job.message deadline =
        ((m.handle i id job.message).1.updateDispatcher i fun d =>
          d.finish (countedAs (m.handle i id job.message).2), none) := by
    intro deadline
    unfold seekHandler
    split
    · next id _ =>
      dsimp only
      split
      · exact Or.inr (Or.inr ⟨id, rfl⟩)
      · exact Or.inl ⟨_, _, rfl⟩
    · split
      · exact Or.inl ⟨_, _, rfl⟩
      · exact Or.inr (Or.inl rfl)
  unfold stepJob
  split
  · exact Or.inr (hseek _)
  · split
    · exact Or.inl rfl
    · exact Or.inr (hseek _)
  · next id _ _ =>
    split
    · exact Or.inl rfl
    · exact Or.inr (Or.inr (Or.inr ⟨id, rfl⟩))

end ClusterMesh.Mesh
