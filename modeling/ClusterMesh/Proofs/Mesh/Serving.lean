import ClusterMesh.Proofs.Mesh.Outcomes
import ClusterMesh.Proofs.Mesh.Step

/-!
# The work on messages

What a mesh does to deliver messages and to let handlers deal with them leaves the calls and their
reapers alone, except that correlators take results in.
-/

namespace ClusterMesh.Mesh

/-- What there was stays, and the tasks that begin anew are neither calls nor reapers. -/
structure Serves (m m' : Mesh) : Prop where
  now : m'.now = m.now
  stations : m'.stations.length = m.stations.length
  store : ∀ i, m'.store i = m.store i
  tasks : ∃ begun, m'.tasks = m.tasks ++ begun ∧
    ∀ task ∈ begun, ¬task.activity.IsEngaged ∧ task.station < m.stations.length
  ready : ∀ {t}, m.IsReady t → m'.IsReady t
  alarm : ∀ {due t}, m.HasAlarm due t → m'.HasAlarm due t

variable {m m' m'' : Mesh} {t i : Nat}

theorem Serves.refl (m : Mesh) : m.Serves m where
  now := rfl
  stations := rfl
  store := fun _ => rfl
  tasks := ⟨[], (List.append_nil _).symm, fun _ => List.not_mem_nil.elim⟩
  ready := id
  alarm := id

theorem Serves.trans (h : m.Serves m') (h' : m'.Serves m'') : m.Serves m'' where
  now := h'.now.trans h.now
  stations := h'.stations.trans h.stations
  store := fun i => (h'.store i).trans (h.store i)
  tasks := by
    obtain ⟨begun, htasks, hbegun⟩ := h.tasks
    obtain ⟨begun', htasks', hbegun'⟩ := h'.tasks
    refine ⟨begun ++ begun', ?_, ?_⟩
    · rw [htasks', htasks, List.append_assoc]
    · intro task htask
      rw [h.stations] at hbegun'
      rcases List.mem_append.mp htask with hold | hnew
      · exact hbegun task hold
      · exact hbegun' task hnew
  ready := fun hready => h'.ready (h.ready hready)
  alarm := fun halarm => h'.alarm (h.alarm halarm)

theorem Serves.task (h : m.Serves m') {task : Task} (htask : m.tasks[t]? = some task) :
    m'.tasks[t]? = some task := by
  obtain ⟨begun, htasks, -⟩ := h.tasks
  obtain ⟨hlt, -⟩ := List.getElem?_eq_some_iff.mp htask
  rw [htasks, List.getElem?_append_left hlt, htask]

theorem Serves.aside (h : m.Serves m') : m.Aside m' where
  now := h.now
  stations := Nat.le_of_eq h.stations.symm
  store := h.store
  keeps := fun htask _ => h.task htask
  brings := by
    intro t task htask hengaged
    obtain ⟨begun, htasks, hbegun⟩ := h.tasks
    rw [htasks] at htask
    rcases Nat.lt_or_ge t m.tasks.length with hlt | hge
    · rwa [List.getElem?_append_left hlt] at htask
    · rw [List.getElem?_append_right hge] at htask
      exact absurd hengaged (hbegun task (List.mem_of_getElem? htask)).1
  ready := fun _ _ hready => h.ready hready
  alarm := fun _ _ halarm => h.alarm halarm

/-! ### Stations and the bus -/

theorem serves_updateStation {f : Station → Station}
    (hf : (f (m.station i)).store = m.store i) : m.Serves (m.updateStation i f) where
  now := rfl
  stations := List.length_modify ..
  store := by
    intro j
    unfold store
    rw [station_updateStation]
    split
    · next h => rw [hf, h.1]
    · rfl
  tasks := (Serves.refl m).tasks
  ready := id
  alarm := id

theorem serves_updateDispatcher (m : Mesh) (i : Nat) (f : Dispatcher → Dispatcher) :
    m.Serves (m.updateDispatcher i f) :=
  serves_updateStation (f := fun s => { s with dispatcher := f s.dispatcher }) rfl

theorem serves_wake (m : Mesh) (t : Nat) : m.Serves (m.wake t) where
  now := rfl
  stations := rfl
  store := fun _ => rfl
  tasks := (Serves.refl m).tasks
  ready := fun hready => (isReady_wake m t _).mpr (Or.inl hready)
  alarm := id

theorem serves_setAlarm (m : Mesh) (due t : Nat) : m.Serves (m.setAlarm due t) where
  now := rfl
  stations := rfl
  store := fun _ => rfl
  tasks := (Serves.refl m).tasks
  ready := id
  alarm := fun halarm => (hasAlarm_setAlarm m t _ due _).mpr (Or.inl halarm)

theorem serves_spawn (hi : i < m.stations.length) {a : Activity} (ha : ¬a.IsEngaged) :
    m.Serves (m.spawn i a).1 where
  now := rfl
  stations := rfl
  store := fun _ => rfl
  tasks := by
    refine ⟨[⟨i, a, false⟩], rfl, ?_⟩
    intro task htask
    rw [List.mem_singleton.mp htask]
    exact ⟨ha, hi⟩
  ready := fun hready => (isReady_spawn m _ i a).mpr (Or.inl hready)
  alarm := id

theorem serves_bus (m : Mesh) (bus : Bus Message) : m.Serves { m with bus := bus } where
  now := rfl
  stations := rfl
  store := fun _ => rfl
  tasks := (Serves.refl m).tasks
  ready := id
  alarm := id

theorem serves_publish (m : Mesh) (message : Message) : m.Serves (m.publish message) where
  now := rfl
  stations := rfl
  store := fun _ => rfl
  tasks := (Serves.refl m).tasks
  ready := fun hready => KeyedList.mem_keys_insertMany.mpr (Or.inl hready)
  alarm := id

theorem serves_produce (m : Mesh) (i : Nat) (message : Message) :
    m.Serves (m.produce i message).1 := by
  obtain heq | heq := produce_cases m i message
  · rw [heq]
    exact .refl m
  · rw [heq]
    exact serves_publish m _

theorem serves_wakeWorker (m : Mesh) (i : Nat) : m.Serves (m.wakeWorker i) := by
  obtain heq | ⟨t, heq⟩ := wakeWorker_cases m i
  · rw [heq]
    exact .refl m
  · rw [heq]
    exact serves_wake m t

theorem serves_deliver (hi : i < m.stations.length) (message : Message)
    (after : Dispatcher × Admission) : m.Serves (m.deliver i message after) := by
  have hupdate := serves_updateDispatcher m i fun _ => after.1
  obtain ⟨-, heq⟩ | ⟨-, heq⟩ | ⟨-, heq⟩ := deliver_cases m i message after
  · rw [heq]
    exact hupdate
  · rw [heq]
    exact hupdate.trans (serves_wakeWorker _ i)
  · rw [heq]
    refine hupdate.trans (serves_spawn ?_ id)
    rw [hupdate.stations]
    exact hi

theorem serves_dispatch (hi : i < m.stations.length) (message : Message) :
    m.Serves (m.dispatch i message) := serves_deliver hi message _

theorem serves_consume (hi : i < m.stations.length) (message : Message) :
    m.Serves (m.consume i message).1 := by
  unfold consume
  split
  · exact serves_dispatch hi message
  · exact .refl m

theorem serves_drainBus (hi : i < m.stations.length) (subscriber fuel : Nat) :
    m.Serves (m.drainBus t i subscriber fuel) := by
  induction fuel generalizing m with
  | zero => exact .refl m
  | succ fuel ih =>
    simp only [drainBus]
    split
    · exact serves_bus m _
    · next bus message _ =>
      have hbus := serves_bus m bus
      have hconsume := serves_consume (m := { m with bus := bus }) hi message
      refine (hbus.trans hconsume).trans (ih ?_)
      rw [hconsume.stations]
      exact hi
    · next bus _ _ => exact (serves_bus m bus).trans (ih hi)

/-! ### Handlers -/

theorem store_executeControl (s : Station) (target : ControlTarget) (c : Command) :
    (s.executeControl target c).1.store = s.store := by
  obtain ⟨_, _, _, _, heq⟩ := s.executeControl_frame target c
  rw [heq]

theorem serves_note (m : Mesh) (h : Handler) (message : Message) : m.Serves (m.note h message) where
  now := rfl
  stations := rfl
  store := fun _ => rfl
  tasks := (Serves.refl m).tasks
  ready := id
  alarm := id

theorem serves_or_correlates (m : Mesh) (i : Nat) (id : HandlerId) (message : Message) :
    m.Serves (m.handle i id message).1 ∨ ∃ result, message = .result result ∧
      (m.handle i id message).1 = (m.correlate i result).1 := by
  obtain heq | ⟨h, heq⟩ | ⟨h, c, resultType, -, heq⟩ | ⟨c, target, -, heq⟩ | hcorrelates :=
    handle_cases m i id message
  · refine Or.inl ?_
    rw [heq]
    exact .refl m
  · exact Or.inl (heq ▸ serves_note m h message)
  · exact Or.inl (heq ▸ (serves_note m h message).trans (serves_produce _ i _))
  · have hcontrol :
        m.Serves (m.updateStation i fun _ => ((m.station i).executeControl target c).1) :=
      serves_updateStation (store_executeControl (m.station i) target c)
    exact Or.inl (heq ▸ hcontrol.trans (serves_produce _ i _))
  · exact Or.inr hcorrelates

end ClusterMesh.Mesh
