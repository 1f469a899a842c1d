import ClusterMesh.Proofs.Dispatch.Frames

/-!
# The loops of the consumers

Every step keeps it so that a loop that runs is the one that its consumer knows, and that what a
consumer knows as its loop is one, or has been.
-/

namespace ClusterMesh.Mesh

variable {m m' : Mesh} {t u i j : Nat} {a a' : Activity} {notice : Option Notice}

theorem Looped.frame (h : m.Looped)
    (hloop : ∀ j, (m'.station j).consumer.loop = (m.station j).consumer.loop)
    (htask : ∀ {u : Nat} {task : Task}, m.tasks[u]? = some task → task.activity.IsLoop →
      ∃ task', m'.tasks[u]? = some task' ∧ task'.activity.IsLoop)
    (honly : ∀ {u i : Nat} {σ : Option Nat}, m'.tasks[u]? = some ⟨i, .receiving σ, false⟩ →
      m.tasks[u]? = some ⟨i, .receiving σ, false⟩) : m'.Looped where
  known := by
    intro i t ht
    rw [hloop] at ht
    obtain ⟨task, hold, hknown⟩ := h.known ht
    exact htask hold hknown
  only := by
    intro t i σ ht
    rw [hloop]
    exact h.only (honly ht)

theorem Looped.of_eq (h : m.Looped)
    (hloop : ∀ j, (m'.station j).consumer.loop = (m.station j).consumer.loop)
    (htasks : m'.tasks = m.tasks) : m'.Looped :=
  h.frame hloop (fun ht hknown => ⟨_, htasks ▸ ht, hknown⟩) fun ht => htasks ▸ ht

theorem Looped.apart (h : m.Looped) (ha : m.Apart m') : m'.Looped := by
  refine h.frame (fun j => congrArg Desk.loop (ha.desk j)) ?_ ?_
  rotate_left
  · intro u i σ ht
    have hlistens : (Activity.receiving σ).IsListening := trivial
    exact (ha.task (Or.inr hlistens)).mp ht
  intro u task ht hknown
  rcases hknown with hlistens | hended
  · exact ⟨task, (ha.task (Or.inr hlistens)).mpr ht, Or.inl hlistens⟩
  · obtain ⟨task', ht', hended'⟩ := ha.ended ht hended
    exact ⟨task', ht', Or.inr hended'⟩

theorem tasks_spawn_of_some {task : Task} (h : m.tasks[u]? = some task) (a : Activity) :
    (m.spawn i a).1.tasks[u]? = some task := by
  obtain ⟨hlt, -⟩ := List.getElem?_eq_some_iff.mp h
  rw [tasks_spawn, if_neg (Nat.ne_of_lt hlt), h]

theorem Looped.spawn (h : m.Looped) {a : Activity} (ha : ¬a.IsListening) :
    (m.spawn i a).1.Looped := by
  refine h.frame (fun _ => rfl) (fun ht hknown => ⟨_, tasks_spawn_of_some ht a, hknown⟩) ?_
  intro u j σ ht
  rw [tasks_spawn] at ht
  split at ht
  · cases Option.some.inj ht
    exact absurd trivial ha
  · exact ht

theorem Looped.updateStation (h : m.Looped) (i : Nat) {f : Station → Station}
    (hf : ∀ s, (f s).consumer.loop = s.consumer.loop) : (m.updateStation i f).Looped := by
  refine h.of_eq (fun j => ?_) rfl
  rw [station_updateStation]
  split
  · next hij => rw [hf, hij.1]
  · rfl

theorem Looped.updateDispatcher (h : m.Looped) (i : Nat) (f : Dispatcher → Dispatcher) :
    (m.updateDispatcher i f).Looped := by
  apply h.updateStation
  exact fun _ => rfl

theorem Looped.wakeWorker (h : m.Looped) (i : Nat) : (m.wakeWorker i).Looped :=
  h.of_eq (fun j => by rw [station_wakeWorker]) (tasks_wakeWorker m i)

theorem Looped.deliver (h : m.Looped) (i : Nat) (message : Message)
    (after : Dispatcher × Admission) : (m.deliver i message after).Looped := by
  have hupdate := h.updateDispatcher i fun _ => after.1
  obtain ⟨-, heq⟩ | ⟨-, heq⟩ | ⟨-, heq⟩ := m.deliver_cases i message after
  · rw [heq]
    exact hupdate
  · rw [heq]
    exact hupdate.wakeWorker i
  · rw [heq]
    exact hupdate.spawn (a := .dispatching ⟨message, .arrived⟩) not_false

theorem Looped.finish (h : m.Looped) (t : Nat) (e : TaskEnd) : (m.finish t e).Looped := by
  refine h.frame (fun _ => rfl) ?_ ?_
  · intro u task ht hknown
    by_cases hut : u = t
    · subst hut
      refine ⟨{ task with activity := .ended e }, ?_, Or.inr trivial⟩
      rw [tasks_finish, tasks_setActivity, if_pos rfl, ht]
      rfl
    · exact ⟨task, (tasks_setActivity ..).trans ((if_neg hut).trans ht), hknown⟩
  · intro u j σ ht
    exact (task_of_finish ht id).2

theorem tasks_beginLoop (m : Mesh) (i : Nat) (σ : Option Nat) (u : Nat) :
    (m.beginLoop i σ).tasks[u]? =
      if u = m.tasks.length then some ⟨i, .receiving σ, false⟩ else m.tasks[u]? :=
  tasks_spawn m u i (.receiving σ)

theorem Looped.beginLoop (h : m.Looped) (hi : i < m.stations.length) (σ : Option Nat)
    (hnone : ∀ {t : Nat} {σ : Option Nat}, m.tasks[t]? ≠ some ⟨i, .receiving σ, false⟩) :
    (m.beginLoop i σ).Looped := by
  have hloop : ∀ j, ((m.beginLoop i σ).station j).consumer.loop =
      if j = i then some m.tasks.length else (m.station j).consumer.loop := by
    intro j
    rw [Mesh.beginLoop, station_updateStation]
    by_cases hj : j = i
    · rw [if_pos ⟨hj, hi⟩, if_pos hj]
      rfl
    · rw [if_neg fun hji => hj hji.1, if_neg hj]
      rfl
  have htasks := tasks_beginLoop m i σ
  refine ⟨?_, ?_⟩
  · intro j t ht
    rw [hloop] at ht
    split at ht
    · obtain rfl := Option.some.inj ht
      exact ⟨_, (htasks _).trans (if_pos rfl), Or.inl trivial⟩
    · obtain ⟨task, hold, hknown⟩ := h.known ht
      obtain ⟨hlt, -⟩ := List.getElem?_eq_some_iff.mp hold
      exact ⟨task, (htasks t).trans ((if_neg (Nat.ne_of_lt hlt)).trans hold), hknown⟩
  · intro t j σ' ht
    rw [htasks] at ht
    rw [hloop]
    split at ht
    · next heq =>
      cases Option.some.inj ht
      rw [if_pos rfl, heq]
    · by_cases hj : j = i
      · subst hj
        exact absurd ht hnone
      · rw [if_neg hj]
        exact h.only ht

theorem Looped.startConsumer (h : m.Looped) (hi : i < m.stations.length) (gone : Bool) :
    (m.startConsumer i gone).Looped := by
  unfold Mesh.startConsumer
  split
  · exact h
  · next hconsuming =>
    have hnone : ∀ {t : Nat} {σ : Option Nat}, m.tasks[t]? ≠ some ⟨i, .receiving σ, false⟩ := by
      intro t σ ht
      refine hconsuming ?_
      simp [isConsuming, h.only ht, hasEnded, taskEnd?, ht, Task.end?]
    split
    · exact h.beginLoop hi none hnone
    · have hbus : ({ m with bus := m.bus.subscribe.1 } : Mesh).Looped := h.of_eq (fun _ => rfl) rfl
      exact hbus.beginLoop hi _ hnone

theorem tasks_abort_receiving {σ : Option Nat}
    (h : (m.abort t).tasks[u]? = some ⟨j, .receiving σ, false⟩) :
    u ≠ t ∧ m.tasks[u]? = some ⟨j, .receiving σ, false⟩ := by
  have hne : u ≠ t := by
    intro hut
    subst hut
    cases hended : m.hasEnded u with
    | true =>
      rw [abort_of_ended m u hended] at h
      simp [hasEnded, taskEnd?, h, Task.end?] at hended
    | false =>
      rw [tasks_abort m u u hended, if_pos rfl] at h
      obtain ⟨task, -, heq⟩ := Option.map_eq_some_iff.mp h
      cases congrArg Task.aborted heq
  rw [tasks_abort_of_ne m t u hne] at h
  exact ⟨hne, h⟩

theorem Looped.stopConsumer (h : m.Looped) (i : Nat) : (m.stopConsumer i).Looped := by
  unfold Mesh.stopConsumer
  split
  · next t hloop =>
    have hloops : ∀ j, ((m.updateStation i
        fun s => { s with consumer := { s.consumer with loop := none } }).station j).consumer.loop =
          if j = i ∧ i < m.stations.length then none else (m.station j).consumer.loop := by
      intro j
      rw [station_updateStation]
      split <;> rfl
    have hafter : ∀ (m : Mesh) j, (m.abort t).station j = m.station j := by
      intro m j
      simp only [station, stations_abort]
    refine ⟨?_, ?_⟩
    · intro j u hu
      rw [hafter, hloops] at hu
      split at hu
      · cases hu
      · obtain ⟨task, hold, hknown⟩ := h.known hu
        by_cases hut : u = t
        · subst hut
          obtain ⟨aborted, htask⟩ := tasks_abort_self (m := m.updateStation i
            fun s => { s with consumer := { s.consumer with loop := none } }) hold
          exact ⟨_, htask, hknown⟩
        · exact ⟨task, (tasks_abort_of_ne _ _ _ hut).trans hold, hknown⟩
    · intro u j σ hu
      obtain ⟨hut, hold⟩ := tasks_abort_receiving hu
      have hknown := h.only (show m.tasks[u]? = some ⟨j, .receiving σ, false⟩ from hold)
      rw [hafter, hloops, if_neg ?_]
      · exact hknown
      · intro hji
        rw [hji.1, hloop] at hknown
        exact hut (Option.some.inj hknown).symm
  · exact h

theorem Work.not_listening (h : m.Work t i a notice a' m') : ¬a'.IsListening := by
  have hgo : ∀ (a : Activity) job, ¬(a.goOn job).IsListening := by
    intro a job
    unfold Activity.goOn
    split <;> exact not_false
  have hlay : ∀ a : Activity, ¬a.layDown.IsListening := by
    intro a
    unfold Activity.layDown
    split <;> exact not_false
  cases h with
  | take _ _ _ | idle _ _ | quit _ _ _ => exact not_false
  | window _ _ | invoke _ _ _ _ | search _ _ _ _ => exact hgo _ _
  | giveUp _ _ _ _ | finish _ _ _ => exact hlay _
  | rest hand _ =>
    have hknown := Activity.isOnDuty_of_job hand.job
    cases a with
    | receiving σ => exact absurd hknown not_false
    | _ => exact not_false

theorem Work.isOnDuty (h : m.Work t i a notice a' m') : a.IsOnDuty := by
  cases h with
  | take _ _ _ | idle _ _ | quit _ _ _ => trivial
  | window hand _ | invoke hand _ _ _ | search hand _ _ _ | giveUp hand _ _ _ | finish hand _ _
  | rest hand _ => exact Activity.isOnDuty_of_job hand.job

theorem Looped.work (h : m.Looped) (hw : m.Work t i a notice a' m') : m'.Looped := by
  have hlabour := hw.labour
  refine h.frame ?_ ?_ ?_
  · intro j
    rw [hlabour.station]
    split
    · next hij => rw [hij.1]
    · rfl
  · intro u task hu hknown
    refine ⟨task, (hlabour.task u).trans ((if_neg ?_).trans hu), hknown⟩
    intro hut
    rw [hut, hw.task_eq] at hu
    cases Option.some.inj hu
    exact hknown.not_isOnDuty hw.isOnDuty
  · intro u j σ hu
    rw [hlabour.task] at hu
    split at hu
    · cases Option.some.inj hu
      exact absurd trivial hw.not_listening
    · exact hu

/-! ### New stations -/

theorem stations_addStation (m : Mesh) (s : Station) :
    (m.addStation s).1.stations.length = m.stations.length + 1 := by
  simp only [addStation]
  split
  · simp
  · rw [length_updateStation]
    simp [spawn]

theorem station_addStation (m : Mesh) (s : Station) (j : Nat) :
    (m.addStation s).1.station j =
      if j = m.stations.length then
        match s.dispatcher.pool with
        | .cached => s
        | .single => { s with worker := some m.tasks.length }
      else m.station j := by
  simp only [addStation]
  cases hpool : s.dispatcher.pool with
  | cached => exact station_append m s j
  | single =>
    have hspawn : ∀ j, (({ m with stations := m.stations ++ [s] } : Mesh).spawn m.stations.length
        (.working none)).1.station j = if j = m.stations.length then s else m.station j :=
      station_append m s
    dsimp only
    rw [station_updateStation, hspawn, hspawn]
    by_cases hj : j = m.stations.length
    · rw [if_pos ⟨hj, by simp [spawn]⟩, if_pos rfl, if_pos hj]
      rfl
    · rw [if_neg fun hji => hj hji.1, if_neg hj, if_neg hj]

theorem tasks_addStation (m : Mesh) (s : Station) (u : Nat) :
    (m.addStation s).1.tasks[u]? =
      if s.dispatcher.pool = .single ∧ u = m.tasks.length then
        some ⟨m.stations.length, .working none, false⟩
      else m.tasks[u]? := by
  simp only [addStation]
  cases hpool : s.dispatcher.pool with
  | cached => rfl
  | single =>
    refine (tasks_spawn { m with stations := m.stations ++ [s] } u _ _).trans ?_
    by_cases hu : u = m.tasks.length
    · rw [if_pos hu, if_pos ⟨rfl, hu⟩]
    · rw [if_neg hu, if_neg fun h => hu h.2]

theorem Looped.addStation (h : m.Looped) {s : Station} (hs : s.IsFresh) :
    (m.addStation s).1.Looped := by
  have hloop : ∀ j, ((m.addStation s).1.station j).consumer.loop =
      if j = m.stations.length then none else (m.station j).consumer.loop := by
    intro j
    rw [station_addStation]
    split
    · split <;> exact hs.loop
    · rfl
  refine ⟨?_, ?_⟩
  · intro j t ht
    rw [hloop] at ht
    split at ht
    · cases ht
    · obtain ⟨task, hold, hknown⟩ := h.known ht
      obtain ⟨hlt, -⟩ := List.getElem?_eq_some_iff.mp hold
      refine ⟨task, ?_, hknown⟩
      rw [tasks_addStation, if_neg fun hu => Nat.ne_of_lt hlt hu.2, hold]
  · intro t j σ ht
    rw [tasks_addStation] at ht
    split at ht
    · cases ht
    · have hknown := h.only ht
      have hj : j ≠ m.stations.length := by
        intro hj
        rw [hj, station, List.getD_eq_getElem?_getD,
          List.getElem?_eq_none (Nat.le_refl m.stations.length)] at hknown
        cases hknown
      rw [hloop, if_neg hj]
      exact hknown

/-- Every step keeps the loops in order. -/
theorem Looped.step {e : Option (Nat × Notice)} (h : m.Looped) (hd : m.Duty e m') : m'.Looped := by
  cases hd with
  | apart ha => exact h.apart ha
  | pass instant later => exact h.of_eq (fun _ => rfl) rfl
  | found fresh => exact h.addStation fresh
  | start gone placed => exact h.startConsumer placed gone
  | stop i => exact h.stopConsumer i
  | @leave t i σ aborted e task quits =>
    have hbus : (m.leaveBus t σ).Looped := by
      cases σ with
      | none => exact h
      | some s => exact h.of_eq (fun _ => rfl) rfl
    exact hbus.finish t e
  | @send i message placed =>
    obtain ⟨htasks, hstations⟩ := produce_keeps m i message
    exact h.of_eq (fun j => by rw [station, hstations]; rfl) htasks
  | @receive t i s bus message task placed next =>
    have hbus : ({ m with bus := bus } : Mesh).Looped := h.of_eq (fun _ => rfl) rfl
    obtain ⟨-, -, heq⟩ | ⟨-, -, heq⟩ := consume_cases m bus i message (m.bus.place s)
    · rw [heq]
      exact hbus.deliver i message _
    · rwa [heq]
  | lag task next => exact h.of_eq (fun _ => rfl) rfl
  | call message placed => exact h.deliver _ message _
  | enter message placed opened => exact h.updateDispatcher _ _
  | @read t i s bus message task placed next takes opened =>
    have hbus : ({ m with bus := bus } : Mesh).Looped := h.of_eq (fun _ => rfl) rfl
    exact hbus.updateDispatcher i _
  | @resume i k c placed underWay => exact h.deliver i c.message _
  | close placed => exact h.updateDispatcher _ _
  | sever placed closed => exact (h.updateDispatcher _ _).wakeWorker _
  | @fail t i job aborted single worker task => exact (h.updateDispatcher i _).finish t _
  | work hw => exact h.work hw

end ClusterMesh.Mesh

namespace ClusterMesh.Service

theorem looped (h : Service) (n : Nat) : (h.state n).Looped := by
  induction n with
  | zero =>
    obtain ⟨capacity, hstart⟩ := h.start
    rw [hstart]
    refine ⟨?_, ?_⟩
    · intro i t ht
      cases ht
    · intro t i σ ht
      cases ht
  | succ n ih => exact ih.step (h.step n)

end ClusterMesh.Service
