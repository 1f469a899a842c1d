import ClusterMesh.Mesh.Setup
import Mathlib.Data.List.Basic
import Mathlib.Tactic.Tauto

/-!
# What can be seen of a mesh

The stores of the stations, the tasks, the tasks that can run and the alarms. Each operation on a
mesh is described by what it does to these.
-/

namespace ClusterMesh.Mesh

abbrev store (m : Mesh) (i : Nat) : PendingStore := (m.station i).store

def IsReady (m : Mesh) (t : Nat) : Prop := t ∈ m.agenda.ready.keys

def HasAlarm (m : Mesh) (due t : Nat) : Prop := (due, t) ∈ m.agenda.alarms

instance (m : Mesh) (t : Nat) : Decidable (m.IsReady t) :=
  inferInstanceAs (Decidable (t ∈ m.agenda.ready.keys))

instance (m : Mesh) (due t : Nat) : Decidable (m.HasAlarm due t) :=
  inferInstanceAs (Decidable ((due, t) ∈ m.agenda.alarms))

def taken (m : Mesh) (t : Nat) : Mesh :=
  { m with agenda := { m.agenda with ready := m.agenda.ready.erase t } }

variable (m : Mesh) (t u i j k due : Nat)

/-! ### Stations -/

theorem station_updateStation (f : Station → Station) :
    (m.updateStation i f).station j =
      if j = i ∧ i < m.stations.length then f (m.station i) else m.station j := by
  simp only [station, updateStation, List.getD_eq_getElem?_getD, List.getElem?_modify]
  by_cases hij : i = j
  · subst hij
    by_cases hi : i < m.stations.length
    · simp [hi]
    · simp [hi]
  · have hji : ¬j = i := fun h => hij h.symm
    simp [hij, hji]

theorem station_append (m : Mesh) (s : Station) (j : Nat) :
    ({ m with stations := m.stations ++ [s] } : Mesh).station j =
      if j = m.stations.length then s else m.station j := by
  simp only [station, List.getD_eq_getElem?_getD]
  rcases Nat.lt_trichotomy j m.stations.length with hlt | heq | hgt
  · rw [List.getElem?_append_left hlt, if_neg (Nat.ne_of_lt hlt)]
  · simp [heq]
  · rw [if_neg (Nat.ne_of_gt hgt), List.getElem?_eq_none (Nat.le_of_lt hgt),
      List.getElem?_eq_none (by simp; omega)]

theorem store_updateStore {m : Mesh} {i : Nat} (hi : i < m.stations.length)
    (f : PendingStore → PendingStore) (j : Nat) :
    (m.updateStore i f).store j = if j = i then f (m.store i) else m.store j := by
  simp only [store, updateStore, station_updateStation]
  by_cases hji : j = i
  · simp [hji, hi]
  · simp [hji]

theorem station_updateDispatcher (f : Dispatcher → Dispatcher) :
    (m.updateDispatcher i f).station j =
      if j = i ∧ i < m.stations.length then
        { m.station i with dispatcher := f (m.station i).dispatcher }
      else m.station j :=
  station_updateStation m i j _

theorem station_updateDispatcher_self {m : Mesh} {i : Nat} (hi : i < m.stations.length)
    (f : Dispatcher → Dispatcher) : (m.updateDispatcher i f).station i =
      { m.station i with dispatcher := f (m.station i).dispatcher } := by
  rw [station_updateDispatcher, if_pos ⟨rfl, hi⟩]

theorem length_updateStation (f : Station → Station) :
    (m.updateStation i f).stations.length = m.stations.length := by
  simp [updateStation]

theorem length_updateDispatcher (f : Dispatcher → Dispatcher) :
    (m.updateDispatcher i f).stations.length = m.stations.length := length_updateStation ..

@[simp] theorem tasks_updateStore (f : PendingStore → PendingStore) :
    (m.updateStore i f).tasks = m.tasks := rfl
@[simp] theorem agenda_updateStore (f : PendingStore → PendingStore) :
    (m.updateStore i f).agenda = m.agenda := rfl
@[simp] theorem length_updateStore (f : PendingStore → PendingStore) :
    (m.updateStore i f).stations.length = m.stations.length := length_updateStation ..

/-! ### Tasks -/

theorem tasks_setActivity (a : Activity) :
    (m.setActivity t a).tasks[u]? =
      if u = t then m.tasks[t]?.map (fun task => { task with activity := a })
      else m.tasks[u]? := by
  simp only [setActivity, List.getElem?_modify]
  by_cases h : t = u
  · simp [h]
  · have hut : ¬u = t := fun hu => h hu.symm
    simp [h, hut]

@[simp] theorem agenda_setActivity (a : Activity) : (m.setActivity t a).agenda = m.agenda := rfl

theorem tasks_spawn (a : Activity) :
    (m.spawn i a).1.tasks[u]? =
      if u = m.tasks.length then some ⟨i, a, false⟩ else m.tasks[u]? := by
  simp only [spawn]
  by_cases hu : u = m.tasks.length
  · simp [hu]
  · rw [if_neg hu]
    by_cases hlt : u < m.tasks.length
    · rw [List.getElem?_append_left hlt]
    · rw [List.getElem?_eq_none (by simp; omega), List.getElem?_eq_none (by omega)]

theorem isReady_spawn (a : Activity) :
    (m.spawn i a).1.IsReady u ↔ m.IsReady u ∨ u = m.tasks.length :=
  KeyedList.mem_keys_insert

@[simp] theorem tasks_finish (e : TaskEnd) :
    (m.finish t e).tasks = (m.setActivity t (.ended e)).tasks := rfl
@[simp] theorem store_finish (e : TaskEnd) : (m.finish t e).store j = m.store j := rfl

theorem hasAlarm_finish (e : TaskEnd) :
    (m.finish t e).HasAlarm due u ↔ m.HasAlarm due u ∧ u ≠ t := by
  simp [finish, HasAlarm, Agenda.dropAlarms, setActivity]

/-! ### The agenda -/

theorem isReady_wake : (m.wake t).IsReady u ↔ m.IsReady u ∨ u = t := KeyedList.mem_keys_insert

@[simp] theorem tasks_setAlarm : (m.setAlarm due t).tasks = m.tasks := rfl

theorem hasAlarm_setAlarm (d : Nat) :
    (m.setAlarm due t).HasAlarm d u ↔ m.HasAlarm d u ∨ (d = due ∧ u = t) := by
  simp [setAlarm, HasAlarm, Agenda.setAlarm]

@[simp] theorem tasks_taken : (m.taken t).tasks = m.tasks := rfl

theorem isReady_taken : (m.taken t).IsReady u ↔ m.IsReady u ∧ u ≠ t := KeyedList.mem_keys_erase

/-! ### The clock -/

theorem now_ring : (machine.ring m due).now = max m.now due := rfl

theorem isReady_ring :
    (machine.ring m due).IsReady u ↔ m.IsReady u ∨ ∃ d, m.HasAlarm d u ∧ d ≤ due := by
  have hready : (machine.ring m due).agenda.ready = m.agenda.ready.insertMany
      ((m.agenda.alarms.filter (fun alarm => decide (alarm.1 ≤ due))).map Prod.snd) := rfl
  simp [IsReady, HasAlarm, hready, KeyedList.mem_keys_insertMany]

theorem hasAlarm_ring (d : Nat) :
    (machine.ring m due).HasAlarm d u ↔ m.HasAlarm d u ∧ due < d := by
  have halarms : (machine.ring m due).agenda.alarms =
      m.agenda.alarms.filter (fun alarm => decide (due < alarm.1)) := rfl
  simp [HasAlarm, halarms]

/-! ### Tasks that are woken -/

theorem wakeWorker_cases : m.wakeWorker i = m ∨ ∃ t, m.wakeWorker i = m.wake t := by
  unfold wakeWorker
  split
  · split
    · exact Or.inr ⟨_, rfl⟩
    · exact Or.inl rfl
  · exact Or.inl rfl

theorem isReady_wakeWorker {m : Mesh} {u : Nat} (h : m.IsReady u) (i : Nat) :
    (m.wakeWorker i).IsReady u := by
  obtain heq | ⟨t, heq⟩ := wakeWorker_cases m i
  · rwa [heq]
  · rw [heq]
    exact (isReady_wake m t u).mpr (Or.inl h)

@[simp] theorem stations_wakeWorker : (m.wakeWorker i).stations = m.stations := by
  obtain heq | ⟨t, heq⟩ := wakeWorker_cases m i
  · rw [heq]
  · rw [heq]
    rfl

@[simp] theorem tasks_wakeWorker : (m.wakeWorker i).tasks = m.tasks := by
  obtain heq | ⟨t, heq⟩ := wakeWorker_cases m i
  · rw [heq]
  · rw [heq]
    rfl

@[simp] theorem bus_wakeWorker : (m.wakeWorker i).bus = m.bus := by
  obtain heq | ⟨t, heq⟩ := wakeWorker_cases m i
  · rw [heq]
  · rw [heq]
    rfl

@[simp] theorem now_wakeWorker : (m.wakeWorker i).now = m.now := by
  obtain heq | ⟨t, heq⟩ := wakeWorker_cases m i
  · rw [heq]
  · rw [heq]
    rfl

@[simp] theorem alarms_wakeWorker : (m.wakeWorker i).agenda.alarms = m.agenda.alarms := by
  obtain heq | ⟨t, heq⟩ := wakeWorker_cases m i
  · rw [heq]
  · rw [heq]
    rfl

theorem station_wakeWorker : (m.wakeWorker i).station j = m.station j := by
  simp only [station, stations_wakeWorker]

theorem wakeCaller_cases : m.wakeCaller i k = m ∨ ∃ t, m.wakeCaller i k = m.wake t := by
  unfold wakeCaller
  split
  · exact Or.inr ⟨_, rfl⟩
  · exact Or.inl rfl

@[simp] theorem tasks_wakeCaller : (m.wakeCaller i k).tasks = m.tasks := by
  unfold wakeCaller
  split <;> rfl

@[simp] theorem stations_wakeCaller : (m.wakeCaller i k).stations = m.stations := by
  unfold wakeCaller
  split <;> rfl

@[simp] theorem alarms_wakeCaller : (m.wakeCaller i k).agenda.alarms = m.agenda.alarms := by
  unfold wakeCaller
  split <;> rfl

@[simp] theorem now_wakeCaller : (m.wakeCaller i k).agenda.now = m.agenda.now := by
  unfold wakeCaller
  split <;> rfl

@[simp] theorem bus_wakeCaller : (m.wakeCaller i k).bus = m.bus := by
  unfold wakeCaller
  split <;> rfl

@[simp] theorem store_wakeCaller : (m.wakeCaller i k).store j = m.store j := by
  unfold wakeCaller
  split <;> rfl

theorem isReady_wakeCaller :
    (m.wakeCaller i k).IsReady u ↔
      m.IsReady u ∨ m.tasks.findIdx? (isCallerOf i k) = some u := by
  unfold wakeCaller
  cases h : m.tasks.findIdx? (isCallerOf i k) with
  | none => simp
  | some t => simp [isReady_wake, eq_comm]

section

variable {m : Mesh} {i : Nat}

theorem store_timeOut (hi : i < m.stations.length) (k j : Nat) :
    (m.timeOut i k).1.store j = if j = i then ((m.store i).onTimeout k).1 else m.store j := by
  simp only [timeOut]
  split
  · rw [store_wakeCaller, store_updateStore hi]
  · rw [store_updateStore hi]

theorem store_expire (hi : i < m.stations.length) (k j : Nat) :
    (m.expire i k).1.store j = if j = i then ((m.store i).expire k).1 else m.store j := by
  simp only [expire]
  split
  · rw [store_wakeCaller, store_updateStore hi]
  · rw [store_updateStore hi]

theorem store_correlate (hi : i < m.stations.length) (result : CommandResult) (j : Nat) :
    (m.correlate i result).1.store j =
      if j = i then ((m.store i).correlate result).1 else m.store j := by
  simp only [correlate]
  split
  · rw [store_wakeCaller, store_updateStore hi]
  · rw [store_updateStore hi]

end

@[simp] theorem tasks_timeOut : (m.timeOut i k).1.tasks = m.tasks := by
  simp only [timeOut]
  split <;> simp

@[simp] theorem tasks_expire : (m.expire i k).1.tasks = m.tasks := by
  simp only [expire]
  split <;> simp

@[simp] theorem tasks_correlate (result : CommandResult) :
    (m.correlate i result).1.tasks = m.tasks := by
  simp only [correlate]
  split <;> simp

@[simp] theorem alarms_expire : (m.expire i k).1.agenda.alarms = m.agenda.alarms := by
  simp only [expire]
  split <;> simp

@[simp] theorem length_timeOut : (m.timeOut i k).1.stations.length = m.stations.length := by
  simp only [timeOut]
  split <;> simp

@[simp] theorem length_correlate (result : CommandResult) :
    (m.correlate i result).1.stations.length = m.stations.length := by
  simp only [correlate]
  split <;> simp

section

variable {m : Mesh} {u i k : Nat}

theorem isReady_timeOut (h : ((m.store i).onTimeout k).2 = true) :
    (m.timeOut i k).1.IsReady u ↔
      m.IsReady u ∨ m.tasks.findIdx? (isCallerOf i k) = some u := by
  simp only [timeOut, h, if_true]
  exact isReady_wakeCaller _ _ _ _

theorem isReady_expire (h : ((m.store i).expire k).2 = true) :
    (m.expire i k).1.IsReady u ↔
      m.IsReady u ∨ m.tasks.findIdx? (isCallerOf i k) = some u := by
  simp only [expire, h, if_true]
  exact isReady_wakeCaller _ _ _ _

theorem isReady_correlate {result : CommandResult}
    (h : ((m.store i).correlate result).2 = some k) :
    (m.correlate i result).1.IsReady u ↔
      m.IsReady u ∨ m.tasks.findIdx? (isCallerOf i k) = some u := by
  simp only [correlate, h]
  exact isReady_wakeCaller _ _ _ _

end

/-! ### Tasks that are aborted -/

theorem abort_of_ended (h : m.hasEnded t = true) : m.abort t = m := by
  simp [abort, h]

theorem tasks_abort (h : m.hasEnded t = false) :
    (m.abort t).tasks[u]? =
      if u = t then m.tasks[t]?.map (fun task => { task with aborted := true })
      else m.tasks[u]? := by
  simp only [abort, h, Bool.false_eq_true, if_false, List.getElem?_modify]
  by_cases hut : t = u
  · simp [hut]
  · have hne : ¬u = t := fun hu => hut hu.symm
    simp [hut, hne]

theorem tasks_abort_of_ne (h : u ≠ t) : (m.abort t).tasks[u]? = m.tasks[u]? := by
  cases he : m.hasEnded t with
  | true => rw [abort_of_ended m t he]
  | false => rw [tasks_abort m t u he, if_neg h]

@[simp] theorem stations_abort : (m.abort t).stations = m.stations := by
  unfold abort
  split <;> rfl

@[simp] theorem store_abort : (m.abort t).store j = m.store j := by
  unfold abort
  split <;> rfl

@[simp] theorem alarms_abort : (m.abort t).agenda.alarms = m.agenda.alarms := by
  unfold abort
  split <;> rfl

@[simp] theorem now_abort : (m.abort t).agenda.now = m.agenda.now := by
  unfold abort
  split <;> rfl

theorem isReady_abort : m.IsReady u ∨ (u = t ∧ m.hasEnded t = false) ↔ (m.abort t).IsReady u := by
  cases he : m.hasEnded t with
  | true => simp [abort_of_ended m t he]
  | false =>
    simp only [abort, he, Bool.false_eq_true, if_false, IsReady, Agenda.wake, and_true]
    exact KeyedList.mem_keys_insert.symm

section

variable {m : Mesh} {t : Nat}

theorem tasks_abort_self {task : Task} (h : m.tasks[t]? = some task) :
    ∃ aborted, (m.abort t).tasks[t]? = some { task with aborted } := by
  cases he : m.hasEnded t with
  | true => exact ⟨task.aborted, by rw [abort_of_ended m t he, h]⟩
  | false => exact ⟨true, by rw [tasks_abort m t t he, if_pos rfl, h]; rfl⟩

end

end ClusterMesh.Mesh
