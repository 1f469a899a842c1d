import ClusterMesh.Proofs.Dispatch.Shifts
import ClusterMesh.Proofs.Mesh.Turns

/-!
# Turns of the other tasks

A loop takes message after message off the bus. Calls and reapers do not touch the dispatchers,
except that a call sends its command; a call aborts no task but its reaper.
-/

namespace ClusterMesh

theorem Bus.receive_nothing {μ : Type} {b b' : Bus μ} {s : Nat} (h : b.receive s = (b', .nothing)) :
    b' = b := by
  unfold receive at h
  dsimp only at h
  split at h
  · cases h
  · split at h <;> cases h
    rfl

/-- The reaper of a call that has stored its command. -/
def CallStage.reaper? : CallStage → Option Nat
  | .submitted => none
  | .sending _ _ reaper | .waiting _ _ reaper => some reaper

namespace Mesh

variable {m m' m'' : Mesh} {t u i k due reaper delay : Nat} {a : Activity} {c : Command}

/-! ### Loops -/

theorem isTravel_arrival (m : Mesh) (i j : Nat) (message : Message) (place : Nat) :
    IsTravel (some (j, m.arrival i message place)) := by
  unfold arrival
  split
  · refine ⟨by simp, fun j' x he => ?_⟩
    cases he
    exact Option.some_ne_none place
  · exact ⟨by simp, by simp⟩

theorem runs_drainBus (hi : i < m.stations.length) {s : Nat}
    (htask : m.tasks[t]? = some ⟨i, .receiving (some s), false⟩) (fuel : Nat) :
    m.Runs (m.drainBus t i s fuel) := by
  induction fuel generalizing m with
  | zero => exact .refl m
  | succ fuel ih =>
    simp only [drainBus]
    split
    · next bus hnothing =>
      have hcontent : (bus.await t).content = m.bus.content := by
        rw [Bus.receive_nothing hnothing]
        rfl
      exact (apart_bus m hcontent).runs
    · next bus message hmessage =>
      have hreceive := (Duty.receive htask hi hmessage).runs (isTravel_arrival _ _ _ _ _)
      have hserves := serves_consume (m := { m with bus := bus }) hi message
      apply hreceive.trans
      refine ih ?_ (hserves.task htask)
      rw [hserves.stations]
      exact hi
    · next bus missed hlagged =>
      have hlag := (Duty.lag htask hlagged).runs isTravel_none
      exact hlag.trans (ih hi htask)

theorem runs_leave {σ : Option Nat} {aborted : Bool} (e : TaskEnd)
    (htask : m.tasks[t]? = some ⟨i, .receiving σ, aborted⟩) (hquits : aborted = true ∨ σ = none) :
    m.Runs ((m.leaveBus t σ).finish t e) := (Duty.leave e htask hquits).runs isTravel_none

theorem runs_turn_listening (hi : i < m.stations.length) {σ : Option Nat} {aborted : Bool}
    (htask : m.tasks[t]? = some ⟨i, .receiving σ, aborted⟩) : m.Runs ((m.taken t).run t) := by
  have htaken : m.Runs (m.taken t) := by
    refine (apart_taken fun h => ?_).runs
    rw [← Option.some.inj (htask.symm.trans h)]
    exact id
  have htask' : (m.taken t).tasks[t]? = some ⟨i, .receiving σ, aborted⟩ := htask
  apply htaken.trans
  cases aborted with
  | true =>
    have hleave := runs_leave .cancelled htask' (Or.inl rfl)
    rw [run_of_aborted htask' id]
    cases σ with
    | none => exact hleave
    | some s => exact hleave
  | false =>
    simp only [run, htask', Bool.false_eq_true, if_false]
    cases σ with
    | none => exact runs_leave .done htask' (Or.inr rfl)
    | some s => exact runs_drainBus (m := m.taken t) hi htask _

/-! ### Calls and reapers -/

theorem apart_returnResults (ht : m.IsUnbound t) (hr : m.IsUnbound reaper) (results : Results) :
    m.Apart (m.returnResults t i c k reaper results) := by
  have hstore := apart_updateStore m i fun s => ((s.update k Pending.take).removeEntry k).1
  have habort := hstore.trans (apart_abort (hstore.isUnbound hr))
  exact habort.trans (apart_finish (habort.isUnbound ht) _)

theorem apart_awaitResults (ht : m.IsUnbound t) (hr : m.IsUnbound reaper) :
    m.Apart (m.awaitResults t i c k due reaper) := by
  unfold awaitResults
  split
  · split
    · exact apart_returnResults ht hr _
    · split
      · exact .refl m
      · have htime := apart_timeOut m i k
        exact htime.trans (apart_returnResults (htime.isUnbound ht) (htime.isUnbound hr) _)
  · exact .refl m

theorem apart_depart (ht : m.IsUnbound t) (hlive : m.IsLive t) (hr : m.IsUnbound reaper)
    (sent : Except MeshError Bool) : m.Apart (m.depart t i c k delay reaper sent) := by
  cases sent with
  | error e =>
    have hstore := apart_updateStore m i fun s => (s.removeEntry k).1
    have habort := hstore.trans (apart_abort (hstore.isUnbound hr))
    exact habort.trans (apart_finish (habort.isUnbound ht) _)
  | ok sent =>
    have hwaiting : ¬(Activity.executing c (.waiting k (m.now + delay) reaper)).IsBound :=
      fun h => h.elim id id
    have hset := (apart_setActivity ht hlive hwaiting).trans (apart_setAlarm _ (m.now + delay) t)
    exact hset.trans (apart_awaitResults (hset.isUnbound ht) (hset.isUnbound hr))

theorem runs_send (hi : i < m.stations.length) (ht : m.IsUnbound t) (hlive : m.IsLive t)
    (hr : m.IsUnbound reaper) : m.Runs (m.send t i c k delay reaper) := by
  obtain ⟨htasks, -⟩ := produce_keeps m i (.command c)
  have hkeeps : ∀ {u}, m.IsUnbound u → (m.produce i (.command c)).1.IsUnbound u := by
    intro u hu task htask
    rw [htasks] at htask
    exact hu htask
  have hlive' : (m.produce i (.command c)).1.IsLive t := by
    intro task htask
    rw [htasks] at htask
    exact hlive htask
  have hsend := (Duty.send (.command c) hi).runs (isTravel_sent _ _ _)
  exact hsend.trans (apart_depart (hkeeps ht) hlive' (hkeeps hr) _).runs

theorem apart_register (m : Mesh) (i : Nat) (c : Command) (timeout : Nat) :
    m.Apart (m.register i c timeout).1 ∧
      (m.register i c timeout).1.IsUnbound (m.register i c timeout).2.2 := by
  have hreaping : ∀ k, ¬(Activity.reaping k timeout none).IsBound := fun _ h => h.elim id id
  have hspawned : ∀ (m : Mesh) k, (m.spawn i (.reaping k timeout none)).1.IsUnbound
      (m.spawn i (.reaping k timeout none)).2 := by
    intro m k task htask
    have hnew := (tasks_spawn m m.tasks.length i (.reaping k timeout none)).trans (if_pos rfl)
    rw [← Option.some.inj (hnew.symm.trans htask)]
    exact hreaping k
  refine ⟨?_, hspawned _ _⟩
  simp only [register]
  split
  · exact ((apart_updateStore m i _).trans (apart_timeOut _ i _)).trans
      (apart_spawn _ i (hreaping _))
  · exact (apart_updateStore m i _).trans (apart_spawn _ i (hreaping _))

theorem task_register {task : Task} (htask : m.tasks[t]? = some task) (c : Command)
    (timeout : Nat) : (m.register i c timeout).1.tasks[t]? = some task := by
  obtain ⟨hlt, -⟩ := List.getElem?_eq_some_iff.mp htask
  simp only [register, tasks_spawn]
  split <;> simp [htask, Nat.ne_of_lt hlt]

theorem apart_enter (ht : m.IsUnbound t) (htask : m.tasks[t]? = some ⟨i, a, false⟩)
    (hlive : ¬a.IsEnded) (c : Command) : m.Apart (m.enter t i c).1 ∧
      (m.enter t i c).1.IsUnbound (m.enter t i c).2.2 := by
  obtain ⟨hregister, hreaper⟩ := apart_register m i c ((m.station i).timeoutOf c)
  have hlive' : (m.register i c ((m.station i).timeoutOf c)).1.IsLive t := by
    intro task h
    rw [← Option.some.inj ((task_register htask c _).symm.trans h)]
    exact hlive
  have hset : ∀ stage, (m.register i c ((m.station i).timeoutOf c)).1.Apart
      ((m.register i c ((m.station i).timeoutOf c)).1.setActivity t (.executing c stage)) :=
    fun _ => apart_setActivity (hregister.isUnbound ht) hlive' fun h => h.elim id id
  exact ⟨hregister.trans (hset _), (hset _).isUnbound hreaper⟩

theorem runs_submit (hi : i < m.stations.length)
    (htask : m.tasks[t]? = some ⟨i, .executing c .submitted, false⟩) (c' : Command) :
    m.Runs (m.submit t i c') := by
  have ht : m.IsUnbound t := by
    intro task h
    rw [← Option.some.inj (htask.symm.trans h)]
    exact fun h => h.elim id id
  unfold submit
  simp only
  split
  · exact (apart_finish ht _).runs
  · obtain ⟨henter, hreaper⟩ := apart_enter ht htask id (c'.stamped (m.station i).node)
    have hsending := tasks_enter htask (c'.stamped (m.station i).node)
    apply henter.runs.trans
    refine runs_send ?_ (henter.isUnbound ht) ?_ hreaper
    · rw [henter.stations]
      exact hi
    · intro task h
      rw [← Option.some.inj (hsending.symm.trans h)]
      exact id

theorem apart_runReaper (ht : m.IsUnbound t) (hlive : m.IsLive t) (due : Option Nat) :
    m.Apart (m.runReaper t i k delay due) := by
  simp only [runReaper]
  split
  · have hset : m.Apart (m.setActivity t (.reaping k delay (some (due.getD (m.now + delay))))) :=
      apart_setActivity ht hlive fun h => h.elim id id
    split
    · exact hset.trans (apart_setAlarm _ _ t)
    · exact hset
  · have hexpire := apart_expire m i k
    exact hexpire.trans (apart_finish (hexpire.isUnbound ht) _)

theorem runs_runHandling (hi : i < m.stations.length) (ht : m.IsUnbound t) (hlive : m.IsLive t)
    (id : HandlerId) (message : Message) (due : Option Nat) :
    m.Runs (m.runHandling t i id message due) := by
  simp only [runHandling]
  split
  · have hset : m.Apart (m.setActivity t
        (.handling id message (some (due.getD (m.now + m.waitOf i id message))))) :=
      apart_setActivity ht hlive fun h => h.elim (fun h => h) fun h => h
    split
    · exact (hset.trans (apart_setAlarm _ _ t)).runs
    · exact hset.runs
  · have heffect := effect_handle hi id message
    refine heffect.runs.trans (apart_finish ?_ _).runs
    intro task htask
    rw [heffect.tasks] at htask
    exact ht htask

theorem apart_drop (ht : m.IsUnbound t) (ha : ¬a.IsBound) : m.Apart (m.drop t i a) := by
  unfold drop
  split
  · exact absurd (Or.inr trivial) ha
  · exact (apart_updateStore m i _).trans (apart_finish ((apart_updateStore m i _).isUnbound ht) _)
  · exact (apart_updateStore m i _).trans (apart_finish ((apart_updateStore m i _).isUnbound ht) _)
  · exact apart_finish ht _

/-- What a mesh is like whose tasks can take their turns: they work for its stations, nobody asks
those on duty to end, and a call has a reaper of its own. -/
structure Orderly (m : Mesh) : Prop where
  placed : m.Placed
  spared : ∀ {t i : Nat} {a : Activity} {aborted : Bool}, m.tasks[t]? = some ⟨i, a, aborted⟩ →
    a.IsOnDuty → aborted = false
  reapers : ∀ {t i : Nat} {c : Command} {stage : CallStage} {aborted : Bool} {reaper : Nat},
    m.tasks[t]? = some ⟨i, .executing c stage, aborted⟩ → stage.reaper? = some reaper →
      m.IsUnbound reaper

theorem runs_runCall (h : m.Orderly) (hi : i < m.stations.length) {stage : CallStage}
    (htask : m.tasks[t]? = some ⟨i, .executing c stage, false⟩) (ht : m.IsUnbound t)
    (hlive : m.IsLive t) : m.Runs (m.runCall t i c stage) := by
  cases stage with
  | submitted => exact runs_submit hi htask c
  | sending ticket timeout reaper => exact runs_send hi ht hlive (h.reapers htask rfl)
  | waiting ticket due reaper => exact (apart_awaitResults ht (h.reapers htask rfl)).runs

/-- Whatever a task does in its turn is a trail of steps. -/
theorem runs_turn (h : m.Orderly) (t : Nat) : m.Runs ((m.taken t).run t) := by
  cases htask : m.tasks[t]? with
  | none =>
    have htaken : m.Apart (m.taken t) := by
      refine apart_taken fun hsome => ?_
      rw [htask] at hsome
      cases hsome
    rw [run_of_missing (m := m.taken t) htask]
    exact htaken.runs
  | some task =>
    obtain ⟨i, a, aborted⟩ := task
    have hi : i < m.stations.length := h.placed.lt htask
    by_cases hduty : a.IsOnDuty
    · obtain rfl := h.spared htask hduty
      exact runs_turn_onDuty hi htask hduty
    by_cases hlistens : a.IsListening
    · cases a with
      | receiving σ => exact runs_turn_listening hi htask
      | _ => exact hlistens.elim
    have hfree : ¬a.IsBound := fun hbound => hbound.elim hduty hlistens
    have ht : m.IsUnbound t := by
      intro task hsome
      rwa [← Option.some.inj (htask.symm.trans hsome)]
    have htaken : m.Runs (m.taken t) := by
      refine (apart_taken fun hsome hon => ht hsome (Or.inl hon)).runs
    apply htaken.trans
    have htask' : (m.taken t).tasks[t]? = some ⟨i, a, aborted⟩ := htask
    by_cases hended : a.IsEnded
    · cases a with
      | ended e =>
        rw [run_of_ended htask']
        exact .refl _
      | _ => exact hended.elim
    have hlive : m.IsLive t := by
      intro task hsome
      rwa [← Option.some.inj (htask.symm.trans hsome)]
    cases aborted with
    | true =>
      rw [run_of_aborted htask' hended]
      exact (apart_drop (m := m.taken t) ht hfree).runs
    | false =>
      have horderly : (m.taken t).Orderly := ⟨h.placed, h.spared, h.reapers⟩
      simp only [run, htask', Bool.false_eq_true, if_false]
      cases a with
      | reaping ticket delay due => exact (apart_runReaper (m := m.taken t) ht hlive due).runs
      | executing c stage => exact runs_runCall horderly hi htask' ht hlive
      | handling id message due =>
        exact runs_runHandling (m := m.taken t) hi ht hlive id message due
      | ended e => exact absurd trivial hended
      | receiving σ => exact absurd trivial hlistens
      | dispatching job => exact absurd trivial hduty
      | working job => exact absurd trivial hduty

end Mesh

end ClusterMesh
