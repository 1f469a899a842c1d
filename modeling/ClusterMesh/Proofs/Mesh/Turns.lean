import ClusterMesh.Proofs.Mesh.Serving

/-!
# Turns of tasks

Whatever a task does in its turn is a sequence of steps.
-/

namespace ClusterMesh.Mesh

/-- The stations of the tasks, and how many stations there are. -/
def placement (m : Mesh) : List Nat × Nat := (m.tasks.map Task.station, m.stations.length)

/-- All tasks work for stations of the mesh. -/
def Placed (m : Mesh) : Prop := ∀ i ∈ m.placement.1, i < m.placement.2

inductive Path (m : Mesh) : List Happening → Mesh → Prop
  | stay : Path m [] m
  | step {es : List Happening} {e : Happening} {m' m'' : Mesh} (path : Path m es m')
      (step : m'.Step e m'') : Path m (es ++ [e]) m''

/-- There is a way from one mesh to another. -/
structure Leads (m m' : Mesh) : Prop where
  path : ∃ es, m.Path es m'
  placed : m.Placed → m'.Placed

variable {m m' m'' : Mesh} {t i : Nat}

theorem placed_of_nil (h : m.tasks = []) : m.Placed := by
  rw [Placed, placement, h]
  exact List.forall_mem_nil _

theorem Path.trans {es es' : List Happening} (h : m.Path es m') (h' : m'.Path es' m'') :
    m.Path (es ++ es') m'' := by
  induction h' with
  | stay => rwa [List.append_nil]
  | step _ hstep ih =>
    rw [← List.append_assoc]
    exact ih.step hstep

theorem Leads.refl (m : Mesh) : m.Leads m where
  path := ⟨[], .stay⟩
  placed := id

theorem Leads.trans (h : m.Leads m') (h' : m'.Leads m'') : m.Leads m'' where
  path := by
    obtain ⟨es, hpath⟩ := h.path
    obtain ⟨es', hpath'⟩ := h'.path
    exact ⟨es ++ es', hpath.trans hpath'⟩
  placed := fun hplaced => h'.placed (h.placed hplaced)

theorem Step.leads {e : Happening} (h : m.Step e m') (hplacement : m'.placement = m.placement) :
    m.Leads m' where
  path := ⟨[e], Path.stay.step h⟩
  placed := by
    unfold Placed
    rw [hplacement]
    exact id

theorem Placed.lt (h : m.Placed) {task : Task} (htask : m.tasks[t]? = some task) :
    task.station < m.stations.length :=
  h _ (List.mem_map_of_mem (List.mem_of_getElem? htask))

/-! ### Where tasks work -/

theorem map_station_modify {f : Task → Task} (hf : ∀ task, (f task).station = task.station)
    (tasks : List Task) (t : Nat) :
    (tasks.modify t f).map Task.station = tasks.map Task.station := by
  apply List.ext_getElem?
  intro u
  simp only [List.getElem?_map, List.getElem?_modify]
  split <;> simp [Function.comp_def, hf]

section

variable (m : Mesh) (t i k due reaper delay : Nat) (c : Command)

@[simp] theorem placement_setActivity (a : Activity) :
    (m.setActivity t a).placement = m.placement := by
  have hmap := map_station_modify (f := fun task => { task with activity := a })
    (fun _ => rfl) m.tasks t
  exact congrArg (fun stations => (stations, m.stations.length)) hmap

@[simp] theorem placement_finish (e : TaskEnd) : (m.finish t e).placement = m.placement :=
  placement_setActivity m t (.ended e)

@[simp] theorem placement_abort : (m.abort t).placement = m.placement := by
  have hmap := map_station_modify (f := fun task => { task with aborted := true })
    (fun _ => rfl) m.tasks t
  unfold abort
  split
  · rfl
  · exact congrArg (fun stations => (stations, m.stations.length)) hmap

@[simp] theorem placement_updateStore (f : PendingStore → PendingStore) :
    (m.updateStore i f).placement = m.placement := by
  simp [placement]

@[simp] theorem placement_setAlarm : (m.setAlarm due t).placement = m.placement := rfl

@[simp] theorem placement_wakeCaller : (m.wakeCaller i k).placement = m.placement := by
  simp [placement]

@[simp] theorem placement_timeOut : (m.timeOut i k).1.placement = m.placement := by
  simp [placement]

@[simp] theorem placement_correlate (result : CommandResult) :
    (m.correlate i result).1.placement = m.placement := by
  simp [placement]

@[simp] theorem placement_expire : (m.expire i k).1.placement = m.placement := by
  simp only [expire]
  split <;> simp

theorem placement_spawn (a : Activity) :
    (m.spawn i a).1.placement = (m.placement.1 ++ [i], m.placement.2) := by
  simp [placement, spawn]

@[simp] theorem placement_returnResults (results : Results) :
    (m.returnResults t i c k reaper results).placement = m.placement := by
  simp [returnResults, endCall]

@[simp] theorem placement_awaitResults :
    (m.awaitResults t i c k due reaper).placement = m.placement := by
  unfold awaitResults
  split
  · split
    · simp
    · split <;> simp
  · rfl

theorem placement_depart (sent : Except MeshError Bool) :
    (m.depart t i c k delay reaper sent).placement = m.placement := by
  cases sent with
  | error e => simp [depart, endCall]
  | ok sent => simp [depart, beginWaiting]

theorem placement_runReaper (due : Option Nat) :
    (m.runReaper t i k delay due).placement = m.placement := by
  simp only [runReaper]
  split
  · split <;> simp
  · simp

theorem placement_enter :
    (m.enter t i c).1.placement = (m.placement.1 ++ [i], m.placement.2) := by
  simp only [enter, register, placement_setActivity, placement_spawn]
  split <;> simp

theorem placement_drop (a : Activity) : (m.drop t i a).placement = m.placement := by
  simp only [drop, placement_finish]
  split
  · rfl
  · rw [placement_updateStore]
  · rw [placement_updateStore]
  · rfl

end

/-! ### The work on a message -/

/-- There is a way on which a task stays as it is. -/
structure Works (m m' : Mesh) (t : Nat) : Prop extends Leads m m' where
  task : ∀ {task}, m.tasks[t]? = some task → m'.tasks[t]? = some task
  stations : m'.stations.length = m.stations.length

theorem Works.refl (m : Mesh) (t : Nat) : m.Works m t := ⟨.refl m, id, rfl⟩

theorem Works.trans (h : m.Works m' t) (h' : m'.Works m'' t) : m.Works m'' t where
  toLeads := h.toLeads.trans h'.toLeads
  task := fun htask => h'.task (h.task htask)
  stations := h'.stations.trans h.stations

theorem Serves.works (h : m.Serves m') (t : Nat) : m.Works m' t where
  path := ⟨[.other], Path.stay.step (.aside h.aside)⟩
  placed := by
    intro hplaced j hj
    obtain ⟨begun, htasks, hbegun⟩ := h.tasks
    simp only [placement, htasks, List.map_append, h.stations] at hj ⊢
    rcases List.mem_append.mp hj with hold | hnew
    · exact hplaced j hold
    · obtain ⟨task, htask, rfl⟩ := List.mem_map.mp hnew
      exact (hbegun task htask).2
  task := h.task
  stations := h.stations

theorem works_correlate (hi : i < m.stations.length) (result : CommandResult) (t : Nat) :
    m.Works (m.correlate i result).1 t where
  toLeads := (Step.correlate result hi).leads (placement_correlate m i result)
  task := by
    intro task htask
    rwa [tasks_correlate]
  stations := length_correlate m i result

theorem works_handle (hi : i < m.stations.length) (id : HandlerId) (message : Message) (t : Nat) :
    m.Works (m.handle i id message).1 t := by
  obtain hserves | ⟨result, -, heq⟩ := serves_or_correlates m i id message
  · exact hserves.works t
  · rw [heq]
    exact works_correlate hi result t

theorem works_stepJob (hi : i < m.stations.length) (job : Job) (u : Nat) :
    m.Works (m.stepJob t i job).1 u := by
  obtain heq | ⟨due, stage, heq⟩ | heq | ⟨id, heq⟩ := stepJob_cases m t i job
  · rw [heq]
    exact .refl m u
  · rw [heq]
    exact (serves_setAlarm m due t).works u
  · rw [heq]
    exact (serves_updateDispatcher m i fun d => d.finish .unhandled).works u
  · rw [heq]
    have hcount := serves_updateDispatcher (m.handle i id job.message).1 i
      fun d => d.finish (countedAs (m.handle i id job.message).2)
    exact (works_handle hi id job.message u).trans (hcount.works u)

/-! ### Tasks that are neither calls nor reapers -/

/-- A task that has not ended and does nothing for a registered call. -/
def IsFree (m : Mesh) (t : Nat) : Prop :=
  ∃ task, m.tasks[t]? = some task ∧ ¬task.activity.IsEngaged ∧ ¬task.activity.IsEnded

theorem IsFree.of_task (h : m.IsFree t) {task : Task} (htask : m.tasks[t]? = some task) :
    ¬task.activity.IsEngaged ∧ ¬task.activity.IsEnded := by
  obtain ⟨old, hold, hfree⟩ := h
  obtain rfl := Option.some.inj (hold.symm.trans htask)
  exact hfree

theorem Works.isFree (h : m.Works m' t) (hfree : m.IsFree t) : m'.IsFree t := by
  obtain ⟨task, htask, hstands⟩ := hfree
  exact ⟨task, h.task htask, hstands⟩

theorem aside_setActivity (hfree : m.IsFree t) {a : Activity} (ha : ¬a.IsEngaged) :
    m.Aside (m.setActivity t a) where
  now := rfl
  stations := Nat.le_refl _
  store := fun _ => rfl
  keeps := by
    intro u task htask hstands
    have hne : u ≠ t := by
      intro heq
      subst heq
      exact hstands.elim (hfree.of_task htask).1 (hfree.of_task htask).2
    rw [tasks_setActivity, if_neg hne, htask]
  brings := by
    intro u task htask hengaged
    rw [tasks_setActivity] at htask
    split at htask
    · obtain ⟨old, -, rfl⟩ := Option.map_eq_some_iff.mp htask
      exact absurd hengaged ha
    · exact htask
  ready := fun _ _ hready => hready
  alarm := fun _ _ halarm => halarm

theorem aside_taken (htimed : ∀ {task}, m.tasks[t]? = some task → ¬task.activity.IsTimed) :
    m.Aside (m.taken t) where
  now := rfl
  stations := Nat.le_refl _
  store := fun _ => rfl
  keeps := fun htask _ => htask
  brings := fun htask _ => htask
  ready := by
    intro u task htask hu hready
    refine (isReady_taken m t u).mpr ⟨hready, ?_⟩
    intro heq
    subst heq
    exact htimed htask hu
  alarm := fun _ _ halarm => halarm

theorem aside_finish (hfree : m.IsFree t) (e : TaskEnd) : m.Aside (m.finish t e) where
  now := rfl
  stations := Nat.le_refl _
  store := fun _ => rfl
  keeps := (aside_setActivity hfree id).keeps
  brings := (aside_setActivity hfree id).brings
  ready := fun _ _ hready => hready
  alarm := by
    intro u due task htask hu halarm
    refine (hasAlarm_finish m t u due e).mpr ⟨halarm, ?_⟩
    intro heq
    subst heq
    exact (hfree.of_task htask).1 hu.isEngaged

theorem Aside.leads (h : m.Aside m') (hplacement : m'.placement = m.placement) : m.Leads m' :=
  (Step.aside h).leads hplacement

theorem leads_taken (hidle : ∀ {task}, m.tasks[t]? = some task → ¬task.activity.IsEngaged) :
    m.Leads (m.taken t) :=
  (aside_taken fun htask htimed => hidle htask htimed.isEngaged).leads rfl

theorem leads_setActivity (hfree : m.IsFree t) {a : Activity} (ha : ¬a.IsEngaged) :
    m.Leads (m.setActivity t a) :=
  (aside_setActivity hfree ha).leads (placement_setActivity m t a)

theorem leads_finish (hfree : m.IsFree t) (e : TaskEnd) : m.Leads (m.finish t e) :=
  (aside_finish hfree e).leads (placement_finish m t e)

theorem leads_runDispatch (hi : i < m.stations.length) (hfree : m.IsFree t) (job : Job) :
    m.Leads (m.runDispatch t i job) := by
  have hstep := works_stepJob hi job t (t := t)
  have hfree' := hstep.isFree hfree
  unfold runDispatch
  split
  · next heq =>
    rw [heq] at hstep hfree'
    exact hstep.toLeads.trans (leads_setActivity hfree' id)
  · next heq =>
    rw [heq] at hstep hfree'
    exact hstep.toLeads.trans (leads_finish hfree' _)

theorem leads_takeTurns (hi : i < m.stations.length) (hfree : m.IsFree t) (fuel : Nat) :
    m.Leads (m.takeTurns t i fuel) := by
  induction fuel generalizing m with
  | zero => exact leads_setActivity hfree id
  | succ fuel ih =>
    simp only [takeTurns]
    split
    · split
      · exact leads_finish hfree _
      · exact leads_setActivity hfree id
    · next message d _ =>
      have htake := (serves_updateDispatcher m i fun _ => d).works t
      have hstep := works_stepJob (t := t) (htake.stations ▸ hi) ⟨message, .arrived⟩ t
      -- the work on one message is a way of its own, and the worker is the same task after it
      have hworks := htake.trans hstep
      have hfree' := hworks.isFree hfree
      split
      · next heq =>
        rw [heq] at hworks hfree'
        exact hworks.toLeads.trans (leads_setActivity hfree' id)
      · next heq =>
        rw [heq] at hworks hfree'
        exact hworks.toLeads.trans (ih (hworks.stations ▸ hi) hfree')

theorem leads_runWorker (hi : i < m.stations.length) (hfree : m.IsFree t) (job : Option Job) :
    m.Leads (m.runWorker t i job) := by
  cases job with
  | none => exact leads_takeTurns hi hfree _
  | some job =>
    have hstep := works_stepJob hi job t (t := t)
    have hfree' := hstep.isFree hfree
    simp only [runWorker]
    split
    · next heq =>
      rw [heq] at hstep hfree'
      exact hstep.toLeads.trans (leads_setActivity hfree' id)
    · next heq =>
      rw [heq] at hstep hfree'
      exact hstep.toLeads.trans
        (leads_takeTurns (hstep.stations ▸ hi) hfree' _)

theorem leads_runLoop (hi : i < m.stations.length) (hfree : m.IsFree t)
    (subscriber : Option Nat) : m.Leads (m.runLoop t i subscriber) := by
  cases subscriber with
  | none => exact leads_finish hfree _
  | some subscriber => exact ((serves_drainBus hi subscriber _).works t).toLeads

theorem leads_runHandling (hi : i < m.stations.length) (hfree : m.IsFree t) (id : HandlerId)
    (message : Message) (due : Option Nat) : m.Leads (m.runHandling t i id message due) := by
  simp only [runHandling]
  split
  · have hwait : ¬(Activity.handling id message
        (some (due.getD (m.now + m.waitOf i id message)))).IsEngaged := not_false
    have hset := leads_setActivity hfree hwait
    split
    · exact hset.trans ((serves_setAlarm _ _ t).works t).toLeads
    · exact hset
  · have hhandle := works_handle hi id message t
    exact hhandle.toLeads.trans (leads_finish (hhandle.isFree hfree) _)

theorem leads_drop (hfree : m.IsFree t) {a : Activity} (ha : ¬a.IsEngaged) :
    m.Leads (m.drop t i a) := by
  unfold drop
  split
  · next subscriber =>
    have hbus := (serves_bus m ((m.bus.unsubscribe subscriber).leave t)).works t
    exact hbus.toLeads.trans (leads_finish (hbus.isFree hfree) _)
  · exact absurd trivial ha
  · exact absurd trivial ha
  · exact leads_finish hfree _

/-! ### Calls and reapers -/

theorem tasks_enter {a : Activity} (htask : m.tasks[t]? = some ⟨i, a, false⟩) (c : Command) :
    (m.enter t i c).1.tasks[t]? = some ⟨i, .executing c (.sending (m.enter t i c).2.1
      ((m.station i).timeoutOf c) (m.enter t i c).2.2), false⟩ := by
  have hregister : (m.register i c ((m.station i).timeoutOf c)).1.tasks[t]? =
      some ⟨i, a, false⟩ := by
    obtain ⟨hlt, -⟩ := List.getElem?_eq_some_iff.mp htask
    simp only [register, tasks_spawn]
    split <;> simp [htask, Nat.ne_of_lt hlt]
  simp only [enter, tasks_setActivity, if_true, hregister]
  rfl

theorem leads_send {ticket timeout reaper : Nat} {c : Command}
    (htask : m.tasks[t]? = some ⟨i, .executing c (.sending ticket timeout reaper), false⟩) :
    m.Leads (m.send t i c ticket timeout reaper) := by
  have hproduce := (serves_produce m i (.command c)).works t
  have hsending := hproduce.task htask
  have hdepart := Step.depart (m.produce i (.command c)).2 hsending
  exact hproduce.toLeads.trans (hdepart.leads (placement_depart _ t i ticket reaper timeout c _))

theorem leads_submit (hready : m.IsReady t) (hi : i < m.stations.length) {c : Command}
    (htask : m.tasks[t]? = some ⟨i, .executing c .submitted, false⟩) :
    m.Leads ((m.taken t).submit t i c) := by
  have hfree : m.IsFree t := ⟨_, htask, not_false, not_false⟩
  unfold submit
  simp only
  split
  · have htaken : m.Leads (m.taken t) := leads_taken fun h => (hfree.of_task h).1
    have hfree' : (m.taken t).IsFree t := hfree
    exact htaken.trans (leads_finish hfree' _)
  · next accepted =>
    have hstep := Step.enter hready htask hi accepted
    have hsend := leads_send (tasks_enter (m := m.taken t) (i := i) htask
      (c.stamped (m.station i).node))
    refine Leads.trans ⟨⟨_, Path.stay.step hstep⟩, ?_⟩ hsend
    intro hplaced j hj
    rw [placement_enter] at hj ⊢
    rcases List.mem_append.mp hj with hold | hnew
    · exact hplaced j hold
    · rw [List.mem_singleton.mp hnew]
      exact hi

theorem leads_runCall (hready : m.IsReady t) (hi : i < m.stations.length) {c : Command}
    {stage : CallStage} (htask : m.tasks[t]? = some ⟨i, .executing c stage, false⟩) :
    m.Leads ((m.taken t).runCall t i c stage) := by
  cases stage with
  | submitted => exact leads_submit hready hi htask
  | sending ticket timeout reaper =>
    have htaken : m.Leads (m.taken t) := by
      refine (aside_taken fun h htimed => ?_).leads rfl
      obtain rfl := Option.some.inj (htask.symm.trans h)
      exact htimed
    exact htaken.trans (leads_send (m := m.taken t) htask)
  | waiting ticket due reaper =>
    have hplacement := placement_awaitResults (m.taken t) t i ticket due reaper c
    exact (Step.wait hready htask).leads hplacement

/-! ### Turns -/

theorem run_of_missing (htask : m.tasks[t]? = none) : m.run t = m := by
  simp only [run, htask]

theorem run_of_ended {e : TaskEnd} {aborted : Bool}
    (htask : m.tasks[t]? = some ⟨i, .ended e, aborted⟩) : m.run t = m := by
  simp only [run, htask]

theorem run_of_aborted {a : Activity} (htask : m.tasks[t]? = some ⟨i, a, true⟩)
    (hlive : ¬a.IsEnded) : m.run t = m.drop t i a := by
  cases a with
  | ended e => exact absurd trivial hlive
  | _ => simp only [run, htask, if_true]

theorem leads_run_free (hfree : m.IsFree t) (hready : m.IsReady t) {a : Activity} {aborted : Bool}
    (htask : m.tasks[t]? = some ⟨i, a, aborted⟩) (hi : i < m.stations.length) :
    m.Leads ((m.taken t).run t) := by
  have htaken : m.Leads (m.taken t) := leads_taken fun h => (hfree.of_task h).1
  have hfree' : (m.taken t).IsFree t := hfree
  have hi' : i < (m.taken t).stations.length := hi
  obtain ⟨hidle, hlive⟩ := hfree.of_task htask
  cases aborted with
  | true =>
    rw [run_of_aborted (m := m.taken t) htask hlive]
    exact htaken.trans (leads_drop hfree' hidle)
  | false =>
    simp only [run, tasks_taken, htask]
    cases a with
    | receiving subscriber => exact htaken.trans (leads_runLoop hi' hfree' subscriber)
    | dispatching job => exact htaken.trans (leads_runDispatch hi' hfree' job)
    | working job => exact htaken.trans (leads_runWorker hi' hfree' job)
    | handling id message due => exact htaken.trans (leads_runHandling hi' hfree' id message due)
    | executing c stage => exact leads_runCall hready hi htask
    | reaping ticket delay due => exact absurd trivial hidle
    | ended e => exact absurd trivial hlive

theorem leads_run_engaged (hready : m.IsReady t) {a : Activity} {aborted : Bool}
    (htask : m.tasks[t]? = some ⟨i, a, aborted⟩) (hi : i < m.stations.length)
    (hengaged : a.IsEngaged) : m.Leads ((m.taken t).run t) := by
  cases aborted with
  | true =>
    have hlive : ¬a.IsEnded := by
      intro hended
      cases a with
      | ended e => exact hengaged
      | _ => exact hended
    rw [run_of_aborted (m := m.taken t) htask hlive]
    exact (Step.drop hready htask hengaged).leads (placement_drop (m.taken t) t i a)
  | false =>
    simp only [run, tasks_taken, htask]
    cases a with
    | reaping ticket delay due =>
      exact (Step.reap hready htask).leads (placement_runReaper (m.taken t) t i ticket delay due)
    | executing c stage => exact leads_runCall hready hi htask
    | _ => exact hengaged.elim

/-- What a task does in its turn is a sequence of steps. -/
theorem leads_run (hplaced : m.Placed) (hready : m.IsReady t) :
    m.Leads ((m.taken t).run t) := by
  cases htask : m.tasks[t]? with
  | none =>
    rw [run_of_missing (m := m.taken t) htask]
    refine leads_taken fun h => ?_
    rw [htask] at h
    cases h
  | some task =>
    obtain ⟨i, a, aborted⟩ := task
    have hi : i < m.stations.length := hplaced.lt htask
    by_cases hengaged : a.IsEngaged
    · exact leads_run_engaged hready htask hi hengaged
    by_cases hended : a.IsEnded
    · cases a with
      | ended e =>
        rw [run_of_ended (m := m.taken t) htask]
        refine leads_taken fun h => ?_
        obtain rfl := Option.some.inj (htask.symm.trans h)
        exact hengaged
      | _ => exact hended.elim
    · exact leads_run_free ⟨_, htask, hengaged, hended⟩ hready htask hi

end ClusterMesh.Mesh
