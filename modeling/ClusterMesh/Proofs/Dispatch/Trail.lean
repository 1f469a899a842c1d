import ClusterMesh.Proofs.Dispatch.Frames
import ClusterMesh.Proofs.Mesh.Serving

/-!
# Trails of steps

What a mesh does is a trail of steps. A task that is at work can run all the while, and what it
works on shows in its activity from step to step; what it leaves behind in the end is all that the
mesh keeps of it.
-/

namespace ClusterMesh

namespace Activity

/-- The task works for a dispatcher or listens to the bus. -/
def IsBound (a : Activity) : Prop := a.IsOnDuty ∨ a.IsListening

theorem goOn_of_job {a : Activity} {job : Job} (h : a.job? = some job) : a.goOn job = a := by
  cases a with
  | dispatching old => exact congrArg dispatching (Option.some.inj h).symm
  | working old => exact congrArg working (Eq.symm h)
  | _ => cases h

@[simp] theorem goOn_goOn (a : Activity) (job job' : Job) :
    (a.goOn job).goOn job' = a.goOn job' := by
  cases a <;> rfl

theorem layDown_goOn (a : Activity) (job : Job) : (a.goOn job).layDown = a.layDown := by
  cases a <;> rfl

end Activity

/-- No worker is lost, and a message comes to a dispatcher only from the bus. -/
structure IsTravel (e : Option (Nat × Notice)) : Prop where
  keeps : ∀ i, e ≠ some (i, .failed)
  travels : ∀ i x, e = some (i, .called x) → x.origin ≠ none

namespace Mesh

variable {m m' m'' : Mesh} {t u i j due : Nat} {a a' b : Activity}

/-- A way from one mesh to another, and what happens on it. -/
inductive Trail (m : Mesh) : List (Option (Nat × Notice)) → Mesh → Prop
  | stay : Trail m [] m
  | step {es : List (Option (Nat × Notice))} {e : Option (Nat × Notice)} {m' m'' : Mesh}
      (trail : Trail m es m') (duty : m'.Duty e m'') : Trail m (es ++ [e]) m''

/-- There is a trail on which messages come to dispatchers only from the bus. -/
def Runs (m m' : Mesh) : Prop := ∃ es, m.Trail es m' ∧ ∀ e ∈ es, IsTravel e

theorem Trail.trans {es es' : List (Option (Nat × Notice))} (h : m.Trail es m')
    (h' : m'.Trail es' m'') : m.Trail (es ++ es') m'' := by
  induction h' with
  | stay => rwa [List.append_nil]
  | step _ hduty ih =>
    rw [← List.append_assoc]
    exact ih.step hduty

theorem Runs.refl (m : Mesh) : m.Runs m := ⟨[], .stay, fun _ => List.not_mem_nil.elim⟩

theorem Runs.trans (h : m.Runs m') (h' : m'.Runs m'') : m.Runs m'' := by
  obtain ⟨es, htrail, htravel⟩ := h
  obtain ⟨es', htrail', htravel'⟩ := h'
  refine ⟨es ++ es', htrail.trans htrail', fun e he => ?_⟩
  rcases List.mem_append.mp he with hold | hnew
  · exact htravel e hold
  · exact htravel' e hnew

theorem Duty.runs {e : Option (Nat × Notice)} (h : m.Duty e m') (he : IsTravel e) :
    m.Runs m' := by
  refine ⟨[e], Trail.stay.step h, fun e' he' => ?_⟩
  rw [List.mem_singleton.mp he']
  exact he

theorem isTravel_none : IsTravel none := ⟨by simp, by simp⟩

theorem Apart.runs (h : m.Apart m') : m.Runs m' := (Duty.apart h).runs isTravel_none

theorem Work.runs {notice : Option Notice} (h : m.Work t i a notice a' m') : m.Runs m' := by
  refine (Duty.work h).runs ⟨fun j he => ?_, fun j x he => ?_⟩
  · cases h <;> cases he
  · cases h <;> cases he

/-! ### What stands apart -/

theorem desk_updateStation {f : Station → Station}
    (hf : (f (m.station i)).desk = (m.station i).desk) (j : Nat) :
    ((m.updateStation i f).station j).desk = (m.station j).desk := by
  rw [station_updateStation]
  split
  · next hij => rw [hf, hij.1]
  · rfl

theorem apart_of_tasks (hnow : m'.now = m.now) (hstations : m'.stations.length = m.stations.length)
    (hdesk : ∀ i, (m'.station i).desk = (m.station i).desk)
    (hcontent : m'.bus.content = m.bus.content) (htasks : m'.tasks = m.tasks)
    (hready : ∀ {u task}, m.tasks[u]? = some task → task.activity.IsOnDuty →
      m.IsReady u → m'.IsReady u)
    (halarm : ∀ {due u task}, m.tasks[u]? = some task → task.activity.IsOnDuty →
      m.HasAlarm due u → m'.HasAlarm due u) : m.Apart m' where
  now := hnow
  stations := hstations
  desk := hdesk
  content := hcontent
  grows := Nat.le_of_eq (congrArg List.length htasks).symm
  task := by
    intro t task _
    rw [htasks]
  ended := fun htask hended => ⟨_, htasks ▸ htask, hended⟩
  ready := hready
  alarm := halarm

theorem apart_updateStation {f : Station → Station}
    (hf : (f (m.station i)).desk = (m.station i).desk) : m.Apart (m.updateStation i f) :=
  apart_of_tasks rfl (length_updateStation m i f) (desk_updateStation hf) rfl rfl
    (fun _ _ h => h) (fun _ _ h => h)

theorem apart_updateStore (m : Mesh) (i : Nat) (f : PendingStore → PendingStore) :
    m.Apart (m.updateStore i f) := apart_updateStation rfl

theorem apart_wake (m : Mesh) (t : Nat) : m.Apart (m.wake t) :=
  apart_of_tasks rfl rfl (fun _ => rfl) rfl rfl
    (fun _ _ hready => (isReady_wake ..).mpr (Or.inl hready)) (fun _ _ h => h)

theorem apart_setAlarm (m : Mesh) (due t : Nat) : m.Apart (m.setAlarm due t) :=
  apart_of_tasks rfl rfl (fun _ => rfl) rfl rfl (fun _ _ h => h)
    (fun _ _ halarm => (hasAlarm_setAlarm ..).mpr (Or.inl halarm))

theorem apart_note (m : Mesh) (h : Handler) (message : Message) : m.Apart (m.note h message) :=
  apart_of_tasks rfl rfl (fun _ => rfl) rfl rfl (fun _ _ h => h) (fun _ _ h => h)

theorem apart_bus (m : Mesh) {bus : Bus Message} (h : bus.content = m.bus.content) :
    m.Apart { m with bus := bus } :=
  apart_of_tasks rfl rfl (fun _ => rfl) h rfl (fun _ _ h => h) (fun _ _ h => h)

theorem apart_wakeCaller (m : Mesh) (i k : Nat) : m.Apart (m.wakeCaller i k) := by
  obtain heq | ⟨t, heq⟩ := wakeCaller_cases m i k
  · rw [heq]
    exact .refl m
  · rw [heq]
    exact apart_wake m t

theorem apart_timeOut (m : Mesh) (i k : Nat) : m.Apart (m.timeOut i k).1 := by
  have hstore := apart_updateStore m i fun _ => ((m.station i).store.onTimeout k).1
  simp only [timeOut]
  split
  · exact hstore.trans (apart_wakeCaller _ i k)
  · exact hstore

theorem apart_expire (m : Mesh) (i k : Nat) : m.Apart (m.expire i k).1 := by
  have hstore := apart_updateStore m i fun _ => ((m.station i).store.expire k).1
  simp only [expire]
  split
  · exact hstore.trans (apart_wakeCaller _ i k)
  · exact hstore

theorem apart_correlate (m : Mesh) (i : Nat) (result : CommandResult) :
    m.Apart (m.correlate i result).1 := by
  have hstore := apart_updateStore m i fun _ => ((m.station i).store.correlate result).1
  simp only [correlate]
  split
  · exact hstore.trans (apart_wakeCaller _ i _)
  · exact hstore

/-! ### Tasks that are bound to nothing -/

/-- A task that neither works for a dispatcher nor listens to the bus. -/
def IsUnbound (m : Mesh) (t : Nat) : Prop :=
  ∀ {task}, m.tasks[t]? = some task → ¬task.activity.IsBound

/-- A task that has not ended. -/
def IsLive (m : Mesh) (t : Nat) : Prop :=
  ∀ {task}, m.tasks[t]? = some task → ¬task.activity.IsEnded

theorem Apart.isUnbound (h : m.Apart m') (ht : m.IsUnbound t) : m'.IsUnbound t := by
  intro task htask hbound
  exact ht ((h.task hbound).mp htask) hbound

theorem apart_taken (ht : ∀ {task}, m.tasks[t]? = some task → ¬task.activity.IsOnDuty) :
    m.Apart (m.taken t) := by
  refine apart_of_tasks rfl rfl (fun _ => rfl) rfl rfl (fun htask hduty hready => ?_)
    (fun _ _ h => h)
  refine (isReady_taken ..).mpr ⟨hready, fun hut => ?_⟩
  subst hut
  exact ht htask hduty

theorem apart_modify {f : Task → Task} (ht : m.IsUnbound t)
    (hf : ∀ {task}, m.tasks[t]? = some task → ¬(f task).activity.IsBound)
    (hended : ∀ {task}, m.tasks[t]? = some task → task.activity.IsEnded →
      (f task).activity.IsEnded) (hstations : m'.stations = m.stations) (hnow : m'.now = m.now)
    (hcontent : m'.bus.content = m.bus.content) (htasks : m'.tasks = m.tasks.modify t f)
    (hready : ∀ {u}, m.IsReady u → m'.IsReady u)
    (halarm : ∀ {due u}, u ≠ t → m.HasAlarm due u → m'.HasAlarm due u) : m.Apart m' where
  now := hnow
  stations := congrArg List.length hstations
  desk := by
    intro i
    simp only [station, hstations]
  content := hcontent
  grows := by
    apply Nat.le_of_eq
    rw [htasks, List.length_modify]
  task := by
    intro u task hbound
    rw [htasks, List.getElem?_modify]
    by_cases htu : t = u
    · subst htu
      simp only [if_true]
      constructor
      · intro heq
        obtain ⟨old, hold, rfl⟩ := Option.map_eq_some_iff.mp heq
        exact absurd hbound (hf hold)
      · intro heq
        exact absurd hbound (ht heq)
    · simp [htu]
  ended := by
    intro u task htask htaskEnded
    rw [htasks, List.getElem?_modify, htask]
    by_cases htu : t = u
    · subst htu
      exact ⟨f task, by simp, hended htask htaskEnded⟩
    · exact ⟨task, by simp [htu], htaskEnded⟩
  ready := fun _ _ => hready
  alarm := by
    intro u due task htask hduty
    apply halarm
    intro hut
    subst hut
    exact ht htask (Or.inl hduty)

theorem apart_setActivity (ht : m.IsUnbound t) (hlive : m.IsLive t) (ha : ¬a.IsBound) :
    m.Apart (m.setActivity t a) :=
  apart_modify ht (fun _ => ha) (fun htask hended => absurd hended (hlive htask))
    rfl rfl rfl rfl id (fun _ => id)

theorem apart_finish (ht : m.IsUnbound t) (e : TaskEnd) : m.Apart (m.finish t e) := by
  have hended : ¬(Activity.ended e).IsBound := fun h => h.elim id id
  exact apart_modify (f := fun task => { task with activity := .ended e }) ht (fun _ => hended)
    (fun _ _ => trivial) rfl rfl rfl rfl id
    (fun hu halarm => (hasAlarm_finish ..).mpr ⟨halarm, hu⟩)

theorem apart_abort (ht : m.IsUnbound t) : m.Apart (m.abort t) := by
  unfold abort
  split
  · exact .refl m
  · exact apart_modify (f := fun task => { task with aborted := true }) ht ht (fun _ => id)
      rfl rfl rfl rfl (fun hready => (isReady_wake m t _).mpr (Or.inl hready)) (fun _ => id)

theorem apart_spawn (m : Mesh) (i : Nat) (ha : ¬a.IsBound) : m.Apart (m.spawn i a).1 where
  now := rfl
  stations := rfl
  desk := fun _ => rfl
  content := rfl
  grows := by simp [spawn]
  task := by
    intro u task hbound
    rw [tasks_spawn]
    split
    · next hu =>
      subst hu
      constructor
      · intro heq
        rw [← Option.some.inj heq] at hbound
        exact absurd hbound ha
      · intro heq
        rw [List.getElem?_eq_none (Nat.le_refl _)] at heq
        cases heq
    · rfl
  ended := by
    intro u task htask hended
    obtain ⟨hlt, -⟩ := List.getElem?_eq_some_iff.mp htask
    exact ⟨task, (tasks_spawn ..).trans ((if_neg (Nat.ne_of_lt hlt)).trans htask), hended⟩
  ready := fun _ _ hready => (isReady_spawn ..).mpr (Or.inl hready)
  alarm := fun _ _ halarm => halarm

/-! ### Tasks at work -/

/-- A mesh in which a task is at work on something. -/
def atWork (m : Mesh) (t : Nat) (a : Activity) : Mesh := (m.setActivity t a).wake t

theorem setActivity_setActivity (m : Mesh) (t : Nat) (a a' : Activity) :
    (m.setActivity t a).setActivity t a' = m.setActivity t a' := by
  have htasks : (m.tasks.modify t fun task => { task with activity := a }).modify t
      (fun task => { task with activity := a' }) =
        m.tasks.modify t fun task => { task with activity := a' } := by
    apply List.ext_getElem?
    intro u
    simp only [List.getElem?_modify]
    cases m.tasks[u]? with
    | none => rfl
    | some task => by_cases htu : t = u <;> simp [htu]
  exact congrArg (fun tasks => { m with tasks := tasks }) htasks

theorem setActivity_atWork (m : Mesh) (t : Nat) (a a' : Activity) :
    (m.atWork t a).setActivity t a' = m.atWork t a' :=
  congrArg (fun m => m.wake t) (setActivity_setActivity m t a a')

theorem isReady_atWork : (m.atWork t a).IsReady u ↔ m.IsReady u ∨ u = t :=
  isReady_wake (m.setActivity t a) t u

theorem task_atWork (htask : m.tasks[t]? = some ⟨i, b, false⟩) (a : Activity) :
    (m.atWork t a).tasks[t]? = some ⟨i, a, false⟩ := by
  have hset := tasks_setActivity m t t a
  rw [if_pos rfl, htask] at hset
  exact hset

theorem inHand_atWork (htask : m.tasks[t]? = some ⟨i, b, false⟩) {job : Job}
    (hjob : a.job? = some job) : (m.atWork t a).InHand t i a job :=
  ⟨isReady_atWork.mpr (Or.inr rfl), task_atWork htask a, hjob⟩

theorem Apart.atWork (h : m.Apart m') (htask : m.tasks[t]? = some ⟨i, b, false⟩)
    (hduty : b.IsOnDuty) (a : Activity) : (m.atWork t a).Apart (m'.atWork t a) where
  now := h.now
  stations := h.stations
  desk := h.desk
  content := h.content
  grows := by
    show (m.setActivity t a).tasks.length ≤ (m'.setActivity t a).tasks.length
    rw [length_setActivity, length_setActivity]
    exact h.grows
  task := by
    intro u task hbound
    have htask' := (h.task (Or.inl hduty)).mpr htask
    show (m'.setActivity t a).tasks[u]? = some task ↔ (m.setActivity t a).tasks[u]? = some task
    rw [tasks_setActivity, tasks_setActivity, htask, htask']
    split
    · rfl
    · exact h.task hbound
  ended := by
    intro u task hu hended
    have htask' := (h.task (Or.inl hduty)).mpr htask
    by_cases hut : u = t
    · subst hut
      have hself := Option.some.inj (hu.symm.trans (task_atWork htask a))
      exact ⟨_, task_atWork htask' a, by rwa [hself] at hended⟩
    · have hother : ∀ m : Mesh, (m.atWork t a).tasks[u]? = m.tasks[u]? :=
        fun m => (tasks_setActivity m t u a).trans (if_neg hut)
      rw [hother] at hu ⊢
      exact h.ended hu hended
  ready := by
    intro u task hu hon hready
    rw [isReady_atWork] at hready ⊢
    rcases hready with hold | hself
    · by_cases hut : u = t
      · exact Or.inr hut
      · have hsame : m.tasks[u]? = some task := by
          rw [← hu]
          exact ((tasks_setActivity m t u a).trans (if_neg hut)).symm
        exact Or.inl (h.ready hsame hon hold)
    · exact Or.inr hself
  alarm := by
    intro u due task hu hon halarm
    have halarm : m.HasAlarm due u := halarm
    show m'.HasAlarm due u
    by_cases hut : u = t
    · subst hut
      exact h.alarm htask hduty halarm
    · have hsame : m.tasks[u]? = some task := by
        rw [← hu]
        exact ((tasks_setActivity m t u a).trans (if_neg hut)).symm
      exact h.alarm hsame hon halarm

end Mesh

end ClusterMesh
