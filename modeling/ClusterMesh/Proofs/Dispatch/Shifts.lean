import ClusterMesh.Proofs.Dispatch.Trail
import ClusterMesh.Proofs.Dispatch.Loops

/-!
# Turns of the tasks on duty

A task that works for a dispatcher takes its turn in steps: it looks for a handler, lets it deal
with the message, and ends the work or waits. What the handler does lies between its invocation and
the end of the work. A worker goes on so until its queue is empty.
-/

namespace ClusterMesh

theorem Station.desk_executeControl (s : Station) (target : ControlTarget) (c : Command) :
    (s.executeControl target c).1.desk = s.desk := by
  obtain ⟨_, _, _, _, heq⟩ := s.executeControl_frame target c
  rw [heq, desk, desk]

namespace Mesh

variable {m m' m'' : Mesh} {t u i j due : Nat} {a a' b : Activity} {job : Job} {message : Message}

/-! ### The beginning and the end of a turn -/

theorem setActivity_self (htask : m.tasks[t]? = some ⟨i, a, false⟩) : m.setActivity t a = m := by
  have htasks : (m.tasks.modify t fun task => { task with activity := a }) = m.tasks := by
    apply List.ext_getElem?
    intro u
    rw [List.getElem?_modify]
    by_cases htu : t = u
    · subst htu
      simp [htask]
    · simp [htu]
  exact congrArg (fun tasks => { m with tasks := tasks }) htasks

theorem apart_begin (htask : m.tasks[t]? = some ⟨i, a, false⟩) :
    m.Apart ((m.taken t).atWork t a) := by
  have hset : (m.taken t).setActivity t a = m.taken t := setActivity_self htask
  rw [atWork, hset]
  refine apart_of_tasks rfl rfl (fun _ => rfl) rfl rfl ?_ (fun _ _ h => h)
  intro u _ _ _ hready
  rw [isReady_wake, isReady_taken]
  by_cases hut : u = t
  · exact Or.inr hut
  · exact Or.inl ⟨hready, hut⟩

theorem apart_rest (m : Mesh) (t : Nat) (a : Activity) :
    ((m.atWork t a).taken t).Apart (m.setActivity t a) := by
  refine apart_of_tasks rfl rfl (fun _ => rfl) rfl rfl (fun _ _ hready => ?_) (fun _ _ h => h)
  obtain ⟨hready, hut⟩ := (isReady_taken ..).mp hready
  exact (isReady_atWork.mp hready).resolve_right hut

theorem apart_restUntil (m : Mesh) (t due : Nat) (a a' : Activity) :
    (((m.atWork t a).restUntil t due).setActivity t a').Apart
      ((m.setAlarm due t).setActivity t a') := by
  have hset := setActivity_setActivity m t a a'
  refine apart_of_tasks rfl rfl (fun _ => rfl) rfl ?_ (fun _ _ hready => ?_) (fun _ _ h => h)
  · exact (congrArg Mesh.tasks hset).symm
  · obtain ⟨hready, hut⟩ := (isReady_taken ((m.atWork t a).setAlarm due t) t _).mp hready
    exact (isReady_atWork.mp hready).resolve_right hut

theorem apart_end (m : Mesh) (t : Nat) (a : Activity) (e : TaskEnd) :
    ((m.atWork t a).finish t e).Apart (m.finish t e) := by
  have hset := setActivity_setActivity m t a (.ended e)
  have htasks : ((m.atWork t a).finish t e).tasks = (m.setActivity t (.ended e)).tasks :=
    (congrArg Mesh.tasks hset :)
  refine apart_of_tasks rfl rfl (fun _ => rfl) rfl htasks.symm ?_ (fun _ _ h => h)
  intro u task htask hduty hready
  rcases isReady_atWork.mp hready with hready | rfl
  · exact hready
  · exact absurd rfl (task_of_finish htask hduty.not_isEnded).1

theorem apart_ended (m : Mesh) (t : Nat) (e : TaskEnd) :
    (m.atWork t (.ended e)).Apart (m.finish t e) := by
  refine apart_of_tasks rfl rfl (fun _ => rfl) rfl rfl ?_ ?_
  · intro u task htask hduty hready
    have hother : (m.finish t e).tasks[u]? = some task := htask
    exact (isReady_atWork.mp hready).resolve_right (task_of_finish hother hduty.not_isEnded).1
  · intro due u task htask hduty halarm
    have hother : (m.finish t e).tasks[u]? = some task := htask
    exact (hasAlarm_finish ..).mpr ⟨halarm, (task_of_finish hother hduty.not_isEnded).1⟩

/-! ### What handlers do -/

/-- What a handler does to a mesh, whether or not a task is at work. -/
structure Effect (m m' : Mesh) : Prop where
  runs : m.Runs m'
  during : ∀ {t i b} a, m.tasks[t]? = some ⟨i, b, false⟩ → b.IsOnDuty →
    (m.atWork t a).Runs (m'.atWork t a)
  now : m'.now = m.now
  stations : m'.stations.length = m.stations.length
  desk : ∀ i, (m'.station i).desk = (m.station i).desk
  tasks : m'.tasks = m.tasks

theorem Effect.refl (m : Mesh) : m.Effect m :=
  ⟨.refl m, fun _ _ _ => .refl _, rfl, rfl, fun _ => rfl, rfl⟩

theorem Effect.trans (h : m.Effect m') (h' : m'.Effect m'') : m.Effect m'' where
  runs := h.runs.trans h'.runs
  during := by
    intro t i b a htask hduty
    apply (h.during a htask hduty).trans
    rw [← h.tasks] at htask
    exact h'.during a htask hduty
  now := h'.now.trans h.now
  stations := h'.stations.trans h.stations
  desk := fun i => (h'.desk i).trans (h.desk i)
  tasks := h'.tasks.trans h.tasks

theorem Apart.effect (h : m.Apart m') (htasks : m'.tasks = m.tasks) : m.Effect m' :=
  ⟨h.runs, fun a htask hduty => (h.atWork htask hduty a).runs, h.now, h.stations, h.desk, htasks⟩

theorem isTravel_sent (i : Nat) (message : Message) (result : Except MeshError Bool) :
    IsTravel (some (i, .sent message result)) := ⟨by simp, by simp⟩

theorem apart_produce_atWork (m : Mesh) (t i : Nat) (a : Activity) (message : Message) :
    ((m.atWork t a).produce i message).1.Apart ((m.produce i message).1.atWork t a) := by
  have hstation : (m.atWork t a).station i = m.station i := rfl
  simp only [produce, hstation]
  split
  · split
    · exact .refl _
    · refine apart_of_tasks rfl rfl (fun _ => rfl) rfl rfl ?_ (fun _ _ h => h)
      intro u task _ _ hready
      rw [isReady_atWork]
      rcases KeyedList.mem_keys_insertMany.mp hready with hold | hwoken
      · rcases isReady_atWork.mp hold with hold | hut
        · exact Or.inl (KeyedList.mem_keys_insertMany.mpr (Or.inl hold))
        · exact Or.inr hut
      · exact Or.inl (KeyedList.mem_keys_insertMany.mpr (Or.inr hwoken))
  · exact .refl _

theorem effect_produce (hi : i < m.stations.length) (message : Message) :
    m.Effect (m.produce i message).1 := by
  obtain ⟨htasks, hstations⟩ := produce_keeps m i message
  have hserves := serves_produce m i message
  refine ⟨(Duty.send message hi).runs (isTravel_sent _ _ _), ?_, hserves.now, hserves.stations,
    ?_, htasks⟩
  · intro t j b a _ _
    have hsend : (m.atWork t a).Duty _ _ := Duty.send message hi
    exact (hsend.runs (isTravel_sent _ _ _)).trans (apart_produce_atWork m t i a message).runs
  · intro j
    simp only [station, hstations]

theorem effect_handle (hi : i < m.stations.length) (id : HandlerId) (message : Message) :
    m.Effect (m.handle i id message).1 := by
  have hnote : ∀ h, m.Effect (m.note h message) := fun h => (apart_note m h message).effect rfl
  obtain heq | ⟨h, heq⟩ | ⟨h, c, resultType, -, heq⟩ | ⟨c, target, -, heq⟩ | ⟨result, -, heq⟩ :=
    handle_cases m i id message
  · rw [heq]
    exact .refl m
  · rw [heq]
    exact hnote h
  · rw [heq]
    exact (hnote h).trans (effect_produce (m := m.note h message) hi _)
  · have hdesk := Station.desk_executeControl (m.station i) target c
    have hcontrol :
        m.Apart (m.updateStation i fun _ => ((m.station i).executeControl target c).1) :=
      apart_updateStation hdesk
    rw [heq]
    refine (hcontrol.effect rfl).trans (effect_produce ?_ _)
    rw [length_updateStation]
    exact hi
  · rw [heq]
    exact (apart_correlate m i result).effect (tasks_correlate m i result)

/-! ### The work on one message -/

/-- What a task does about a message in its turn: it waits, or the work on the message ends. -/
inductive Stint (m : Mesh) (t i : Nat) (a : Activity) : Mesh × Option Job → Prop
  | pause {m' : Mesh} {job : Job} (runs : (m.atWork t a).Runs (m'.setActivity t (a.goOn job))) :
      Stint m t i a (m', some job)
  | close {m' : Mesh} (runs : (m.atWork t a).Runs (m'.atWork t a.layDown))
      (stations : m'.stations.length = m.stations.length) (tasks : m'.tasks = m.tasks)
      (queue : (m'.station i).dispatcher.queue = (m.station i).dispatcher.queue) :
      Stint m t i a (m', none)

theorem Stint.before {result : Mesh × Option Job} (h : m.Stint t i (a.goOn job) result)
    (hruns : (m.atWork t a).Runs (m.atWork t (a.goOn job))) : m.Stint t i a result := by
  cases h with
  | pause runs =>
    rw [Activity.goOn_goOn] at runs
    exact .pause (hruns.trans runs)
  | close runs stations tasks queue =>
    rw [Activity.layDown_goOn] at runs
    exact .close (hruns.trans runs) stations tasks queue

theorem stint_rest (htask : m.tasks[t]? = some ⟨i, b, false⟩) (hjob : a.job? = some job)
    (hpauses : m.Pauses job.stage) : m.Stint t i a (m, some job) := by
  have hrest : (m.atWork t a).Work t i a none a ((m.atWork t a).taken t) :=
    .rest (inHand_atWork htask hjob) hpauses
  refine .pause ?_
  rw [Activity.goOn_of_job hjob]
  exact hrest.runs.trans (apart_rest m t a).runs

theorem apart_conclude (m : Mesh) (t i : Nat) (hjob : a.job? = some job) (e : DispatchEnd) :
    ((m.atWork t a).conclude t i a e).Apart
      ((m.updateDispatcher i (fun d => d.finish e)).atWork t a.layDown) := by
  have hset : ∀ a', ((m.atWork t a).updateDispatcher i (fun d => d.finish e)).setActivity t a' =
      (m.updateDispatcher i (fun d => d.finish e)).atWork t a' :=
    setActivity_atWork (m.updateDispatcher i (fun d => d.finish e)) t a
  rcases a.layDown_cases hjob with ⟨old, rfl, -⟩ | ⟨old, rfl, -⟩
  · have hconclude : (m.atWork t (.working old)).conclude t i (.working old) e =
        (m.updateDispatcher i (fun d => d.finish e)).atWork t (.working none) := hset _
    rw [hconclude]
    exact .refl _
  · have htasks := congrArg Mesh.tasks (hset (.ended .done)).symm
    refine apart_of_tasks rfl rfl (fun _ => rfl) rfl htasks (fun _ _ hready => hready)
      (fun _ _ halarm => ?_)
    exact ((hasAlarm_finish ..).mp halarm).1

theorem stint_conclude (htask : m.tasks[t]? = some ⟨i, b, false⟩) (hduty : b.IsOnDuty)
    (hjob : a.job? = some job) (heffect : m.Effect m') {e : DispatchEnd}
    (hwork : (m'.atWork t a).InHand t i a job → ∃ notice,
      (m'.atWork t a).Work t i a notice a.layDown ((m'.atWork t a).conclude t i a e)) :
    m.Stint t i a (m'.updateDispatcher i (fun d => d.finish e), none) := by
  have hlength := length_updateDispatcher m' i fun d => d.finish e
  have hstation := station_updateDispatcher m' i i fun d => d.finish e
  have hdispatcher := congrArg Desk.dispatcher (heffect.desk i)
  have hqueue : ((m'.updateDispatcher i fun d => d.finish e).station i).dispatcher.queue =
      (m.station i).dispatcher.queue := by
    rw [hstation, ← show (m'.station i).dispatcher = (m.station i).dispatcher from hdispatcher]
    split <;> rfl
  refine .close ?_ (hlength.trans heffect.stations) heffect.tasks hqueue
  have htask' : m'.tasks[t]? = some ⟨i, b, false⟩ := by rw [heffect.tasks, htask]
  obtain ⟨notice, hend⟩ := hwork (inHand_atWork htask' hjob)
  apply (heffect.during a htask hduty).trans
  exact hend.runs.trans (apart_conclude m' t i hjob e).runs

theorem stint_concludeJob (hi : i < m.stations.length)
    (htask : m.tasks[t]? = some ⟨i, b, false⟩) (hduty : b.IsOnDuty) {id : HandlerId}
    (hjob : a.job? = some ⟨message, .handling id due⟩) (hdue : due ≤ m.now) :
    m.Stint t i a (m.concludeJob i id message, none) := by
  have heffect := effect_handle hi id message
  have hready : due ≤ (m.handle i id message).1.now := by rwa [heffect.now]
  exact stint_conclude htask hduty hjob heffect fun hand =>
    ⟨_, .finish hand hready (m.handle i id message).2⟩

theorem stint_seekHandler (hi : i < m.stations.length)
    (htask : m.tasks[t]? = some ⟨i, b, false⟩) (hduty : b.IsOnDuty) {deadline next : Nat}
    (hjob : a.job? = some ⟨message, .searching deadline next⟩) (hdue : next ≤ m.now) :
    m.Stint t i a (m.seekHandler t i message deadline) := by
  have hand := inHand_atWork htask hjob
  unfold seekHandler
  split
  · next id hfound =>
    dsimp only
    have hinvoke : (m.atWork t a).Work t i a _ _ _ :=
      .invoke hand hdue hfound (m.waitOf i id message)
    split
    · next hzero =>
      rw [handOver, if_pos hzero, setActivity_atWork] at hinvoke
      refine Stint.before ?_ hinvoke.runs
      apply stint_concludeJob hi htask hduty (Activity.job?_goOn ..)
      rw [hzero]
      exact Nat.le_refl m.now
    · next hwaits =>
      rw [handOver, if_neg hwaits] at hinvoke
      exact .pause (hinvoke.runs.trans (apart_restUntil m t _ a _).runs)
  · next hmissing =>
    split
    · next next' hagain =>
      have hsearch : (m.atWork t a).Work t i a _ _ _ := .search hand hdue hmissing hagain
      exact .pause (hsearch.runs.trans (apart_restUntil m t _ a _).runs)
    · next hnever =>
      exact stint_conclude htask hduty hjob (.refl m) fun hand =>
        ⟨_, .giveUp hand hdue hmissing hnever⟩

theorem stint_stepJob (hi : i < m.stations.length) (htask : m.tasks[t]? = some ⟨i, b, false⟩)
    (hduty : b.IsOnDuty) (hjob : a.job? = some job) : m.Stint t i a (m.stepJob t i job) := by
  obtain ⟨message, stage⟩ := job
  cases stage with
  | arrived =>
    have hwindow : (m.atWork t a).Work t i a _ _ _ := .window (inHand_atWork htask hjob) rfl
    rw [setActivity_atWork] at hwindow
    apply Stint.before (m := m) ?_ hwindow.runs
    exact stint_seekHandler hi htask hduty (Activity.job?_goOn ..) (Nat.le_refl _)
  | searching deadline next =>
    simp only [stepJob]
    split
    · next hearly => exact stint_rest htask hjob hearly
    · next hdue => exact stint_seekHandler hi htask hduty hjob (Nat.le_of_not_lt hdue)
  | handling id due =>
    simp only [stepJob]
    split
    · next hearly => exact stint_rest htask hjob hearly
    · next hdue => exact stint_concludeJob hi htask hduty hjob (Nat.le_of_not_lt hdue)

/-! ### Turns -/

theorem runs_runDispatch (hi : i < m.stations.length)
    (htask : m.tasks[t]? = some ⟨i, .dispatching job, false⟩) :
    (m.atWork t (.dispatching job)).Runs (m.runDispatch t i job) := by
  have hstint : m.Stint t i (.dispatching job) (m.stepJob t i job) :=
    stint_stepJob hi htask trivial rfl
  unfold runDispatch
  split
  · next heq =>
    rw [heq] at hstint
    cases hstint with
    | pause runs => exact runs
  · next heq =>
    rw [heq] at hstint
    cases hstint with
    | close runs _ _ _ => exact runs.trans (apart_ended _ t .done).runs

theorem runs_takeTurns (hi : i < m.stations.length) {job : Option Job}
    (htask : m.tasks[t]? = some ⟨i, .working job, false⟩) {fuel : Nat}
    (hfuel : (m.station i).dispatcher.queue.length < fuel) :
    (m.atWork t (.working none)).Runs (m.takeTurns t i fuel) := by
  induction fuel generalizing m with
  | zero => exact absurd hfuel (Nat.not_lt_zero _)
  | succ fuel ih =>
    have hfree := task_atWork htask (.working none)
    simp only [takeTurns]
    split
    · next hnone =>
      have hempty : (m.station i).dispatcher.queue = [] := by
        unfold Dispatcher.takeQueued? at hnone
        split at hnone
        · assumption
        · cases hnone
      split
      · next hclosed =>
        have hquit : (m.atWork t (.working none)).Work t i _ none _ _ := .quit hfree hempty hclosed
        exact hquit.runs.trans (apart_end m t _ .done).runs
      · have hidle : (m.atWork t (.working none)).Work t i _ none _ _ := .idle hfree hempty
        exact hidle.runs.trans (apart_rest m t _).runs
    · next message d hnext =>
      have htake : (m.atWork t (.working none)).Work t i _ (some (.took t)) _ _ :=
        .take (isReady_atWork.mpr (Or.inr rfl)) hfree hnext
      have hset := setActivity_atWork (m.updateDispatcher i fun _ => d) t (.working none)
        (.working (some ⟨message, .arrived⟩))
      have hruns : (m.atWork t (.working none)).Runs ((m.updateDispatcher i fun _ => d).atWork t
          (.working (some ⟨message, .arrived⟩))) := hset ▸ htake.runs
      obtain ⟨hqueue, hd⟩ := Dispatcher.takeQueued?_eq_some hnext
      have hstation := station_updateDispatcher_self hi fun _ => d
      have hlength := length_updateDispatcher m i fun _ => d
      have hi' : i < (m.updateDispatcher i fun _ => d).stations.length := by rwa [hlength]
      have hstint : (m.updateDispatcher i fun _ => d).Stint t i
          (.working (some ⟨message, .arrived⟩)) _ := stint_stepJob hi' htask trivial rfl
      split
      · next heq =>
        rw [heq] at hstint
        cases hstint with
        | pause runs => exact hruns.trans runs
      · next m' heq =>
        rw [heq] at hstint
        cases hstint with
        | close runs stations tasks queue =>
          apply (hruns.trans runs).trans
          refine ih (stations ▸ hi') (tasks ▸ htask) ?_
          rw [queue, hstation, hd]
          rw [hqueue] at hfuel
          exact Nat.lt_of_succ_lt_succ hfuel

theorem runs_runWorker (hi : i < m.stations.length) {job : Option Job}
    (htask : m.tasks[t]? = some ⟨i, .working job, false⟩) :
    (m.atWork t (.working job)).Runs (m.runWorker t i job) := by
  cases job with
  | none => exact runs_takeTurns hi htask (Nat.lt_succ_self _)
  | some job =>
    have hstint : m.Stint t i (.working (some job)) (m.stepJob t i job) :=
      stint_stepJob hi htask trivial rfl
    simp only [runWorker]
    split
    · next heq =>
      rw [heq] at hstint
      cases hstint with
      | pause runs => exact runs
    · next heq =>
      rw [heq] at hstint
      cases hstint with
      | close runs stations tasks queue =>
        apply runs.trans
        refine runs_takeTurns (stations ▸ hi) (tasks ▸ htask) ?_
        rw [queue]
        exact Nat.lt_succ_self _

/-- What a task on duty does in its turn is a trail of steps. -/
theorem runs_turn_onDuty (hi : i < m.stations.length)
    (htask : m.tasks[t]? = some ⟨i, a, false⟩) (hduty : a.IsOnDuty) :
    m.Runs ((m.taken t).run t) := by
  have hbegin : m.Runs ((m.taken t).atWork t a) := (apart_begin htask).runs
  have htask' : (m.taken t).tasks[t]? = some ⟨i, a, false⟩ := htask
  apply hbegin.trans
  cases a with
  | dispatching job =>
    simp only [run, htask', Bool.false_eq_true, if_false]
    exact runs_runDispatch (m := m.taken t) hi htask
  | working job =>
    simp only [run, htask', Bool.false_eq_true, if_false]
    exact runs_runWorker (m := m.taken t) hi htask
  | _ => exact hduty.elim

end Mesh

end ClusterMesh
