import ClusterMesh.Proofs.Delivery.Listening
import ClusterMesh.Proofs.Traffic.Origin

/-!
# Acts

Tasks that can run take their turns in any order, time passes once nothing can run, calls are
submitted and cancelled, and messages are published from outside. An act leaves every task alone
but the one that has its turn or is cancelled, and it registers a call only if it is the turn of
that call.
-/

namespace ClusterMesh

inductive Deed
  | runs (task : Nat)
  | passes
  | executes (station : Nat) (c : Command)
  | publishes (message : Message)
  | cancels (task : Nat)
  | rests

/-- Neither a call is registered nor one is cancelled. -/
def Happening.IsPlain : Happening → Prop
  | .other | .correlates _ _ => True
  | _ => False

namespace Mesh

variable {m m' m'' : Mesh} {t u s i : Nat} {d : Deed} {L : List Registration}

/-- One act. The clock may stop anywhere up to the next alarm. -/
inductive Act (m : Mesh) : Deed → Mesh → Prop
  | turn {t : Nat} (ready : m.IsReady t) : Act m (.runs t) ((m.taken t).run t)
  | pass (instant : Nat) (idle : ∀ t, ¬m.IsReady t) (later : m.now ≤ instant)
      (first : ∀ due t, m.HasAlarm due t → instant ≤ max m.now due) :
      Act m .passes (machine.ring m instant)
  | execute {i : Nat} (c : Command) (placed : i < m.stations.length) :
      Act m (.executes i c) (m.execute i c).1
  | publish (message : Message) : Act m (.publishes message) (m.publish message)
  | cancel {t i : Nat} {c : Command} {stage : CallStage} {aborted : Bool}
      (task : m.tasks[t]? = some ⟨i, .executing c stage, aborted⟩) :
      Act m (.cancels t) (m.abort t)
  | rest : Act m .rests m

/-! ### Ways on which no call is registered -/

structure Plainly (m m' : Mesh) : Prop where
  path : ∃ es, m.Path es m' ∧ ∀ e ∈ es, e.IsPlain
  stations : m'.stations.length = m.stations.length

theorem Plainly.refl (m : Mesh) : m.Plainly m := ⟨⟨[], .stay, fun _ => List.not_mem_nil.elim⟩, rfl⟩

theorem Plainly.trans (h : m.Plainly m') (h' : m'.Plainly m'') : m.Plainly m'' where
  path := by
    obtain ⟨es, hpath, hes⟩ := h.path
    obtain ⟨es', hpath', hes'⟩ := h'.path
    exact ⟨es ++ es', hpath.trans hpath', fun e he => (List.mem_append.mp he).elim (hes e) (hes' e)⟩
  stations := h'.stations.trans h.stations

theorem Step.plainly {e : Happening} (h : m.Step e m') (he : e.IsPlain)
    (hplacement : m'.placement = m.placement) : m.Plainly m' where
  path := by
    refine ⟨[e], Path.stay.step h, fun e' he' => ?_⟩
    rw [List.mem_singleton.mp he']
    exact he
  stations := congrArg Prod.snd hplacement

theorem Aside.plainly (h : m.Aside m') (hplacement : m'.placement = m.placement) : m.Plainly m' :=
  (Step.aside h).plainly trivial hplacement

theorem Serves.plainly (h : m.Serves m') : m.Plainly m' where
  path := by
    refine ⟨[.other], Path.stay.step (.aside h.aside), fun e he => ?_⟩
    rw [List.mem_singleton.mp he]
    trivial
  stations := h.stations

theorem IsFree.of_tasks (h : m.IsFree t) (htasks : m'.tasks = m.tasks) : m'.IsFree t := by
  obtain ⟨task, htask, hstands⟩ := h
  exact ⟨task, htasks ▸ htask, hstands⟩

theorem plainly_setActivity (hfree : m.IsFree t) {a : Activity} (ha : ¬a.IsEngaged) :
    m.Plainly (m.setActivity t a) :=
  (aside_setActivity hfree ha).plainly (placement_setActivity m t a)

theorem plainly_finish (hfree : m.IsFree t) (e : TaskEnd) : m.Plainly (m.finish t e) :=
  (aside_finish hfree e).plainly (placement_finish m t e)

theorem plainly_taken (hidle : ∀ {task}, m.tasks[t]? = some task → ¬task.activity.IsTimed) :
    m.Plainly (m.taken t) :=
  (aside_taken hidle).plainly rfl

theorem plainly_handle (hi : i < m.stations.length) (id : HandlerId) (message : Message) :
    m.Plainly (m.handle i id message).1 := by
  obtain hserves | ⟨result, -, heq⟩ := serves_or_correlates m i id message
  · exact hserves.plainly
  · rw [heq]
    exact (Step.correlate result hi).plainly trivial (placement_correlate m i result)

theorem plainly_stepJob (hi : i < m.stations.length) (job : Job) :
    m.Plainly (m.stepJob t i job).1 := by
  obtain heq | ⟨due, stage, heq⟩ | heq | ⟨id, heq⟩ := stepJob_cases m t i job
  · rw [heq]
    exact .refl m
  · rw [heq]
    exact (serves_setAlarm m due t).plainly
  · rw [heq]
    exact (serves_updateDispatcher m i fun d => d.finish .unhandled).plainly
  · have hcount := serves_updateDispatcher (m.handle i id job.message).1 i
      fun d => d.finish (countedAs (m.handle i id job.message).2)
    rw [heq]
    exact (plainly_handle hi id job.message).trans hcount.plainly

theorem plainly_runDispatch (hi : i < m.stations.length) (hfree : m.IsFree t) (job : Job) :
    m.Plainly (m.runDispatch t i job) := by
  have hstep := plainly_stepJob (t := t) hi job
  have hfree' := hfree.of_tasks (tasks_stepJob m t i job)
  unfold runDispatch
  split
  · next heq =>
    rw [heq] at hstep hfree'
    exact hstep.trans (plainly_setActivity hfree' id)
  · next heq =>
    rw [heq] at hstep hfree'
    exact hstep.trans (plainly_finish hfree' _)

theorem plainly_runHandling (hi : i < m.stations.length) (hfree : m.IsFree t) (id : HandlerId)
    (message : Message) (due : Option Nat) : m.Plainly (m.runHandling t i id message due) := by
  have hset : ∀ instant, m.Plainly (m.setActivity t (.handling id message (some instant))) :=
    fun _ => plainly_setActivity hfree not_false
  simp only [runHandling]
  split
  · split
    · exact (hset _).trans (serves_setAlarm _ _ t).plainly
    · exact hset _
  · exact (plainly_handle hi id message).trans
      (plainly_finish (hfree.of_tasks (tasks_handle m i id message)) _)

theorem plainly_drop (hfree : m.IsFree t) {a : Activity} (ha : ¬a.IsEngaged) :
    m.Plainly (m.drop t i a) := by
  unfold drop
  split
  · next subscriber =>
    have hfree' : ({ m with bus := (m.bus.unsubscribe subscriber).leave t } : Mesh).IsFree t :=
      hfree.of_tasks rfl
    exact (serves_bus m _).plainly.trans (plainly_finish hfree' _)
  · exact absurd trivial ha
  · exact absurd trivial ha
  · exact plainly_finish hfree _

theorem plainly_send {k timeout reaper : Nat} {c : Command}
    (htask : m.tasks[t]? = some ⟨i, .executing c (.sending k timeout reaper), false⟩) :
    m.Plainly (m.send t i c k timeout reaper) := by
  have hproduce := serves_produce m i (.command c)
  have hdepart := Step.depart (m.produce i (.command c)).2 (hproduce.task htask)
  exact hproduce.plainly.trans (hdepart.plainly trivial (placement_depart ..))

theorem plainly_run_engaged (hready : m.IsReady t) {a : Activity} {aborted : Bool}
    (htask : m.tasks[t]? = some ⟨i, a, aborted⟩) (hengaged : a.IsEngaged) :
    m.Plainly ((m.taken t).run t) := by
  have htask' : (m.taken t).tasks[t]? = some ⟨i, a, aborted⟩ := htask
  cases aborted with
  | true =>
    have hended : ¬a.IsEnded := by
      intro hended
      cases a with
      | ended e => exact hengaged
      | _ => exact hended
    rw [run_of_aborted htask' hended]
    exact (Step.drop hready htask hengaged).plainly trivial (placement_drop (m.taken t) t i a)
  | false =>
    simp only [run, htask', if_false, Bool.false_eq_true]
    cases a with
    | reaping k delay due =>
      exact (Step.reap hready htask).plainly trivial (placement_runReaper (m.taken t) ..)
    | executing c stage =>
      cases stage with
      | submitted => exact hengaged.elim
      | sending k timeout reaper =>
        have htaken : m.Plainly (m.taken t) := by
          refine plainly_taken fun h htimed => ?_
          obtain rfl := Option.some.inj (htask.symm.trans h)
          exact htimed
        exact htaken.trans (plainly_send htask')
      | waiting k due reaper =>
        exact (Step.wait hready htask).plainly trivial (placement_awaitResults (m.taken t) ..)
    | _ => exact hengaged.elim

theorem plainly_run_free (hi : i < m.stations.length) {a : Activity} {aborted : Bool}
    (htask : m.tasks[t]? = some ⟨i, a, aborted⟩) (hengaged : ¬a.IsEngaged) (hended : ¬a.IsEnded)
    (hworker : ¬a.IsWorker) (hsubmitted : aborted = true ∨ ∀ c, a ≠ .executing c .submitted) :
    m.Plainly ((m.taken t).run t) := by
  have htask' : (m.taken t).tasks[t]? = some ⟨i, a, aborted⟩ := htask
  have hfree : m.IsFree t := ⟨_, htask, hengaged, hended⟩
  have hfree' : (m.taken t).IsFree t := hfree
  have htaken : m.Plainly (m.taken t) :=
    plainly_taken fun h htimed => (hfree.of_task h).1 htimed.isEngaged
  refine htaken.trans ?_
  cases aborted with
  | true =>
    rw [run_of_aborted htask' hended]
    exact plainly_drop hfree' hengaged
  | false =>
    simp only [run, htask', if_false, Bool.false_eq_true]
    cases a with
    | receiving subscriber =>
      cases subscriber with
      | none => exact plainly_finish hfree' _
      | some s => exact (serves_drainBus (m := m.taken t) hi s _).plainly
    | dispatching job => exact plainly_runDispatch (m := m.taken t) hi hfree' job
    | working job => exact absurd trivial hworker
    | handling id message due => exact plainly_runHandling (m := m.taken t) hi hfree' id message due
    | executing c stage =>
      cases stage with
      | submitted =>
        rcases hsubmitted with heq | hne
        · cases heq
        · exact absurd rfl (hne c)
      | _ => exact absurd trivial hengaged
    | reaping k delay due => exact absurd trivial hengaged
    | ended e => exact absurd trivial hended

/-- The turn of a task that is not a worker, a call that has just been submitted aside. -/
theorem plainly_run (hplaced : m.Placed) (hready : m.IsReady t) {a : Activity} {aborted : Bool}
    (htask : m.tasks[t]? = some ⟨i, a, aborted⟩) (hworker : ¬a.IsWorker)
    (hsubmitted : aborted = true ∨ ∀ c, a ≠ .executing c .submitted) :
    m.Plainly ((m.taken t).run t) := by
  by_cases hengaged : a.IsEngaged
  · exact plainly_run_engaged hready htask hengaged
  by_cases hended : a.IsEnded
  · cases a with
    | ended e =>
      rw [run_of_ended (m := m.taken t) htask]
      refine plainly_taken fun h htimed => ?_
      obtain rfl := Option.some.inj (htask.symm.trans h)
      exact htimed
    | _ => exact hended.elim
  · exact plainly_run_free (hplaced.lt htask) htask hengaged hended hworker hsubmitted

/-! ### What happens in an act -/

inductive Brings (m : Mesh) : Deed → Happening → Prop
  | plain {d : Deed} {e : Happening} (plain : e.IsPlain) : Brings m d e
  | registers {t i : Nat} {c : Command} {r : Registration}
      (task : m.tasks[t]? = some ⟨i, .executing c .submitted, false⟩) (station : r.station = i)
      (id : r.command.id = c.id) : Brings m (.runs t) (.registers r)
  | cancels {t : Nat} : Brings m (.cancels t) (.cancels t)

/-- No task is a worker. -/
def Unstaffed (m : Mesh) : Prop :=
  ∀ {t : Nat} {task : Task}, m.tasks[t]? = some task → ¬task.activity.IsWorker

structure Wends (m : Mesh) (d : Deed) (m' : Mesh) : Prop where
  path : ∃ es, m.Path es m' ∧ ∀ e ∈ es, m.Brings d e
  stations : m'.stations.length = m.stations.length

theorem Plainly.wends (h : m.Plainly m') (d : Deed) : m.Wends d m' where
  path := by
    obtain ⟨es, hpath, hes⟩ := h.path
    exact ⟨es, hpath, fun e he => .plain (hes e he)⟩
  stations := h.stations

theorem wends_submit (hready : m.IsReady t) (hi : i < m.stations.length) {c : Command}
    (htask : m.tasks[t]? = some ⟨i, .executing c .submitted, false⟩) :
    m.Wends (.runs t) ((m.taken t).submit t i c) := by
  have hfree : m.IsFree t := ⟨_, htask, not_false, not_false⟩
  unfold submit
  simp only
  split
  · have htaken : m.Plainly (m.taken t) :=
      plainly_taken fun h htimed => (hfree.of_task h).1 htimed.isEngaged
    have hfree' : (m.taken t).IsFree t := hfree
    exact (htaken.trans (plainly_finish hfree' _)).wends _
  · next accepted =>
    have hstep := Step.enter hready htask hi accepted
    have hsend := plainly_send (tasks_enter (m := m.taken t) (i := i) htask
      (c.stamped (m.station i).node))
    obtain ⟨es, hpath, hes⟩ := hsend.path
    refine ⟨⟨_, (Path.stay.step hstep).trans hpath, fun e he => ?_⟩, ?_⟩
    · rcases List.mem_append.mp he with hfirst | hlater
      · rw [List.mem_singleton.mp hfirst]
        exact .registers htask rfl rfl
      · exact .plain (hes e hlater)
    · exact hsend.stations.trans (congrArg Prod.snd (placement_enter (m.taken t) ..))

theorem wends_run (hplaced : m.Placed) (hworkers : m.Unstaffed) (hready : m.IsReady t) :
    m.Wends (.runs t) ((m.taken t).run t) := by
  cases htask : m.tasks[t]? with
  | none =>
    have htaken : m.Plainly (m.taken t) := by
      refine plainly_taken fun h => ?_
      rw [htask] at h
      cases h
    rw [run_of_missing (m := m.taken t) htask]
    exact htaken.wends _
  | some task =>
    obtain ⟨i, a, aborted⟩ := task
    by_cases hsubmitted : aborted = true ∨ ∀ c, a ≠ .executing c .submitted
    · exact (plainly_run hplaced hready htask (hworkers htask) hsubmitted).wends _
    · obtain ⟨haborted, hcall⟩ := not_or.mp hsubmitted
      obtain ⟨c, hc⟩ := not_forall.mp hcall
      obtain rfl := not_not.mp hc
      obtain rfl := Bool.eq_false_iff.mpr haborted
      simp only [run, tasks_taken, htask, if_false, Bool.false_eq_true]
      exact wends_submit hready (hplaced.lt htask) htask

theorem Act.wends (h : m.Act d m') (hplaced : m.Placed) (hworkers : m.Unstaffed) :
    m.Wends d m' := by
  cases h with
  | turn ready => exact wends_run hplaced hworkers ready
  | pass instant idle later first =>
    exact ((Step.pass instant idle later first).plainly trivial rfl).wends _
  | execute c placed =>
    exact (serves_spawn placed (a := .executing c .submitted) not_false).plainly.wends _
  | publish message => exact (serves_publish m message).plainly.wends _
  | @cancel t i c stage aborted task =>
    have hplacement := placement_abort m t
    cases stage with
    | submitted =>
      -- a call that has not begun is not registered
      refine ((aside_abort fun htask => ?_).plainly hplacement).wends _
      obtain rfl := Option.some.inj (task.symm.trans htask)
      exact ⟨not_false, not_false⟩
    | _ =>
      refine ⟨⟨_, Path.stay.step (.cancel task trivial), fun e he => ?_⟩,
        congrArg Prod.snd hplacement⟩
      rw [List.mem_singleton.mp he]
      exact .cancels
  | rest => exact (Plainly.refl m).wends _

theorem Act.leads (h : m.Act d m') (hplaced : m.Placed) : m.Leads m' := by
  cases h with
  | turn ready => exact leads_run hplaced ready
  | pass instant idle later first => exact (Step.pass instant idle later first).leads rfl
  | execute c placed => exact leads_execute placed c
  | publish message => exact ((serves_publish m message).works 0).toLeads
  | cancel task =>
    refine leads_abort fun htask heq => ?_
    obtain rfl := Option.some.inj (task.symm.trans htask)
    cases heq
  | rest => exact .refl m

theorem Path.ledger {es : List Happening} (h : m.Path es m') (hl : Ledger m L) :
    ∃ L', Ledger m' L' ∧ ∀ {r}, r ∈ L → r ∈ L' := by
  induction h with
  | stay => exact ⟨L, hl, id⟩
  | step _ hstep ih =>
    obtain ⟨L', hl', hmem⟩ := ih
    exact ⟨_, (hstep.upkeep hl').ledger, fun hr => List.mem_append_left _ (hmem hr)⟩

/-! ### What an act leaves alone -/

theorem Act.now_le (h : m.Act d m') (hl : Ledger m L) : m.now ≤ m'.now := by
  cases h with
  | @turn t ready => exact Nat.le_of_eq (spares_run hl t).now.symm
  | pass instant idle later first => exact Nat.le_max_left _ _
  | cancel task => exact Nat.le_of_eq (now_abort m _).symm
  | _ => exact Nat.le_refl _

/-- Time passes only where nothing can run. -/
theorem Act.now_eq (h : m.Act d m') (hl : Ledger m L) (hready : m.IsReady u) : m'.now = m.now := by
  cases h with
  | @turn t ready => exact (spares_run hl t).now
  | pass instant idle later first => exact absurd hready (idle u)
  | cancel task => exact now_abort m _
  | _ => rfl

theorem Act.ready (h : m.Act d m') (hl : Ledger m L) (hd : d ≠ .runs u) (hready : m.IsReady u) :
    m'.IsReady u := by
  cases h with
  | @turn t ready => exact (spares_run hl t).ready (fun heq => hd (heq ▸ rfl)) hready
  | pass instant idle later first => exact absurd hready (idle u)
  | execute c placed => exact (isReady_spawn m u _ _).mpr (Or.inl hready)
  | publish message => exact (serves_publish m message).ready hready
  | cancel task => exact (isReady_abort m _ u).mp (Or.inl hready)
  | rest => exact hready

theorem Act.task (h : m.Act d m') (hl : Ledger m L) {task : Task} (htask : m.tasks[u]? = some task)
    (hreaper : ¬task.activity.IsReaper) (hruns : d ≠ .runs u) (hcancels : d ≠ .cancels u) :
    m'.tasks[u]? = some task := by
  cases h with
  | @turn t ready => exact (spares_run hl t).same (fun heq => hruns (heq ▸ rfl)) htask hreaper
  | pass instant idle later first => exact htask
  | execute c placed =>
    obtain ⟨hlt, -⟩ := List.getElem?_eq_some_iff.mp htask
    exact (tasks_spawn ..).trans ((if_neg (Nat.ne_of_lt hlt)).trans htask)
  | publish message => exact htask
  | @cancel t _ _ _ _ task =>
    exact (tasks_abort_of_ne m t u fun heq => hcancels (heq ▸ rfl)).trans htask
  | rest => exact htask

theorem Act.task_of_uncalled (h : m.Act d m') (hl : Ledger m L) {a : Activity} {aborted : Bool}
    (htask : m.tasks[u]? = some ⟨i, a, aborted⟩) (hreaper : ¬a.IsReaper)
    (hcall : ∀ c stage, a ≠ .executing c stage) (hruns : d ≠ .runs u) :
    m'.tasks[u]? = some ⟨i, a, aborted⟩ := by
  refine h.task hl htask hreaper hruns ?_
  rintro rfl
  cases h with
  | cancel task =>
    cases htask.symm.trans task
    exact hcall _ _ rfl

/-- A task has gone on, or has stayed as it was. -/
def GoesOn (m : Mesh) (u : Nat) (task' : Task) : Prop :=
  ∃ task, m.tasks[u]? = some task ∧ task'.station = task.station ∧
    task.activity.Follows task'.activity

theorem Spares.came {σ : Option Nat} {task' : Task} (h : m.Spares t σ m')
    (hor : u ≠ t ∨ m.tasks[u]? ≠ none) (htask : m'.tasks[u]? = some task') :
    m.GoesOn u task' ∨ task'.activity.IsBegun := by
  cases hold : m.tasks[u]? with
  | none => exact Or.inr (h.fresh (hor.resolve_right (not_not.mpr hold)) hold htask)
  | some task =>
    refine Or.inl ⟨task, hold, ?_⟩
    by_cases hu : u = t
    · subst hu
      obtain ⟨task'', hafter, hstation, hfollows⟩ := h.own hold
      obtain rfl := Option.some.inj (htask.symm.trans hafter)
      exact ⟨hstation, hfollows⟩
    · obtain ⟨aborted, hafter, -⟩ := h.task hu hold
      obtain rfl := Option.some.inj (htask.symm.trans hafter)
      exact ⟨rfl, .refl _⟩

theorem came_of_turn (hl : Ledger m L) {task' : Task}
    (htask : ((m.taken t).run t).tasks[u]? = some task') :
    m.GoesOn u task' ∨ task'.activity.IsBegun := by
  refine (spares_run hl t).came ?_ htask
  by_cases hu : u = t
  · subst hu
    refine Or.inr fun hold => ?_
    rw [run_of_missing (m := m.taken u) hold, tasks_taken, hold] at htask
    cases htask
  · exact Or.inl hu

/-- Whatever a task does after an act, it went on to, unless it began in it. -/
theorem Act.came (h : m.Act d m') (hl : Ledger m L) {task' : Task}
    (htask : m'.tasks[u]? = some task') : m.GoesOn u task' ∨ task'.activity.IsBegun ∨
      ∃ i c, d = .executes i c ∧ u = m.tasks.length ∧ task' = ⟨i, .executing c .submitted, false⟩ := by
  have hsame : m'.tasks = m.tasks → m.GoesOn u task' :=
    fun heq => ⟨task', heq ▸ htask, rfl, .refl _⟩
  cases h with
  | turn ready => exact (came_of_turn hl htask).imp_right Or.inl
  | pass instant idle later first => exact Or.inl (hsame rfl)
  | @execute i c placed =>
    rw [show (m.execute i c).1 = (m.spawn i (.executing c .submitted)).1 from rfl,
      tasks_spawn] at htask
    split at htask
    · next hu => exact Or.inr (Or.inr ⟨i, c, rfl, hu, (Option.some.inj htask).symm⟩)
    · exact Or.inl ⟨task', htask, rfl, .refl _⟩
  | publish message => exact Or.inl (hsame rfl)
  | @cancel t _ _ _ _ task =>
    refine ((spares_abort_self (σ := none) m t).came ?_ htask).imp_right Or.inl
    by_cases hu : u = t
    · subst hu
      exact Or.inr fun hnone => by rw [task] at hnone; cases hnone
    · exact Or.inl hu
  | rest => exact Or.inl (hsame rfl)

theorem Act.unstaffed (h : m.Act d m') (hl : Ledger m L) (hworkers : m.Unstaffed) :
    m'.Unstaffed := by
  intro u task htask hworker
  rcases h.came hl htask with ⟨before, hbefore, -, hfollows⟩ | hbegun | ⟨i, c, -, -, rfl⟩
  · exact hworkers hbefore (hfollows.worker hworker)
  · generalize task.activity = a at hbegun hworker
    cases a with
    | working job => exact hbegun
    | _ => exact hworker
  · exact hworker

theorem Act.wired (h : m.Act d m') (hl : Ledger m L) (hw : m.Wired) : m'.Wired := by
  cases h with
  | @turn t ready => exact hw.turn hl t
  | pass instant idle later first =>
    exact hw.of_eq rfl rfl fun hready => (isReady_ring _ _ _).mpr (Or.inl hready)
  | execute c placed => exact hw.spawn _ fun _ heq => by cases heq
  | publish message => exact (spares_publish _ message).wired_of_none hw
  | cancel task => exact hw.abort _
  | rest => exact hw

theorem Act.passes (h : m.Act d m') (hl : Ledger m L) (hw : m.Wired) {aborted : Bool}
    (htask : m.tasks[u]? = some ⟨i, .receiving (some s), aborted⟩) (hd : d ≠ .runs u) :
    Passes m m' u s := by
  have hsame : ∀ {m' : Mesh}, m'.bus = m.bus → (m.IsReady u → m'.IsReady u) → Passes m m' u s := by
    intro m' hbus hready
    refine ⟨hbus ▸ .refl _ _, hready, fun _ hwaits hzero => Or.inr ?_⟩
    rw [hbus]
    exact ⟨hwaits, hzero⟩
  cases h with
  | @turn t ready =>
    have hu : u ≠ t := fun heq => hd (heq ▸ rfl)
    refine (spares_run hl t).passes hu fun hσ => ?_
    unfold subscriberOf at hσ
    split at hσ
    · next hself =>
      subst hσ
      exact hu (hw.alone htask hself)
    · cases hσ
  | pass instant idle later first =>
    exact hsame rfl fun hready => (isReady_ring _ _ _).mpr (Or.inl hready)
  | execute c placed => exact hsame rfl fun hready => (isReady_spawn m u _ _).mpr (Or.inl hready)
  | publish message =>
    exact (spares_publish (t := m.tasks.length) (σ := none) m message).passes
      (Nat.ne_of_lt (List.getElem?_eq_some_iff.mp htask).1) (fun heq => by cases heq)
  | @cancel t _ _ _ _ task =>
    refine hsame ?_ fun hready => (isReady_abort m _ u).mp (Or.inl hready)
    unfold abort
    split <;> rfl
  | rest => exact hsame rfl id

theorem Act.nodes (h : m.Act d m') (hplaced : m.Placed) (hi : i < m.stations.length) :
    (m'.station i).node = (m.station i).node := by
  cases h with
  | @turn t ready =>
    obtain ⟨es, hcourse, -⟩ := flows_run hplaced t
    exact hcourse.nodes.2 hi
  | cancel task => rw [station, stations_abort, station]
  | _ => rfl

end Mesh

end ClusterMesh
