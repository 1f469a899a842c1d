import ClusterMesh.Proofs.Delivery.Waiting

/-!
# Turns in which a command goes out and comes back

The turn in which a call sends its command, the turn in which a handler answers it, and the turn in
which a correlator takes the answer in.
-/

namespace ClusterMesh

/-- An enabled handler answers the commands of a type at once. -/
def Station.AnswersBy (s : Station) (commandType resultType : String) : Prop :=
  ∃ id h, s.lookup? commandType = some id ∧ s.registry.handler? id = some h ∧
    h.role = .answerer resultType ⟨0, .succeeds⟩

/-- An enabled correlator takes in the results of a type. -/
def Station.Correlates (s : Station) (resultType : String) : Prop :=
  ∃ id h, s.lookup? resultType = some id ∧ s.registry.handler? id = some h ∧ h.role = .correlator

/-- The work on a message for which no handler was found that has to wait. -/
def Job.IsSought (job : Job) : Prop := ∀ id due, job.stage ≠ .handling id due

namespace Mesh

variable {m m' : Mesh} {r : Registration} {p : Pending} {L : List Registration}
variable {t i v : Nat} {c : Command} {resultType : String} {result : CommandResult}

theorem produce_of_forced {message : Message} (hforced : message.isForced = true)
    (hopen : (m.station i).producer.refusal = none) :
    m.produce i message = (m.publish (message.stamped (m.station i).node), .ok true) := by
  simp [produce, Station.sends, hforced, hopen]

/-! ### A call sends its command -/

theorem producer_updateStore (m : Mesh) (i : Nat) (f : PendingStore → PendingStore) (j : Nat) :
    ((m.updateStore i f).station j).producer = (m.station j).producer ∧
      ((m.updateStore i f).station j).node = (m.station j).node := by
  rw [updateStore, station_updateStation]
  split
  · next h => exact h.1 ▸ ⟨rfl, rfl⟩
  · exact ⟨rfl, rfl⟩

theorem producer_enter (m : Mesh) (t i : Nat) (c : Command) (j : Nat) :
    ((m.enter t i c).1.station j).producer = (m.station j).producer ∧
      ((m.enter t i c).1.station j).node = (m.station j).node := by
  have hstation : ∀ (m : Mesh) (i k j : Nat), (m.wakeCaller i k).station j = m.station j :=
    fun m i k j => by rw [station, stations_wakeCaller, station]
  have htimeOut : ∀ (m : Mesh) (k : Nat), ((m.timeOut i k).1.station j).producer =
      (m.station j).producer ∧ ((m.timeOut i k).1.station j).node = (m.station j).node := by
    intro m k
    simp only [timeOut]
    split
    · rw [hstation]
      exact producer_updateStore m i _ j
    · exact producer_updateStore m i _ j
  have hstore := producer_updateStore m i
    (fun _ => (((m.station i).store.issue c).1.put c.id ((m.station i).store.issue c).2).1) j
  simp only [enter, register]
  split
  · next k _ =>
    have hout := htimeOut (m.updateStore i fun _ =>
      (((m.station i).store.issue c).1.put c.id ((m.station i).store.issue c).2).1) k
    exact ⟨hout.1.trans hstore.1, hout.2.trans hstore.2⟩
  · exact hstore

theorem bus_enter (m : Mesh) (t i : Nat) (c : Command) : (m.enter t i c).1.bus = m.bus := by
  simp only [enter, register]
  split
  · next k _ =>
    show ((m.updateStore i _).timeOut i k).1.bus = m.bus
    simp only [timeOut]
    split
    · rw [bus_wakeCaller]
      rfl
    · rfl
  · rfl

theorem enter_snd (m : Mesh) (t i : Nat) (c : Command) : ((m.taken t).enter t i c).2 =
    ((m.registration t i c).ticket, (m.registration t i c).reaper) := by
  simp only [enter, register, spawn]
  split
  · exact Prod.ext rfl (by simp [registration])
  · exact Prod.ext rfl (by simp [registration])

theorem run_of_accepted (htask : m.tasks[t]? = some ⟨i, .executing c .submitted, false⟩)
    (haccepted : refusal? (m.station i) c = none) : (m.taken t).run t =
      ((m.taken t).enter t i (c.stamped (m.station i).node)).1.send t i
        (c.stamped (m.station i).node)
        (m.registration t i (c.stamped (m.station i).node)).ticket
        (m.registration t i (c.stamped (m.station i).node)).timeout
        (m.registration t i (c.stamped (m.station i).node)).reaper := by
  have hsnd := enter_snd m t i (c.stamped (m.station i).node)
  have hrefusal : refusal? ((m.taken t).station i) c = none := haccepted
  simp only [run, tasks_taken, htask, if_false, Bool.false_eq_true, runCall, submit, hrefusal]
  have hstation : (m.taken t).station i = m.station i := rfl
  rw [hstation, hsnd]
  rfl

theorem send_of_open {k timeout reaper : Nat} (hopen : (m.station i).producer.refusal = none)
    (hstamped : c.stamped (m.station i).node = c) (hp : (m.store i).command? k = some p)
    (hawaited : p.delivery = .awaited) (hlater : 0 < timeout) :
    m.send t i c k timeout reaper =
      (m.publish (.command c)).beginWaiting t c k (m.now + timeout) reaper := by
  have hproduce : m.produce i (.command c) = (m.publish (.command c), .ok true) := by
    have hmessage : (Message.command c).stamped (m.station i).node = .command c :=
      congrArg Message.command hstamped
    rw [produce_of_forced rfl hopen, hmessage]
  rw [send, hproduce]
  exact awaitResults_of_early hp hawaited (Nat.lt_add_of_pos_right hlater)

theorem pends_send {guard : Task} (hl : Ledger m L) (hr : r ∈ L)
    (ht : Tracks m r (.ofCommand r.command) ⟨r.station, .executing r.command
      (.sending r.ticket r.timeout r.reaper), false⟩ guard)
    (hinstant : m.now = r.instant) (hopen : (m.station r.station).producer.refusal = none)
    (hstamped : r.command.stamped (m.station r.station).node = r.command)
    (hlater : 0 < r.timeout)
    (hnodes : ∀ nodes, r.command.destination = some nodes → 0 < nodes.size) :
    (∃ p, (m.send r.caller r.station r.command r.ticket r.timeout r.reaper).Pends r p) ∧
      (m.send r.caller r.station r.command r.ticket r.timeout r.reaper).bus =
        (m.bus.publish (.command r.command)).1 := by
  have hsend : m.send r.caller r.station r.command r.ticket r.timeout r.reaper =
      (m.publish (.command r.command)).beginWaiting r.caller r.command r.ticket
        (m.now + r.timeout) r.reaper := send_of_open hopen hstamped ht.pending rfl hlater
  obtain ⟨es, hpath, -⟩ := (plainly_send ht.caller_at).path
  obtain ⟨L', hl', hmem⟩ := hpath.ledger hl
  obtain ⟨p, caller, guard', ht'⟩ := hl'.tracked (hmem hr)
  rw [hsend] at hl' ht' ⊢
  have hcaller : ((m.publish (.command r.command)).beginWaiting r.caller r.command r.ticket
      (m.now + r.timeout) r.reaper).tasks[r.caller]? = some ⟨r.station, .executing r.command
        (.waiting r.ticket (r.instant + r.timeout) r.reaper), false⟩ := by
    rw [beginWaiting, tasks_setAlarm, tasks_setActivity, if_pos rfl, hinstant]
    show m.tasks[r.caller]?.map _ = _
    rw [ht.caller_at]
    rfl
  have hpending : ((m.publish (.command r.command)).beginWaiting r.caller r.command r.ticket
      (m.now + r.timeout) r.reaper).pending r = some (.ofCommand r.command) := ht.pending
  obtain rfl := Option.some.inj (ht'.caller_at.symm.trans hcaller)
  obtain rfl : p = .ofCommand r.command := Option.some.inj (ht'.pending.symm.trans hpending)
  refine ⟨⟨_, ⟨L', guard', hl', hmem hr, ht'⟩, ?_, ?_, fun hc => by cases hc⟩, rfl⟩
  · intro entry hentry
    cases hentry
  · rintro - ⟨expected, hexpected, hle⟩
    have hzero : expected ≤ 0 := hle
    obtain ⟨nodes, hdestination, rfl⟩ := Option.map_eq_some_iff.mp hexpected
    have hpositive := hnodes nodes hdestination
    omega

/-- A call that is accepted publishes its command in its first turn and waits. -/
theorem pends_submit (hl : Ledger m L) (hready : m.IsReady t)
    (htask : m.tasks[t]? = some ⟨i, .executing c .submitted, false⟩) (hi : i < m.stations.length)
    (haccepted : refusal? (m.station i) c = none)
    (hopen : (m.station i).producer.refusal = none) (hlater : 0 < (m.station i).timeoutOf c)
    (hnodes : ∀ nodes, c.destination = some nodes → 0 < nodes.size) :
    (∃ p, ((m.taken t).run t).Pends (m.registration t i (c.stamped (m.station i).node)) p) ∧
      ((m.taken t).run t).bus =
        (m.bus.publish (.command (c.stamped (m.station i).node))).1 := by
  have hstep : m.Step (.registers (m.registration t i (c.stamped (m.station i).node)))
      ((m.taken t).enter t i (c.stamped (m.station i).node)).1 := .enter hready htask hi haccepted
  have hupkeep := hstep.upkeep hl
  have htracks := (hupkeep.enrolled rfl).2
  obtain ⟨hproducer, hnode⟩ := producer_enter (m.taken t) t i (c.stamped (m.station i).node) i
  have hbus := bus_enter (m.taken t) t i (c.stamped (m.station i).node)
  have hinstant : ((m.taken t).enter t i (c.stamped (m.station i).node)).1.now = m.now := by
    cases htracks.reaper_stands with
    | starting ready now => exact now
  have hstamped : (c.stamped (m.station i).node).stamped
      (((m.taken t).enter t i (c.stamped (m.station i).node)).1.station i).node =
        c.stamped (m.station i).node := by
    rw [hnode]
    rfl
  obtain ⟨hpends, hpublished⟩ := pends_send hupkeep.ledger
    (List.mem_append_right _ List.mem_cons_self) htracks hinstant (hproducer ▸ hopen) hstamped
    hlater hnodes
  rw [hbus] at hpublished
  rw [run_of_accepted htask haccepted]
  exact ⟨hpends, hpublished⟩

/-! ### A handler answers a command -/

/-- A result is published, and apart from that nothing new comes anywhere. -/
structure Replied (m : Mesh) (result : CommandResult) (m' : Mesh) : Prop where
  flows : ∃ m₁, m.Calm m₁ ∧ (m₁.publish (.result result)).Calm m'
  bus : m'.bus = (m.bus.publish (.result result)).1

theorem seekHandler_of_answers (hanswers : (m.station i).AnswersBy c.commandType resultType)
    (hopen : (m.station i).producer.refusal = none) (deadline : Nat) :
    ∃ h, m.seekHandler t i (.command c) deadline =
      (((m.note h (.command c)).publish
        (.result (scriptedResult (m.station i).node resultType c))).updateDispatcher i
          (fun d => d.finish (countedAs .succeeded)), none) := by
  obtain ⟨id, h, hlookup, hhandler, hrole⟩ := hanswers
  have hwait : m.waitOf i id (.command c) = 0 := by
    simp only [waitOf, hhandler, Option.map_some, Option.getD_some, Handler.wait, hrole]
  have hlookup' : (m.station i).lookup? (Message.command c).eventType = some id := hlookup
  have hanswer : ((m.note h (.command c)).station i).producer.refusal = none := hopen
  have hstamped : (Message.result (scriptedResult (m.station i).node resultType c)).stamped
      ((m.note h (.command c)).station i).node =
        .result (scriptedResult (m.station i).node resultType c) := rfl
  have hreply : (m.note h (.command c)).reply i (scriptedResult (m.station i).node resultType c) =
      ((m.note h (.command c)).publish
        (.result (scriptedResult (m.station i).node resultType c)), .succeeded) := by
    have hforced : (Message.result (scriptedResult (m.station i).node resultType c)).isForced = true :=
      rfl
    simp only [reply, produce_of_forced hforced hanswer, hstamped]
  have hhandle : m.handle i id (.command c) = ((m.note h (.command c)).publish
      (.result (scriptedResult (m.station i).node resultType c)), .succeeded) := by
    simp only [handle, hhandler, handleNow, hrole]
    exact hreply
  refine ⟨h, ?_⟩
  simp only [seekHandler, hlookup', hwait, if_true, concludeJob, hhandle]

theorem seekHandler_of_none (hlookup : (m.station i).lookup? c.commandType = none)
    (deadline : Nat) : m.Calm (m.seekHandler t i (.command c) deadline).1 ∧
      ∀ job ∈ (m.seekHandler t i (.command c) deadline).2, job.IsSought := by
  have hlookup' : (m.station i).lookup? (Message.command c).eventType = none := hlookup
  simp only [seekHandler, hlookup']
  split
  · refine ⟨calm_setAlarm m _ t, fun job hjob => ?_⟩
    cases hjob
    exact fun id due heq => by cases heq
  · exact ⟨calm_count m i .unhandled, fun job hjob => by cases hjob⟩

theorem run_of_dispatching {job : Job} (htask : m.tasks[t]? = some ⟨i, .dispatching job, false⟩) :
    (m.taken t).run t = (m.taken t).runDispatch t i job := by
  simp only [run, tasks_taken, htask, if_false, Bool.false_eq_true]

theorem calm_taken (m : Mesh) (t : Nat) : m.Calm (m.taken t) := calm_of_eq rfl rfl id

theorem Replied.calm (h : m.Replied result m') {m'' : Mesh} (hcalm : m'.Calm m'')
    (hbus : m''.bus = m'.bus) : m.Replied result m'' := by
  obtain ⟨m₁, hbefore, hafter⟩ := h.flows
  exact ⟨⟨m₁, hbefore, hafter.trans hcalm⟩, hbus.trans h.bus⟩

theorem replied_seek (hanswers : (m.station i).AnswersBy c.commandType resultType)
    (hopen : (m.station i).producer.refusal = none) (deadline : Nat) :
    m.Replied (scriptedResult (m.station i).node resultType c)
        ((m.taken t).seekHandler t i (.command c) deadline).1 ∧
      ((m.taken t).seekHandler t i (.command c) deadline).2 = none := by
  obtain ⟨h, hseek⟩ := seekHandler_of_answers (m := m.taken t) (t := t) hanswers hopen deadline
  rw [hseek]
  refine ⟨⟨⟨(m.taken t).note h (.command c), ?_, calm_count _ i (countedAs .succeeded)⟩, rfl⟩, rfl⟩
  exact (calm_taken m t).trans (calm_of_eq rfl rfl id)

/-- The work on a command ends with the answer, or it goes on or ends without anything new. -/
theorem stepJob_of_sought {job : Job} (hmessage : job.message = .command c)
    (hsought : job.IsSought) (hopen : (m.station i).producer.refusal = none)
    (hhandler : (m.station i).AnswersBy c.commandType resultType ∨
      (m.station i).lookup? c.commandType = none) :
    m.Calm ((m.taken t).stepJob t i job).1 ∧
        (∀ job' ∈ ((m.taken t).stepJob t i job).2, job'.IsSought) ∨
      (m.station i).AnswersBy c.commandType resultType ∧
        m.Replied (scriptedResult (m.station i).node resultType c)
          ((m.taken t).stepJob t i job).1 ∧
        ((m.taken t).stepJob t i job).2 = none := by
  have hseek : ∀ deadline,
      m.Calm ((m.taken t).seekHandler t i job.message deadline).1 ∧
          (∀ job' ∈ ((m.taken t).seekHandler t i job.message deadline).2, job'.IsSought) ∨
        (m.station i).AnswersBy c.commandType resultType ∧
          m.Replied (scriptedResult (m.station i).node resultType c)
            ((m.taken t).seekHandler t i job.message deadline).1 ∧
          ((m.taken t).seekHandler t i job.message deadline).2 = none := by
    intro deadline
    rw [hmessage]
    rcases hhandler with hanswers | hnone
    · exact Or.inr ⟨hanswers, replied_seek hanswers hopen deadline⟩
    · obtain ⟨hcalm, hjob⟩ := seekHandler_of_none (m := m.taken t) (t := t) hnone deadline
      exact Or.inl ⟨(calm_taken m t).trans hcalm, hjob⟩
  unfold stepJob
  split
  · exact hseek _
  · split
    · refine Or.inl ⟨calm_taken m t, fun job' hjob => ?_⟩
      obtain rfl := Option.some.inj hjob
      exact hsought
    · exact hseek _
  · next id due heq => exact absurd heq (hsought id due)

theorem activity_of_setActivity {task task' : Task} {a : Activity}
    (htask : m.tasks[t]? = some task) (htasks : m'.tasks = m.tasks)
    (hafter : (m'.setActivity t a).tasks[t]? = some task') : task'.activity = a := by
  rw [tasks_setActivity, if_pos rfl, htasks, htask] at hafter
  obtain rfl := Option.some.inj hafter
  rfl

theorem runDispatch_of_sought {job : Job} (htask : m.tasks[t]? = some ⟨i, .dispatching job, false⟩)
    (hi : i < m.stations.length) (hmessage : job.message = .command c) (hsought : job.IsSought)
    (hopen : (m.station i).producer.refusal = none)
    (hhandler : (m.station i).AnswersBy c.commandType resultType ∨
      (m.station i).lookup? c.commandType = none) :
    (m.Calm ((m.taken t).runDispatch t i job) ∨ (m.station i).AnswersBy c.commandType resultType ∧
      m.Replied (scriptedResult (m.station i).node resultType c)
        ((m.taken t).runDispatch t i job)) ∧
    ∀ {task}, ((m.taken t).runDispatch t i job).tasks[t]? = some task →
      task.activity.held ≠ none → ∃ job, task.activity = .dispatching job ∧ job.IsSought := by
  have hstep := stepJob_of_sought (t := t) hmessage hsought hopen hhandler
  have htasks : ((m.taken t).stepJob t i job).1.tasks = m.tasks := tasks_stepJob (m.taken t) t i job
  have hsame : ∀ job' ∈ ((m.taken t).stepJob t i job).2, job'.message = job.message :=
    fun job' hjob' => message_stepJob hjob'
  unfold runDispatch
  generalize (m.taken t).stepJob t i job = after at *
  obtain ⟨m', job'⟩ := after
  cases job' with
  | none =>
    refine ⟨?_, fun hafter hne => ?_⟩
    · rcases hstep with ⟨hcalm, -⟩ | ⟨hanswers, hreplied, -⟩
      · exact Or.inl (hcalm.trans (calm_finish m' t _))
      · exact Or.inr ⟨hanswers, hreplied.calm (calm_finish m' t _) rfl⟩
    · have hended := activity_of_setActivity htask htasks hafter
      rw [hended] at hne
      exact absurd rfl hne
  | some job' =>
    rcases hstep with ⟨hcalm, hjob⟩ | ⟨-, -, hnone⟩
    · have htask' : m'.tasks[t]? = some ⟨i, .dispatching job, false⟩ := by
        rw [show m'.tasks = m.tasks from htasks, htask]
      have hheld : m.Holds i job.message := ⟨hi, Or.inl ⟨t, _, htask, rfl, rfl⟩⟩
      refine ⟨Or.inl (hcalm.setActivity htask' ?_ (fun h => by cases h)),
        fun hafter _ => ⟨job', activity_of_setActivity htask htasks hafter, hjob job' rfl⟩⟩
      intro message heq
      cases heq
      rw [hsame job' rfl]
      exact hheld
    · cases hnone

theorem run_of_sought {job : Job} {aborted : Bool}
    (htask : m.tasks[t]? = some ⟨i, .dispatching job, aborted⟩) (hi : i < m.stations.length)
    (hmessage : job.message = .command c) (hsought : job.IsSought)
    (hopen : (m.station i).producer.refusal = none)
    (hhandler : (m.station i).AnswersBy c.commandType resultType ∨
      (m.station i).lookup? c.commandType = none) :
    (m.Calm ((m.taken t).run t) ∨ (m.station i).AnswersBy c.commandType resultType ∧
      m.Replied (scriptedResult (m.station i).node resultType c) ((m.taken t).run t)) ∧
    ∀ {task}, ((m.taken t).run t).tasks[t]? = some task → task.activity.held ≠ none →
      ∃ job, task.activity = .dispatching job ∧ job.IsSought := by
  cases aborted with
  | true =>
    rw [run_of_aborted (m := m.taken t) htask not_false]
    refine ⟨Or.inl ((calm_taken m t).trans (calm_drop _ t i _)), fun hafter hne => ?_⟩
    have hended := activity_of_setActivity htask
      (show (m.taken t).tasks = m.tasks from rfl) hafter
    rw [hended] at hne
    exact absurd rfl hne
  | false =>
    rw [run_of_dispatching htask]
    exact runDispatch_of_sought htask hi hmessage hsought hopen hhandler

theorem replied_of_begins (h : m.Begins v i (.command c))
    (hanswers : (m.station i).AnswersBy c.commandType resultType)
    (hopen : (m.station i).producer.refusal = none) :
    m.Replied (scriptedResult (m.station i).node resultType c) ((m.taken v).run v) := by
  obtain ⟨hreplied, hnone⟩ := replied_seek (t := v) hanswers hopen
    ((m.taken v).now + ((m.taken v).station i).dispatcher.timeout)
  rw [run_of_dispatching h.task]
  simp only [runDispatch, stepJob]
  generalize (m.taken v).seekHandler v i (.command c) _ = after at hreplied hnone ⊢
  obtain ⟨m', job'⟩ := after
  obtain rfl : job' = none := hnone
  obtain ⟨m₁, hbefore, hafter⟩ := hreplied.flows
  exact ⟨⟨m₁, hbefore, hafter.trans (calm_finish m' v _)⟩, hreplied.bus⟩

/-! ### A correlator takes the answer in -/

theorem handle_of_correlates {id : HandlerId} {h : Handler}
    (hhandler : (m.station i).registry.handler? id = some h) (hrole : h.role = .correlator)
    (result : CommandResult) :
    m.waitOf i id (.result result) = 0 ∧
      m.handle i id (.result result) = ((m.correlate i result).1, .succeeded) := by
  refine ⟨?_, ?_⟩
  · simp only [waitOf, hhandler, Option.map_some, Option.getD_some, Handler.wait, hrole]
  · simp only [handle, hhandler, handleNow, hrole]

theorem run_of_correlates (h : m.Begins v i (.result result))
    (hcorrelates : (m.station i).Correlates result.resultType) :
    (m.taken v).run v = (((m.taken v).correlate i result).1.updateDispatcher i
      (fun d => d.finish (countedAs .succeeded))).finish v .done := by
  obtain ⟨id, handler, hlookup, hhandler, hrole⟩ := hcorrelates
  obtain ⟨hwait, hhandle⟩ := handle_of_correlates (m := m.taken v) hhandler hrole result
  have hlookup' : ((m.taken v).station i).lookup? (Message.result result).eventType = some id :=
    hlookup
  rw [run_of_dispatching h.task]
  simp only [runDispatch, stepJob, seekHandler, hlookup', hwait, if_true, concludeJob, hhandle]

theorem Pends.correlated (h : m.Pends r p) (hbegins : m.Begins v r.station (.result result))
    (hcorrelates : (m.station r.station).Correlates result.resultType)
    (hid : result.id = r.command.id) {source : String} (hsource : result.sourceId = some source)
    (ho : p.completed = false) :
    ∃ p', ((m.taken v).run v).Pends r p' ∧ (∀ id ∈ p.results.keys, id ∈ p'.results.keys) ∧
      source ∈ p'.results.keys := by
  have hne : r.caller ≠ v := by
    intro heq
    have hcaller := h.caller_at
    rw [heq, hbegins.task] at hcaller
    cases hcaller
  have hplaced : r.station < (m.taken v).stations.length := placed_of_pending h.pending.1
  have hlive : ∀ {m' : Mesh}, m'.tasks[r.caller]? = m.tasks[r.caller]? → m'.IsUnderWay r :=
    fun hsame => ⟨_, hsame.trans h.caller_at, trivial⟩
  have hfree : m.IsFree v := ⟨_, hbegins.task, not_false, not_false⟩
  have htasks := tasks_correlate (m.taken v) r.station result
  obtain ⟨p₁, hp₁, hkeys₁⟩ := (plainly_taken fun htask htimed =>
    (hfree.of_task htask).1 htimed.isEngaged).pends h (hlive rfl)
  have hsame : p₁ = p := Option.some.inj (hp₁.pending.1.symm.trans h.pending.1)
  obtain ⟨L, guard, hl, hr, ht⟩ := hp₁.tracked
  have hstored := (ht.guarded (hsame ▸ ho) (Activity.IsEngaged.not_hasFailed trivial)).1
  have hstep : (m.taken v).Step (.correlates r.station result)
      ((m.taken v).correlate r.station result).1 := .correlate result hplaced
  obtain ⟨p₂, hp₂, hkeys₂⟩ := hp₁.step hstep
    ⟨fun heq => (by cases heq), fun heq => (by cases heq)⟩ (hlive (by rw [htasks]; rfl))
  have hmem : source ∈ p₂.results.keys := by
    have hadded := Results.mem_keys_add.mpr (Or.inr hsource : source ∈ p₁.results.keys ∨ _)
    rcases hstep.collects (hl.sound _) hp₁.pending.1 hstored hid with ⟨-, hnext⟩ | ⟨-, hnext⟩
    · obtain rfl := Option.some.inj (hp₂.pending.1.symm.trans hnext)
      exact hadded
    · obtain rfl := Option.some.inj (hp₂.pending.1.symm.trans hnext)
      exact hadded
  rw [run_of_correlates hbegins hcorrelates]
  have hcount := serves_updateDispatcher ((m.taken v).correlate r.station result).1 r.station
    fun d => d.finish (countedAs .succeeded)
  have hfree' : (((m.taken v).correlate r.station result).1.updateDispatcher r.station
      (fun d => d.finish (countedAs .succeeded))).IsFree v := hfree.of_tasks htasks
  obtain ⟨p₃, hp₃, hkeys₃⟩ := (hcount.plainly.trans (plainly_finish hfree' .done)).pends hp₂ (hlive
    (by rw [tasks_finish, tasks_setActivity, if_neg hne]; exact congrArg (·[r.caller]?) htasks))
  exact ⟨p₃, hp₃, fun id hid => hkeys₃ id (hkeys₂ id (hkeys₁ id hid)), hkeys₃ _ hmem⟩

end Mesh

end ClusterMesh
