import ClusterMesh.Proofs.Delivery.Replying

/-!
# Errands

A station calls others on a mesh where every station listens and some of them answer. Whatever
else is done meanwhile has nothing to do with the id of the command at the origin. As long as the
call has not ended, all that is about under its id is its command and the answers to it.
-/

namespace ClusterMesh

/-- The source node of a command, if it has one, has the id of the node. -/
def Command.MayComeFrom (c : Command) (node : Node) : Prop :=
  ∀ n, c.event.sourceNode = some n → n.id = node.id

namespace Permits

/-- At its origin only certain commands of an id are submitted and sent, and only certain results
come back. -/
def around (id : String) (origin : Nat) (node : Nat → Node) (submitted sent : Command → Prop)
    (answers : CommandResult → Prop) : Permits where
  travels
    | .event _ => True
    | .command c => c.id = id → c.MayComeFrom (node origin) → sent c
    | .result r => r.id = id → r.event.isAddressedTo (node origin) = true → answers r
  held i
    | .event _ => True
    | .command c => c.id = id → c.MayComeFrom (node origin) →
        sent c ∧ c.event.isAddressedTo (node i) = true
    | .result r => i = origin → r.id = id → answers r
  submitted i c := c.id = id → i = origin ∧ submitted c ∨
    i ≠ origin ∧ ∀ n, c.event.sourceNode = some n → n.id ≠ (node origin).id
  executed i c := c.id = id → i = origin ∧ sent c ∨ i ≠ origin ∧ ¬c.MayComeFrom (node origin)
  recorded i r := i = origin → r.id = id → answers r

/-- Nothing of an id is about at its origin. -/
def without (id : String) (origin : Nat) (node : Nat → Node) : Permits :=
  around id origin node (fun _ => False) (fun _ => False) fun _ => False

theorem without_le {id : String} {origin : Nat} {node : Nat → Node}
    {submitted sent : Command → Prop} {answers : CommandResult → Prop} :
    (without id origin node).Le (around id origin node submitted sent answers) where
  travels := by
    intro message h
    cases message with
    | event e => trivial
    | command c => exact fun hid hfrom => (h hid hfrom).elim
    | result r => exact fun hid haddressed => (h hid haddressed).elim
  held := by
    intro i message h
    cases message with
    | event e => trivial
    | command c => exact fun hid hfrom => (h hid hfrom).1.elim
    | result r => exact fun hi hid => (h hi hid).elim
  submitted := fun h hid => (h hid).imp_left fun hnone => hnone.2.elim
  executed := fun h hid => (h hid).imp_left fun hnone => hnone.2.elim
  recorded := fun h hi hid => (h hi hid).elim

end Permits

/-- How the stations stand while a command is under way: they accept messages, at some of them a
handler answers the commands of its type, at the others there is none, and its origin accepts it and
takes the answers in. No subscriber lags. -/
structure Mesh.Arranged (m : Mesh) (origin : Nat) (c : Command) (resultType : String)
    (answering : Nat → Prop) (timeout : Nat) : Prop where
  cached : ∀ i < m.stations.length, (m.station i).dispatcher.pool = .cached
  running : ∀ i < m.stations.length, (m.station i).dispatcher.closed = false
  sends : ∀ i < m.stations.length, (m.station i).producer.refusal = none
  answers : ∀ i < m.stations.length, answering i →
    (m.station i).AnswersBy c.commandType resultType
  silent : ∀ i < m.stations.length, ¬answering i → (m.station i).lookup? c.commandType = none
  correlates : (m.station origin).Correlates resultType
  accepts : Mesh.refusal? (m.station origin) c = none
  timeout : (m.station origin).timeoutOf c = timeout
  prompt : ∀ {t i s : Nat} {aborted : Bool},
    m.tasks[t]? = some ⟨i, .receiving (some s), aborted⟩ → ¬m.bus.Lags s

/-- A call and what is done from its beginning on, in any order in which no task that can run waits
for ever. At the origin nothing of the id is about when it begins, and nothing comes in later but
through the call itself. -/
structure Errand where
  before : Mesh
  origin : Nat
  command : Command
  resultType : String
  answering : Nat → Prop
  timeout : Nat
  state : Nat → Mesh
  deed : Nat → Deed
  -- every station listens, and at the origin nothing of the id is about
  reached : before.Reached
  placed : origin < before.stations.length
  distinct : before.HasDistinctNodes
  listening : ∀ i < before.stations.length,
    ∃ t s : Nat, before.tasks[t]? = some ⟨i, .receiving (some s), false⟩
  unstaffed : before.Unstaffed
  unused : before.Carries (.without command.id origin fun i => (before.station i).node)
  -- the nodes of a destination are stations that answer
  positive : 0 < timeout
  sourceless : command.event.sourceNode = none
  asked : ∀ nodes, command.destination = some nodes → nodes.keys ≠ [] ∧
    ∀ id ∈ nodes.keys, ∃ i < before.stations.length,
      answering i ∧ (before.station i).node.id = id
  -- what is done from the call on, and what others leave alone
  start : state 0 = (before.execute origin command).1
  act : ∀ n, (state n).Act (deed n) (state (n + 1))
  fair : ∀ {n t}, (state n).IsReady t → ∃ k, n ≤ k ∧ deed k = .runs t
  arranged : ∀ n, (state n).hasEnded before.tasks.length = false →
    (state n).Arranged origin command resultType answering timeout
  executes : ∀ {n i c}, deed n = .executes i c →
    (Permits.without command.id origin fun i => (before.station i).node).submitted i c
  publishes : ∀ {n message}, deed n = .publishes message →
    (Permits.without command.id origin fun i => (before.station i).node).travels message
  uncancelled : ∀ n, deed n ≠ .cancels before.tasks.length

namespace Errand

open Mesh

variable {h : Errand} {n k i t : Nat} {p : Pending}

def caller (h : Errand) : Nat := h.before.tasks.length

def node (h : Errand) (i : Nat) : Node := (h.before.station i).node

/-- The command as it is sent. -/
def sent (h : Errand) : Command := h.command.stamped (h.node h.origin)

def reply (h : Errand) (i : Nat) : CommandResult :=
  scriptedResult (h.node i) h.resultType h.sent

/-- A station that answers the command, which is addressed to it. -/
structure Target (h : Errand) (i : Nat) : Prop where
  placed : i < h.before.stations.length
  answering : h.answering i
  addressed : h.sent.event.isAddressedTo (h.node i) = true

def permits (h : Errand) : Permits :=
  .around h.command.id h.origin h.node (· = h.command) (· = h.sent)
    fun r => ∃ i, h.Target i ∧ r = h.reply i

def Over (h : Errand) (n : Nat) : Prop := (h.state n).hasEnded h.caller = true

/-! ### What holds throughout -/

structure Sound (h : Errand) (n : Nat) : Prop where
  placed : (h.state n).Placed
  ledger : ∃ L, Ledger (h.state n) L
  unstaffed : (h.state n).Unstaffed
  wired : (h.state n).Wired
  stations : (h.state n).stations.length = h.before.stations.length
  node : ∀ {i}, i < h.before.stations.length → ((h.state n).station i).node = h.node i
  listening : ∀ {i}, i < h.before.stations.length →
    ∃ t s : Nat, (h.state n).tasks[t]? = some ⟨i, .receiving (some s), false⟩

theorem placed_before (h : Errand) : h.before.Placed := by
  obtain ⟨capacity, hleads⟩ := h.reached.leads
  exact hleads.placed fun _ => List.not_mem_nil.elim

theorem tasks_start (h : Errand) (u : Nat) : (h.state 0).tasks[u]? = if u = h.caller then
    some ⟨h.origin, .executing h.command .submitted, false⟩ else h.before.tasks[u]? := by
  rw [h.start]
  exact tasks_spawn ..

theorem task_start (h : Errand) {u : Nat} {task : Task} (htask : h.before.tasks[u]? = some task) :
    (h.state 0).tasks[u]? = some task := by
  obtain ⟨hlt, -⟩ := List.getElem?_eq_some_iff.mp htask
  exact (h.tasks_start u).trans ((if_neg (Nat.ne_of_lt hlt)).trans htask)

theorem turn_of_runs (hruns : h.deed n = .runs t) :
    (h.state n).IsReady t ∧ h.state (n + 1) = ((h.state n).taken t).run t := by
  have hact := h.act n
  rw [hruns] at hact
  generalize h.state (n + 1) = next at hact
  cases hact with
  | turn ready => exact ⟨ready, rfl⟩

theorem listens_succ (hs : h.Sound n) (hi : i < h.before.stations.length) {s : Nat}
    (htask : (h.state n).tasks[t]? = some ⟨i, .receiving (some s), false⟩) :
    (h.state (n + 1)).tasks[t]? = some ⟨i, .receiving (some s), false⟩ := by
  obtain ⟨L, hl⟩ := hs.ledger
  by_cases hruns : h.deed n = .runs t
  · rw [(turn_of_runs hruns).2, run_of_receiving htask]
    exact (serves_drainBus (m := (h.state n).taken t) (hs.stations ▸ hi) s _).task htask
  · exact (h.act n).task_of_uncalled hl htask not_false (fun _ _ heq => by cases heq) hruns

theorem sound (h : Errand) (n : Nat) : h.Sound n := by
  induction n with
  | zero =>
    obtain ⟨H, q, hstate⟩ := h.reached.history
    have hl : Ledger h.before (H.registered q) := hstate ▸ H.ledger q
    have hleads' := leads_execute h.placed h.command
    obtain ⟨es, hpath⟩ := hleads'.path
    obtain ⟨L, hl', -⟩ := hpath.ledger hl
    refine ⟨?_, ⟨L, ?_⟩, ?_, ?_, ?_, ?_, ?_⟩
    · rw [h.start]
      exact hleads'.placed h.placed_before
    · rw [h.start]
      exact hl'
    · intro u task htask hworker
      rw [h.tasks_start] at htask
      split at htask
      · obtain rfl := Option.some.inj htask
        exact hworker
      · exact h.unstaffed htask hworker
    · rw [h.start]
      exact h.reached.wired.spawn _ fun _ heq => by cases heq
    · rw [h.start]
      rfl
    · intro i _
      rw [h.start]
      rfl
    · intro i hi
      obtain ⟨t, s, htask⟩ := h.listening i hi
      exact ⟨t, s, h.task_start htask⟩
  | succ n ih =>
    obtain ⟨L, hl⟩ := ih.ledger
    obtain ⟨es, hpath⟩ := ((h.act n).leads ih.placed).path
    obtain ⟨L', hl', -⟩ := hpath.ledger hl
    have hstations := ((h.act n).wends ih.placed ih.unstaffed).stations
    refine ⟨((h.act n).leads ih.placed).placed ih.placed, ⟨L', hl'⟩, (h.act n).unstaffed hl
      ih.unstaffed, (h.act n).wired hl ih.wired, hstations.trans ih.stations, ?_, ?_⟩
    · intro i hi
      exact ((h.act n).nodes ih.placed (ih.stations ▸ hi)).trans (ih.node hi)
    · intro i hi
      obtain ⟨t, s, htask⟩ := ih.listening hi
      exact ⟨t, s, listens_succ ih hi htask⟩

/-! ### What is about under the id -/

theorem over_succ (ho : h.Over n) : h.Over (n + 1) := by
  obtain ⟨L, hl⟩ := (h.sound n).ledger
  obtain ⟨e, he⟩ := Option.isSome_iff_exists.mp ho
  obtain ⟨task, htask, hend⟩ := Option.bind_eq_some_iff.mp he
  obtain ⟨i, a, aborted⟩ := task
  cases a with
  | ended e =>
    have hafter : (h.state (n + 1)).tasks[h.caller]? = some ⟨i, .ended e, aborted⟩ := by
      by_cases hruns : h.deed n = .runs h.caller
      · rw [(turn_of_runs hruns).2, run_of_ended (m := (h.state n).taken h.caller) htask]
        exact htask
      · exact (h.act n).task hl htask not_false hruns (h.uncancelled n)
    rw [Over, hasEnded, taskEnd?, hafter]
    rfl
  | _ => cases hend

theorem over_le (ho : h.Over n) (hle : n ≤ k) : h.Over k := by
  induction hle with
  | refl => exact ho
  | step _ ih => exact over_succ ih

theorem sent_mayComeFrom (h : Errand) : h.sent.MayComeFrom (h.node h.origin) := by
  intro node hsource
  rw [sent, Command.stamped, Event.sourceNode_stamped, h.sourceless] at hsource
  obtain rfl := Option.some.inj hsource
  rfl

theorem node_injective {i j : Nat} (hi : i < h.before.stations.length)
    (hj : j < h.before.stations.length) (hid : (h.node i).id = (h.node j).id) : i = j :=
  h.distinct hi hj hid

theorem permits_stamp (h : Errand) {i : Nat} {c : Command} (hi : i < h.before.stations.length)
    (hc : h.permits.submitted i c) : h.permits.executed i (c.stamped (h.node i)) := by
  intro hid
  rcases hc hid with ⟨rfl, rfl⟩ | ⟨hne, hforeign⟩
  · exact Or.inl ⟨rfl, rfl⟩
  · -- elsewhere it keeps another source node, or gets that of a station with another id
    refine Or.inr ⟨hne, fun hfrom => ?_⟩
    have hsource := hfrom _ (Event.sourceNode_stamped c.event (h.node i))
    cases hc : c.event.sourceNode with
    | none =>
      rw [hc] at hsource
      exact hne (node_injective hi h.placed hsource)
    | some node =>
      rw [hc] at hsource
      exact hforeign node hc hsource

theorem permits_sends (h : Errand) {i : Nat} {c : Command} (hc : h.permits.executed i c) :
    h.permits.travels (.command (c.stamped (h.node i))) := by
  intro hid hfrom
  rcases hc hid with ⟨rfl, rfl⟩ | ⟨-, hforeign⟩
  · rfl
  · refine absurd (fun node hsource => ?_) hforeign
    refine hfrom node ?_
    rw [Command.stamped, Event.sourceNode_stamped, hsource]
    rfl

theorem permits_arrives (h : Errand) {i : Nat} {message : Message}
    (htravels : h.permits.travels message)
    (haddressed : message.header.isAddressedTo (h.node i) = true) : h.permits.held i message := by
  cases message with
  | event e => trivial
  | command c => exact fun hid hfrom => ⟨htravels hid hfrom, (htravels hid hfrom) ▸ haddressed⟩
  | result r =>
    rintro rfl hid
    exact htravels hid haddressed

/-- No answer to another command is mistaken for an answer to the command of the call. -/
theorem permits_answers (h : Errand) {i : Nat} {c : Command} {result : CommandResult}
    {node : Node} (hheld : h.permits.held i (.command c)) (hne : c ≠ h.sent)
    (hanswers : result.Answers c node) : h.permits.travels (.result result) := by
  intro hid haddressed
  obtain ⟨resultType, properties, hevent⟩ := hanswers
  -- an answer that is addressed to the origin names it as the source of its command
  refine absurd (hheld ?_ fun source hsource => ?_).1 hne
  · rw [← hid, CommandResult.id, hevent]
    rfl
  · rw [Event.isAddressedTo, hevent] at haddressed
    simp only [CommandResult.replyTo, hsource, Option.map_some, KeyedList.contains_iff,
      KeyedList.mem_keys_ofList, List.map_cons, List.map_nil, List.mem_singleton] at haddressed
    exact haddressed.symm

/-- What is about under the id as long as the call has not ended. -/
structure Clear (h : Errand) (n : Nat) : Prop where
  carries : (h.state n).Carries h.permits
  sole : ∀ {u : Nat} {c : Command} {stage : CallStage} {aborted : Bool}, u ≠ h.caller →
    (h.state n).tasks[u]? = some ⟨h.origin, .executing c stage, aborted⟩ → c.id ≠ h.command.id
  sought : ∀ {u : Nat} {task : Task}, (h.state n).tasks[u]? = some task →
    task.activity.held = some (.command h.sent) →
      ∃ job, task.activity = .dispatching job ∧ job.IsSought

theorem arranged_at (h : Errand) (ho : ¬h.Over n) :
    (h.state n).Arranged h.origin h.command h.resultType h.answering h.timeout :=
  h.arranged n (Bool.eq_false_iff.mpr ho)

theorem run_sent (hc : h.Clear n) (ho : ¬h.Over n) {task : Task}
    (htask : (h.state n).tasks[t]? = some task)
    (hheld : task.activity.held = some (.command h.sent)) :
    ((h.state n).Calm (((h.state n).taken t).run t) ∨
      ∃ i, h.Target i ∧ (h.state n).Replied (h.reply i) (((h.state n).taken t).run t)) ∧
    ∀ {task}, (((h.state n).taken t).run t).tasks[t]? = some task → task.activity.held ≠ none →
      ∃ job, task.activity = .dispatching job ∧ job.IsSought := by
  obtain ⟨job, hactivity, hsought⟩ := hc.sought htask hheld
  obtain ⟨i, a, aborted⟩ := task
  obtain rfl : a = .dispatching job := hactivity
  have hs := h.sound n
  have harranged := h.arranged_at ho
  have hi : i < (h.state n).stations.length := hs.placed.lt htask
  have hmessage : job.message = .command h.sent := Option.some.inj hheld
  have hholds : (h.state n).Holds i (.command h.sent) := ⟨hi, Or.inl ⟨t, _, htask, rfl, hheld⟩⟩
  have haddressed := (hc.carries.holds hholds rfl h.sent_mayComeFrom).2
  have hopen := harranged.sends i hi
  have hi' : i < h.before.stations.length := hs.stations ▸ hi
  have hhandler : ((h.state n).station i).AnswersBy h.sent.commandType h.resultType ∨
      ((h.state n).station i).lookup? h.sent.commandType = none := by
    by_cases hanswering : h.answering i
    · exact Or.inl (harranged.answers i hi hanswering)
    · exact Or.inr (harranged.silent i hi hanswering)
  obtain ⟨hrun, hafter⟩ := run_of_sought htask hi hmessage hsought hopen hhandler
  rw [hs.node hi'] at hrun
  refine ⟨hrun.imp_right fun hreplied => ⟨i, ⟨hi', ?_, haddressed⟩, hreplied.2⟩, hafter⟩
  by_contra hnot
  obtain ⟨id, handler, hlookup, -, -⟩ := hreplied.1
  cases hlookup.symm.trans (harranged.silent i hi hnot)

theorem allows (h : Errand) {m : Mesh} {e : Traffic}
    (hnode : ∀ {i}, i < m.stations.length → (m.station i).node = h.node i)
    (hanswers : ∀ i result, e ≠ .answers i h.sent result)
    (hbrings : (∀ i c, e ≠ .submits i c) ∧ ∀ message, e ≠ .injects message) :
    m.Allows h.permits h.permits e := by
  cases e with
  | submits i c => exact absurd rfl (hbrings.1 i c)
  | injects message => exact absurd rfl (hbrings.2 message)
  | sends i c =>
    rintro hi ⟨c', hc', rfl⟩
    rw [hnode hi]
    exact h.permits_sends hc'
  | arrives i message =>
    intro hi htravels haddressed
    rw [hnode hi] at haddressed
    exact h.permits_arrives htravels haddressed
  | answers i c result =>
    intro hi hheld
    exact h.permits_answers hheld fun heq => hanswers i result (heq ▸ rfl)
  | takesIn i result => exact fun _ hheld => hheld
  | calm => trivial

theorem carries_turn (hc : h.Clear n) (ho : ¬h.Over n) (hready : (h.state n).IsReady t) :
    (((h.state n).taken t).run t).Carries h.permits := by
  have hs := h.sound n
  have hstamp : ∀ {m : Mesh}, m.stations.length ≤ h.before.stations.length →
      (∀ {i}, i < h.before.stations.length → (m.station i).node = h.node i) →
      ∀ {i c}, i < m.stations.length → h.permits.submitted i c →
        h.permits.executed i (c.stamped (m.station i).node) := by
    intro m hlength hnode i c hi hsubmitted
    have hi' := Nat.lt_of_lt_of_le hi hlength
    rw [hnode hi']
    exact h.permits_stamp hi' hsubmitted
  have hlength : (((h.state n).taken t).run t).stations.length ≤ h.before.stations.length :=
    Nat.le_of_eq ((wends_run hs.placed hs.unstaffed hready).stations.trans hs.stations)
  -- only the turn of a task that works on the command may bring an answer to it
  by_cases hworks : ∃ task, (h.state n).tasks[t]? = some task ∧
      task.activity.held = some (.command h.sent)
  · obtain ⟨task, htask, hheld⟩ := hworks
    rcases (run_sent hc ho htask hheld).1 with hcalm | ⟨i, htarget, hreplied⟩
    · exact hc.carries.calm hcalm (hstamp (Nat.le_of_eq hs.stations) hs.node)
    · obtain ⟨m₁, hcalm, hafter⟩ := hreplied.flows
      have hcarries := hc.carries.calm hcalm (hstamp (Nat.le_of_eq hs.stations) hs.node)
      have htravels : h.permits.travels (.result (h.reply i)) := fun _ _ => ⟨i, htarget, rfl⟩
      refine (hcarries.publish htravels).calm hafter
        (hstamp (Nat.le_trans hafter.stations hlength) fun {j} hj => ?_)
      exact (hcalm.node (hs.stations ▸ hj)).trans (hs.node hj)
  · obtain ⟨es, hcourse, hes⟩ := flows_run hs.placed t
    refine hc.carries.course hcourse (hs.stations ▸ hlength)
      (hstamp (Nat.le_of_eq hs.stations) hs.node) fun {m₁ e} he hsame hnode => ?_
    obtain ⟨hmessage, hbrings⟩ := hes e he
    refine h.allows (fun {i} hi => ?_) ?_ hbrings
    · rw [hsame] at hi
      exact (hnode hi).trans (hs.node (hs.stations ▸ hi))
    · rintro i result rfl
      obtain ⟨task, htask, hheld | ⟨⟨job, hworker⟩, -⟩⟩ := hmessage _ rfl
      · exact hworks ⟨task, htask, hheld⟩
      · exact hs.unstaffed htask (by rw [hworker]; trivial)

theorem carries_succ (hc : h.Clear n) (ho : ¬h.Over n) :
    (h.state (n + 1)).Carries h.permits := by
  have hact := h.act n
  have hexecutes := @h.executes n
  have hpublishes := @h.publishes n
  generalize h.deed n = d at hact hexecutes hpublishes
  generalize h.state (n + 1) = next at hact
  cases hact with
  | turn ready => exact carries_turn hc ho ready
  | pass instant idle later first => exact hc.carries.of_eq rfl rfl id
  | execute c placed => exact hc.carries.execute (Permits.without_le.submitted (hexecutes rfl))
  | publish message => exact hc.carries.publish (Permits.without_le.travels (hpublishes rfl))
  | cancel task =>
    refine hc.carries.calm (calm_abort _ _) fun {i c} hi hsubmitted => ?_
    have hi' : i < h.before.stations.length := (h.sound n).stations ▸ hi
    rw [(h.sound n).node hi']
    exact h.permits_stamp hi' hsubmitted
  | rest => exact hc.carries

theorem clear_zero (h : Errand) : h.Clear 0 where
  carries := by
    rw [h.start]
    exact (h.unused.le Permits.without_le).execute fun _ => Or.inl ⟨rfl, rfl⟩
  sole := by
    intro u c stage aborted hne htask
    rw [h.tasks_start, if_neg hne] at htask
    intro hid
    by_cases hstage : stage = .submitted
    · subst hstage
      exact (h.unused.submits ⟨h.placed, u, aborted, htask⟩ hid).elim (fun hnone => hnone.2)
        fun hother => hother.1 rfl
    · exact (h.unused.executes ⟨h.placed, u, stage, aborted, hstage, htask⟩ hid).elim
        (fun hnone => hnone.2) fun hother => hother.1 rfl
  sought := by
    intro u task htask hheld
    rw [h.tasks_start] at htask
    split at htask
    · obtain rfl := Option.some.inj htask
      cases hheld
    · have hholds : h.before.Holds task.station (.command h.sent) :=
        ⟨h.placed_before.lt htask, Or.inl ⟨u, task, htask, rfl, hheld⟩⟩
      exact ((h.unused.holds hholds) rfl h.sent_mayComeFrom).1.elim

theorem sole_succ (hc : h.Clear n) {u : Nat} {c : Command} {stage : CallStage} {aborted : Bool}
    (hne : u ≠ h.caller)
    (htask : (h.state (n + 1)).tasks[u]? = some ⟨h.origin, .executing c stage, aborted⟩) :
    c.id ≠ h.command.id := by
  obtain ⟨L, hl⟩ := (h.sound n).ledger
  rcases (h.act n).came hl htask with ⟨task, hbefore, hstation, hfollows⟩ | hbegun |
    ⟨i, c', hdeed, -, heq⟩
  · obtain ⟨c', stage', hcall, hid⟩ := hfollows.call rfl
    obtain ⟨j, a, aborted'⟩ := task
    obtain rfl : a = .executing c' stage' := hcall
    obtain rfl : h.origin = j := hstation
    exact hid ▸ hc.sole hne hbefore
  · exact hbegun.elim
  · cases heq
    intro hid
    exact (h.executes hdeed hid).elim (fun hnone => hnone.2) fun hother => hother.1 rfl

/-- The work on the command begins with looking for a handler, and goes on so. -/
theorem sought_succ (hc : h.Clear n) (ho : ¬h.Over n) {u : Nat} {task : Task}
    (htask : (h.state (n + 1)).tasks[u]? = some task)
    (hheld : task.activity.held = some (.command h.sent)) :
    ∃ job, task.activity = .dispatching job ∧ job.IsSought := by
  obtain ⟨L, hl⟩ := (h.sound n).ledger
  rcases (h.act n).came hl htask with ⟨before, hbefore, -, hfollows⟩ | hbegun | ⟨i, c, -, -, rfl⟩
  · have hold := (hfollows.held hheld).resolve_right ((h.sound n).unstaffed hbefore)
    obtain ⟨job, hactivity, hsought⟩ := hc.sought hbefore hold
    by_cases hruns : h.deed n = .runs u
    · rw [(turn_of_runs hruns).2] at htask
      refine (run_sent hc ho hbefore hold).2 htask ?_
      rw [hheld]
      exact fun heq => by cases heq
    · obtain ⟨i, a, aborted⟩ := before
      obtain rfl : a = .dispatching job := hactivity
      have hsame := (h.act n).task_of_uncalled hl hbefore not_false (fun _ _ heq => by cases heq)
        hruns
      obtain rfl := Option.some.inj (htask.symm.trans hsame)
      exact ⟨job, rfl, hsought⟩
  · generalize task.activity = a at hbegun hheld ⊢
    cases a with
    | dispatching job =>
      obtain ⟨message, stage⟩ := job
      cases stage with
      | arrived => exact ⟨_, rfl, fun id due heq => by cases heq⟩
      | _ => exact hbegun.elim
    | reaping k delay due => cases hheld
    | _ => exact hbegun.elim
  · cases hheld

theorem clear_succ (hc : h.Clear n) (ho : ¬h.Over n) : h.Clear (n + 1) :=
  ⟨carries_succ hc ho, sole_succ hc, sought_succ hc ho⟩

theorem not_over_zero (h : Errand) : ¬h.Over 0 := by
  intro ho
  rw [Over, hasEnded, taskEnd?, h.tasks_start, if_pos rfl] at ho
  cases ho

theorem clear (h : Errand) (ho : ¬h.Over n) : h.Clear n := by
  induction n with
  | zero => exact h.clear_zero
  | succ n ih =>
    have hbefore : ¬h.Over n := fun hover => ho (over_succ hover)
    exact clear_succ (ih hbefore) hbefore

end Errand

end ClusterMesh
