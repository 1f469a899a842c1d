import ClusterMesh.Proofs.Delivery.Schedule
import ClusterMesh.Proofs.Execution.Collected
import ClusterMesh.Proofs.Mesh.Return

/-!
# A call that waits

A call that was sent waits up to the end of its command. Until then its command is completed only
by the result that makes it full, as long as nobody registers a command of its id at its station,
and no node that has answered is lost.
-/

namespace ClusterMesh.Mesh

variable {m m' : Mesh} {r : Registration} {p : Pending} {L : List Registration} {e : Happening}
variable {t i : Nat} {c : Command} {d : Deed}

/-- The command of a call that waits. -/
structure Pends (m : Mesh) (r : Registration) (p : Pending) : Prop where
  tracked : ∃ L reaper, Ledger m L ∧ r ∈ L ∧ Tracks m r p ⟨r.station, .executing r.command
    (.waiting r.ticket (r.instant + r.timeout) r.reaper), false⟩ reaper
  fitting : ∀ entry ∈ p.results.toList,
    entry.2.sourceId = some entry.1.id ∧ entry.2.id = r.command.id
  opened : p.completed = false → ¬p.IsFull
  closed : p.completed = true → p.IsFull ∨ r.instant + r.timeout ≤ m.now

theorem Pends.caller_at (h : m.Pends r p) : m.tasks[r.caller]? = some ⟨r.station,
    .executing r.command (.waiting r.ticket (r.instant + r.timeout) r.reaper), false⟩ := by
  obtain ⟨L, reaper, -, -, ht⟩ := h.tracked
  exact ht.caller_at

theorem Pends.pending (h : m.Pends r p) : m.pending r = some p ∧ p.command = r.command := by
  obtain ⟨L, reaper, -, -, ht⟩ := h.tracked
  exact ⟨ht.pending, ht.command⟩

/-- A call that waits can run once its command is completed, and when its time is over, which is
not past. -/
theorem Pends.timed (h : m.Pends r p) : (p.completed = true → m.IsReady r.caller) ∧
    (m.now < r.instant + r.timeout ∨ m.now = r.instant + r.timeout ∧ m.IsReady r.caller) := by
  obtain ⟨L, reaper, -, -, ht⟩ := h.tracked
  obtain ⟨-, -, -, -, -, hwoken, htimed⟩ := ht.caller_stands.of_waiting
  refine ⟨hwoken, ?_⟩
  rcases htimed with ⟨-, hlt⟩ | ⟨hready, hnow⟩
  · exact Or.inl hlt
  · exact Or.inr ⟨hnow, hready⟩

/-- A happening that neither displaces the command of a registration nor cancels its call. -/
structure Harmless (r : Registration) (e : Happening) : Prop where
  displaces : ∀ {r'}, e = .registers r' → r'.station = r.station → r'.command.id ≠ r.command.id
  cancels : e ≠ .cancels r.caller

theorem Goes.waiting {due : Nat} {task : Task} (h : Goes m e r ⟨r.station, .executing r.command
      (.waiting r.ticket due r.reaper), false⟩ task) (hstation : task.station = r.station)
    (hengaged : task.activity.IsEngaged) (hcancels : e ≠ .cancels r.caller) :
    task = ⟨r.station, .executing r.command (.waiting r.ticket due r.reaper), false⟩ := by
  obtain ⟨j, a, aborted⟩ := task
  obtain rfl : j = r.station := hstation
  cases h with
  | stays activity aborts =>
    obtain rfl : a = _ := activity
    obtain rfl : aborted = false := aborts.resolve_right hcancels
    rfl
  | waits before _ _ => cases before
  | returns _ after =>
    obtain rfl : a = _ := after
    exact hengaged.elim
  | givesUp _ _ after =>
    obtain rfl : a = _ := after
    exact hengaged.elim

/-- The command of a call that waits goes on to be completed only by the result that makes it full
or by the end of its time, and keeps what has come in. -/
theorem Pends.evolves {p' : Pending} (h : m.Pends r p) (hevolves : Evolves m e r p p')
    (hcommand : p'.command = p.command) (hnow : m.now ≤ m'.now) (he : Harmless r e) :
    (∀ entry ∈ p'.results.toList,
        entry.2.sourceId = some entry.1.id ∧ entry.2.id = r.command.id) ∧
      (p'.completed = false → ¬p'.IsFull) ∧
      (p'.completed = true → p'.IsFull ∨ r.instant + r.timeout ≤ m'.now) ∧
      ∀ id ∈ p.results.keys, id ∈ p'.results.keys := by
  have hfull : p'.results = p.results → (p'.IsFull ↔ p.IsFull) := by
    intro hresults
    rw [Pending.IsFull, hcommand, hresults, Pending.IsFull]
  -- what has come in with one more result
  have hcollecting : ∀ {result : CommandResult}, result.id = r.command.id →
      (∀ entry ∈ (p.results.add result).toList,
        entry.2.sourceId = some entry.1.id ∧ entry.2.id = r.command.id) ∧
      ∀ id ∈ p.results.keys, id ∈ (p.results.add result).keys := by
    intro result hid
    refine ⟨fun entry hentry => ?_, fun id hmem => Results.mem_keys_add.mpr (Or.inl hmem)⟩
    rcases Results.mem_of_mem_add hentry with hold | ⟨rfl, hsource⟩
    · exact h.fitting entry hold
    · exact ⟨hsource, hid⟩
  cases hevolves with
  | kept results completed =>
    refine ⟨results ▸ h.fitting, ?_, ?_, by rw [results]; exact fun _ => id⟩
    · rw [hfull results, completed]
      exact h.opened
    · rw [hfull results, completed]
      exact fun hc => (h.closed hc).imp_right fun hle => Nat.le_trans hle hnow
  | collects opened event hid notFull =>
    refine ⟨(hcollecting hid).1, fun _ => notFull, fun hc => ?_, (hcollecting hid).2⟩
    have hstill : p.completed = true := hc
    rw [opened] at hstill
    cases hstill
  | fills opened event hid full =>
    exact ⟨(hcollecting hid).1, (fun hc => by cases hc), fun _ => Or.inl full, (hcollecting hid).2⟩
  | displaced opened event station hid => exact absurd hid (he.displaces event station)
  | expires opened results completed elapsed =>
    refine ⟨results ▸ h.fitting, ?_, fun _ => Or.inr ?_, by rw [results]; exact fun _ => id⟩
    · rw [completed]
      exact fun hc => by cases hc
    · refine Nat.le_trans (Nat.le_of_eq ?_) hnow
      have hcaller := h.caller_at
      cases elapsed with
      | reaper now => exact now.symm
      | waiting task =>
        generalize m.now = now at task ⊢
        cases hcaller.symm.trans task
        rfl
      | sending task _ => cases hcaller.symm.trans task

theorem Pends.step (h : m.Pends r p) (hs : m.Step e m') (he : Harmless r e)
    (hlive : m'.IsUnderWay r) :
    ∃ p', m'.Pends r p' ∧ ∀ id ∈ p.results.keys, id ∈ p'.results.keys := by
  obtain ⟨L, guard, hl, hr, ht⟩ := h.tracked
  have hupkeep := hs.upkeep hl
  obtain ⟨q, p', caller, caller', reaper, reaper', hbefore, hafter, hevolves, hgoes⟩ :=
    hupkeep.proceeds hr
  obtain rfl : p = q := Option.some.inj (ht.pending.symm.trans hbefore.pending)
  obtain rfl := Option.some.inj (ht.caller_at.symm.trans hbefore.caller_at)
  have hcaller : caller' = ⟨r.station, .executing r.command
      (.waiting r.ticket (r.instant + r.timeout) r.reaper), false⟩ := by
    obtain ⟨task, htask, hengaged⟩ := hlive
    obtain rfl := Option.some.inj (hafter.caller_at.symm.trans htask)
    have hstation : caller'.station = r.station := by
      cases hafter.caller_stands <;> rfl
    exact hgoes.waiting hstation hengaged he.cancels
  subst hcaller
  have hnow : m.now ≤ m'.now := by
    rcases hupkeep.clock with hsame | ⟨-, hle, -⟩
    · exact Nat.le_of_eq hsame.symm
    · exact hle
  obtain ⟨hfitting, hopened, hclosed, hkeys⟩ :=
    h.evolves hevolves (hafter.command.trans hbefore.command.symm) hnow he
  have htracked : ∃ L reaper, Ledger m' L ∧ r ∈ L ∧ Tracks m' r p' ⟨r.station, .executing
      r.command (.waiting r.ticket (r.instant + r.timeout) r.reaper), false⟩ reaper :=
    ⟨_, reaper', hupkeep.ledger, List.mem_append_left _ hr, hafter⟩
  exact ⟨p', ⟨htracked, hfitting, hopened, hclosed⟩, hkeys⟩

theorem Pends.path {es : List Happening} (h : m.Pends r p) (hpath : m.Path es m')
    (hes : ∀ e ∈ es, Harmless r e) (hlive : m'.IsUnderWay r) :
    ∃ p', m'.Pends r p' ∧ ∀ id ∈ p.results.keys, id ∈ p'.results.keys := by
  induction hpath with
  | stay => exact ⟨p, h, fun _ => id⟩
  | @step es e m' m'' hpath hstep ih =>
    -- the call was still under way before the last step
    obtain ⟨L, reaper, hl, hr, -⟩ := h.tracked
    obtain ⟨L', hl', hmem⟩ := hpath.ledger hl
    obtain ⟨p', hp', hkeys⟩ := ih (fun e he => hes e (List.mem_append_left _ he))
      (((hstep.upkeep hl').proceeds (hmem hr)).underWay hlive)
    obtain ⟨p'', hp'', hkeys'⟩ :=
      hp'.step hstep (hes _ (List.mem_append_right _ List.mem_cons_self)) hlive
    exact ⟨p'', hp'', fun id hid => hkeys' id (hkeys id hid)⟩

theorem Plainly.pends (h : m.Plainly m') (hp : m.Pends r p) (hlive : m'.IsUnderWay r) :
    ∃ p', m'.Pends r p' ∧ ∀ id ∈ p.results.keys, id ∈ p'.results.keys := by
  obtain ⟨es, hpath, hes⟩ := h.path
  refine hp.path hpath (fun e he => ?_) hlive
  have hplain := hes e he
  refine ⟨?_, ?_⟩
  · rintro r' rfl
    exact hplain.elim
  · rintro rfl
    exact hplain

/-- A call waits on while others act, none of which executes a command of its id at its station. -/
theorem Act.pends (h : m.Act d m') (hplaced : m.Placed) (hworkers : m.Unstaffed)
    (hp : m.Pends r p) (hruns : d ≠ .runs r.caller) (hcancels : d ≠ .cancels r.caller)
    (hsole : ∀ {t : Nat} {c : Command}, t ≠ r.caller →
      m.tasks[t]? = some ⟨r.station, .executing c .submitted, false⟩ → c.id ≠ r.command.id) :
    ∃ p', m'.Pends r p' ∧ ∀ id ∈ p.results.keys, id ∈ p'.results.keys := by
  obtain ⟨es, hpath, hes⟩ := (h.wends hplaced hworkers).path
  obtain ⟨L, reaper, hl, -, ht⟩ := hp.tracked
  refine hp.path hpath (fun e he => ?_) ⟨_, h.task hl ht.caller_at not_false hruns hcancels, trivial⟩
  cases hes e he with
  | plain plain =>
    refine ⟨?_, ?_⟩
    · rintro r' rfl
      exact plain.elim
    · rintro rfl
      exact plain
  | registers task station id =>
    refine ⟨?_, fun heq => by cases heq⟩
    intro r' heq hsame
    cases heq
    rw [id]
    refine hsole (fun hcaller => hruns (hcaller ▸ rfl)) ?_
    rw [← hsame, station]
    exact task
  | @cancels u =>
    refine ⟨fun heq => (by cases heq), fun heq => ?_⟩
    cases heq
    exact hcancels rfl

theorem Pends.lingers (h : m.Pends r p) (hready : m.IsReady r.caller)
    (ho : p.completed = false) (hlt : m.now < r.instant + r.timeout) :
    ∃ p', ((m.taken r.caller).run r.caller).Pends r p' ∧
      ∀ id ∈ p.results.keys, id ∈ p'.results.keys := by
  obtain ⟨L, reaper, hl, hr, ht⟩ := h.tracked
  have htask : (m.taken r.caller).tasks[r.caller]? = some ⟨r.station, .executing r.command
    (.waiting r.ticket (r.instant + r.timeout) r.reaper), false⟩ := ht.caller_at
  obtain ⟨-, -, -, -, hway, -, -⟩ := ht.caller_stands.of_waiting
  have hd : p.delivery = .awaited := by
    simpa only [Pending.OnItsWay, ho, Bool.false_eq_true, if_false] using hway
  have hrun : (m.taken r.caller).run r.caller = m.taken r.caller := by
    simp only [run, htask, if_false, Bool.false_eq_true, runCall]
    exact awaitResults_of_early (m := m.taken r.caller) ht.pending hd hlt
  have hstep : m.Step .other ((m.taken r.caller).run r.caller) := by
    have hwait := Step.wait hready ht.caller_at
    rwa [awaitResults_of_early (m := m.taken r.caller) ht.pending hd hlt, ← hrun] at hwait
  refine h.step hstep ⟨fun heq => (by cases heq), fun heq => (by cases heq)⟩ ?_
  rw [hrun]
  exact ⟨_, htask, trivial⟩

/-- Otherwise it returns what has come in: the results of a full command, or those that have come
in when its time is over. -/
theorem Pends.ends (h : m.Pends r p)
    (hdone : p.completed = true ∨ r.instant + r.timeout ≤ m.now) :
    ((m.taken r.caller).run r.caller).tasks[r.caller]? = some ⟨r.station, .ended (.returned m.now
        (.ok ⟨r.command.id, r.command.expected, p.results⟩)), false⟩ ∧
      (p.IsFull ∨ m.now = r.instant + r.timeout) := by
  obtain ⟨L, reaper, hl, hr, ht⟩ := h.tracked
  have htask : (m.taken r.caller).tasks[r.caller]? = some ⟨r.station, .executing r.command
    (.waiting r.ticket (r.instant + r.timeout) r.reaper), false⟩ := ht.caller_at
  have hpending : ((m.taken r.caller).store r.station).command? r.ticket = some p := ht.pending
  have hplaced : r.station < (m.taken r.caller).stations.length := placed_of_pending ht.pending
  have hapart : r.caller ≠ r.reaper := hl.distinct.apart hr hr
  obtain ⟨-, -, -, -, hway, -, -⟩ := ht.caller_stands.of_waiting
  have hle : m.now ≤ r.instant + r.timeout := by
    rcases h.timed.2 with hlt | ⟨heq, -⟩ <;> omega
  have hends : ∀ {m₁ : Mesh}, m₁.tasks = (m.taken r.caller).tasks → m₁.now = m.now →
      r.station < m₁.stations.length →
      (m₁.returnResults r.caller r.station r.command r.ticket r.reaper p.results).tasks[r.caller]? =
        some ⟨r.station, .ended (.returned m.now
          (.ok ⟨r.command.id, r.command.expected, p.results⟩)), false⟩ := by
    intro m₁ htasks hnow hplaced
    have hcaller := (ends_endCall hplaced hapart
      (fun s => ((s.update r.ticket Pending.take).removeEntry r.ticket).1)
      (.ok ⟨r.command.id, r.command.expected, p.results⟩)).caller (htasks ▸ htask)
    rwa [hnow] at hcaller
  simp only [run, htask, if_false, Bool.false_eq_true, runCall]
  cases hc : p.completed with
  | true =>
    have hd : p.delivery = .delivered p.results := by
      simpa only [Pending.OnItsWay, hc, if_true] using hway
    rw [awaitResults_of_delivered hpending hd]
    refine ⟨hends rfl rfl hplaced, (h.closed hc).imp_right fun hge => ?_⟩
    exact Nat.le_antisymm hle hge
  | false =>
    have hd : p.delivery = .awaited := by
      simpa only [Pending.OnItsWay, hc, Bool.false_eq_true, if_false] using hway
    have hge : r.instant + r.timeout ≤ m.now := by
      rcases hdone with htrue | hge
      · rw [hc] at htrue
        cases htrue
      · exact hge
    rw [awaitResults_of_late hpending hd hge]
    refine ⟨hends (tasks_timeOut _ _ _) (keeps_timeOut _ _ _ 0).now ?_,
      Or.inr (Nat.le_antisymm hle hge)⟩
    rw [length_timeOut]
    exact hplaced

end ClusterMesh.Mesh
