import ClusterMesh.Proofs.Execution.Entries
import ClusterMesh.Proofs.Mesh.Step

/-!
# The ledger of registered calls

For each registration the command under its ticket, the call and the reaper stand to each other
in one of a few ways. The ledger says so of every call that was registered, and that nothing else
has a ticket or waits. What a step does to one registration leaves the others as they are.
-/

namespace ClusterMesh

/-- The results of a command are with the caller as soon as it is completed. -/
def Pending.OnItsWay (p : Pending) : Prop :=
  p.delivery = if p.completed then .delivered p.results else .awaited

/-- A call that has ended with an error. -/
def Task.HasFailed (task : Task) : Prop :=
  ∃ instant e, task.activity = .ended (.returned instant (.error e))

theorem Activity.IsEngaged.not_hasFailed {task : Task} (h : task.activity.IsEngaged) :
    ¬task.HasFailed := by
  intro hall
  obtain ⟨instant, e, hended⟩ := hall
  rw [hended] at h
  exact h

namespace Mesh

variable {m m' m'' : Mesh} {r r' : Registration} {p p' : Pending} {L : List Registration}

def pending (m : Mesh) (r : Registration) : Option Pending := (m.store r.station).command? r.ticket

/-- The entry under the id of a registered command is its own. -/
def Stores (m : Mesh) (r : Registration) : Prop :=
  (m.store r.station).get? r.command.id = some r.ticket

/-- A task waits for an instant that is to come, or can run at it. -/
def IsDue (m : Mesh) (due t : Nat) : Prop :=
  m.HasAlarm due t ∧ m.now < due ∨ m.IsReady t ∧ m.now = due

inductive CallerStands (m : Mesh) (r : Registration) (p : Pending) : Task → Prop
  | sending {aborted : Bool} (way : p.OnItsWay) :
      CallerStands m r p
        ⟨r.station, .executing r.command (.sending r.ticket r.timeout r.reaper), aborted⟩
  | waiting {due : Nat} {aborted : Bool} (way : p.OnItsWay)
      (woken : p.completed = true → m.IsReady r.caller) (timed : m.IsDue due r.caller) :
      CallerStands m r p
        ⟨r.station, .executing r.command (.waiting r.ticket due r.reaper), aborted⟩
  | returned {instant : Nat} {aborted : Bool} (completed : p.completed = true) :
      CallerStands m r p
        ⟨r.station, .ended (.returned instant (.ok ⟨r.command.id, r.command.expected, p.results⟩)),
          aborted⟩
  | failed {instant : Nat} {e : MeshError} {aborted : Bool} (gone : ¬m.Stores r) :
      CallerStands m r p ⟨r.station, .ended (.returned instant (.error e)), aborted⟩
  | cancelled {aborted : Bool} : CallerStands m r p ⟨r.station, .ended .cancelled, aborted⟩

inductive ReaperStands (m : Mesh) (r : Registration) : Task → Prop
  | starting {aborted : Bool} (ready : m.IsReady r.reaper) (now : m.now = r.instant) :
      ReaperStands m r ⟨r.station, .reaping r.ticket r.timeout none, aborted⟩
  | armed {aborted : Bool} (timed : m.IsDue (r.instant + r.timeout) r.reaper) :
      ReaperStands m r
        ⟨r.station, .reaping r.ticket r.timeout (some (r.instant + r.timeout)), aborted⟩
  | ended {e : TaskEnd} {aborted : Bool} : ReaperStands m r ⟨r.station, .ended e, aborted⟩

/-- How a registration stands: an open command whose call has not failed is stored, and its
reaper is at work. -/
structure Tracks (m : Mesh) (r : Registration) (p : Pending) (caller reaper : Task) : Prop where
  pending : m.pending r = some p
  command : p.command = r.command
  caller_at : m.tasks[r.caller]? = some caller
  reaper_at : m.tasks[r.reaper]? = some reaper
  caller_stands : CallerStands m r p caller
  reaper_stands : ReaperStands m r reaper
  guarded : p.completed = false → ¬caller.HasFailed →
    m.Stores r ∧ ∃ due, reaper = ⟨r.station, .reaping r.ticket r.timeout due, false⟩

/-- No two registrations share a ticket, a caller or a reaper. -/
structure Distinct (L : List Registration) : Prop where
  ticket : ∀ {r r'}, r ∈ L → r' ∈ L → r.station = r'.station → r.ticket = r'.ticket → r = r'
  caller : ∀ {r r'}, r ∈ L → r' ∈ L → r.caller = r'.caller → r = r'
  reaper : ∀ {r r'}, r ∈ L → r' ∈ L → r.reaper = r'.reaper → r = r'
  apart : ∀ {r r'}, r ∈ L → r' ∈ L → r.caller ≠ r'.reaper

structure Ledger (m : Mesh) (L : List Registration) : Prop where
  sound : ∀ i, (m.store i).Sound
  tracked : ∀ {r}, r ∈ L → ∃ p caller reaper, Tracks m r p caller reaper
  ticketed : ∀ {i k : Nat} {p : Pending}, (m.store i).command? k = some p →
    ∃ r ∈ L, r.station = i ∧ r.ticket = k
  engaged : ∀ {t : Nat} {task : Task}, m.tasks[t]? = some task → task.activity.IsEngaged →
    ∃ r ∈ L, r.caller = t ∨ r.reaper = t
  distinct : Distinct L

/-! ### Whose task it is -/

section

variable {i k due delay reaper : Nat} {c : Command} {aborted : Bool}

theorem CallerStands.of_sending {timeout : Nat}
    (h : CallerStands m r p ⟨i, .executing c (.sending k timeout reaper), aborted⟩) :
    i = r.station ∧ c = r.command ∧ k = r.ticket ∧ timeout = r.timeout ∧ reaper = r.reaper ∧
      p.OnItsWay := by
  generalize htask : Task.mk i (.executing c (.sending k timeout reaper)) aborted = task at h
  cases h with
  | sending way =>
    cases htask
    exact ⟨rfl, rfl, rfl, rfl, rfl, way⟩
  | _ => cases htask

theorem CallerStands.of_waiting
    (h : CallerStands m r p ⟨i, .executing c (.waiting k due reaper), aborted⟩) :
    i = r.station ∧ c = r.command ∧ k = r.ticket ∧ reaper = r.reaper ∧ p.OnItsWay ∧
      (p.completed = true → m.IsReady r.caller) ∧ m.IsDue due r.caller := by
  generalize htask : Task.mk i (.executing c (.waiting k due reaper)) aborted = task at h
  cases h with
  | waiting way woken timed =>
    cases htask
    exact ⟨rfl, rfl, rfl, rfl, way, woken, timed⟩
  | _ => cases htask

theorem CallerStands.not_reaping {due : Option Nat}
    (h : CallerStands m r p ⟨i, .reaping k delay due, aborted⟩) : False := by
  generalize htask : Task.mk i (.reaping k delay due) aborted = task at h
  cases h <;> cases htask

theorem ReaperStands.of_reaping {due : Option Nat}
    (h : ReaperStands m r ⟨i, .reaping k delay due, aborted⟩) :
    i = r.station ∧ k = r.ticket ∧ delay = r.timeout ∧
      (due = none ∧ m.now = r.instant ∨
        due = some (r.instant + r.timeout) ∧ m.IsDue (r.instant + r.timeout) r.reaper) := by
  generalize htask : Task.mk i (.reaping k delay due) aborted = task at h
  cases h with
  | starting ready now =>
    cases htask
    exact ⟨rfl, rfl, rfl, Or.inl ⟨rfl, now⟩⟩
  | armed timed =>
    cases htask
    exact ⟨rfl, rfl, rfl, Or.inr ⟨rfl, timed⟩⟩
  | ended => cases htask

theorem ReaperStands.not_executing {stage : CallStage}
    (h : ReaperStands m r ⟨i, .executing c stage, aborted⟩) : False := by
  generalize htask : Task.mk i (.executing c stage) aborted = task at h
  cases h <;> cases htask

theorem Ledger.caller_of (h : Ledger m L) {t : Nat} {stage : CallStage}
    (htask : m.tasks[t]? = some ⟨i, .executing c stage, aborted⟩)
    (hengaged : (Activity.executing c stage).IsEngaged) :
    ∃ r ∈ L, ∃ p task, r.caller = t ∧ Tracks m r p ⟨i, .executing c stage, aborted⟩ task := by
  obtain ⟨r, hr, hwho⟩ := h.engaged htask hengaged
  obtain ⟨p, caller, task, htracks⟩ := h.tracked hr
  rcases hwho with rfl | rfl
  · obtain rfl := Option.some.inj (htask.symm.trans htracks.caller_at)
    exact ⟨r, hr, p, task, rfl, htracks⟩
  · obtain rfl := Option.some.inj (htask.symm.trans htracks.reaper_at)
    exact htracks.reaper_stands.not_executing.elim

theorem Ledger.reaper_of (h : Ledger m L) {t : Nat} {due : Option Nat}
    (htask : m.tasks[t]? = some ⟨i, .reaping k delay due, aborted⟩) :
    ∃ r ∈ L, ∃ p task, r.reaper = t ∧ Tracks m r p task ⟨i, .reaping k delay due, aborted⟩ := by
  obtain ⟨r, hr, hwho⟩ := h.engaged htask trivial
  obtain ⟨p, task, reaper, htracks⟩ := h.tracked hr
  rcases hwho with rfl | rfl
  · obtain rfl := Option.some.inj (htask.symm.trans htracks.caller_at)
    exact htracks.caller_stands.not_reaping.elim
  · obtain rfl := Option.some.inj (htask.symm.trans htracks.reaper_at)
    exact ⟨r, hr, p, task, rfl, htracks⟩

end

/-! ### What stays -/

/-- A task that could run still can, and its alarms are set. -/
structure Keeps (m m' : Mesh) (t : Nat) : Prop where
  now : m'.now = m.now
  ready : m.IsReady t → m'.IsReady t
  alarm : ∀ {due}, m.HasAlarm due t → m'.HasAlarm due t

theorem Keeps.trans {t : Nat} (h : Keeps m m' t) (h' : Keeps m' m'' t) : Keeps m m'' t where
  now := h'.now.trans h.now
  ready := fun hready => h'.ready (h.ready hready)
  alarm := fun halarm => h'.alarm (h.alarm halarm)

theorem IsDue.keeps {due t : Nat} (h : m.IsDue due t) (hk : Keeps m m' t) : m'.IsDue due t := by
  rcases h with ⟨halarm, hlt⟩ | ⟨hready, heq⟩
  · exact Or.inl ⟨hk.alarm halarm, by rw [hk.now]; exact hlt⟩
  · exact Or.inr ⟨hk.ready hready, by rw [hk.now]; exact heq⟩

theorem ReaperStands.keeps {task : Task} (h : ReaperStands m r task)
    (hk : task.activity.IsTimed → Keeps m m' r.reaper) : ReaperStands m' r task := by
  cases h with
  | starting ready now => exact .starting ((hk trivial).ready ready) ((hk trivial).now.trans now)
  | armed timed => exact .armed (timed.keeps (hk trivial))
  | ended => exact .ended

theorem ReaperStands.aborted {task : Task} (h : ReaperStands m r task) (aborted : Bool) :
    ReaperStands m r { task with aborted } := by
  cases h with
  | starting ready now => exact .starting ready now
  | armed timed => exact .armed timed
  | ended => exact .ended

theorem CallerStands.moves {task : Task} (h : CallerStands m r p task)
    (hk : task.activity.IsTimed → Keeps m m' r.caller)
    (hstores : m'.Stores r → m.Stores r)
    (hway : p.OnItsWay → p'.OnItsWay)
    (hwoken : ∀ {due aborted}, task = ⟨r.station, .executing r.command
      (.waiting r.ticket due r.reaper), aborted⟩ → p'.completed = true → m'.IsReady r.caller)
    (hdone : p.completed = true → p'.completed = true ∧ p'.results = p.results) :
    CallerStands m' r p' task := by
  cases h with
  | sending way => exact .sending (hway way)
  | waiting way woken timed => exact .waiting (hway way) (hwoken rfl) (timed.keeps (hk trivial))
  | returned completed =>
    obtain ⟨hcompleted, hresults⟩ := hdone completed
    rw [← hresults]
    exact .returned hcompleted
  | failed gone => exact .failed fun hstored => gone (hstores hstored)
  | cancelled => exact .cancelled

/-- A registration with which a step has nothing to do. -/
structure Leaves (m m' : Mesh) (r : Registration) : Prop where
  pending : m'.pending r = m.pending r
  stores : m'.Stores r ↔ m.Stores r
  caller : ∀ {task}, m.tasks[r.caller]? = some task →
    task.activity.IsEngaged ∨ task.activity.IsEnded → m'.tasks[r.caller]? = some task
  reaper : ∀ {task}, m.tasks[r.reaper]? = some task →
    task.activity.IsEngaged ∨ task.activity.IsEnded → m'.tasks[r.reaper]? = some task
  keeps : ∀ {t : Nat} {task : Task}, t = r.caller ∨ t = r.reaper → m.tasks[t]? = some task →
    task.activity.IsTimed → Keeps m m' t

theorem CallerStands.engaged_or_ended {task : Task} (h : CallerStands m r p task) :
    task.activity.IsEngaged ∨ task.activity.IsEnded := by
  cases h with
  | sending _ => exact Or.inl trivial
  | waiting _ _ _ => exact Or.inl trivial
  | _ => exact Or.inr trivial

theorem ReaperStands.engaged_or_ended {task : Task} (h : ReaperStands m r task) :
    task.activity.IsEngaged ∨ task.activity.IsEnded := by
  cases h with
  | ended => exact Or.inr trivial
  | _ => exact Or.inl trivial

theorem Tracks.leaves {caller reaper : Task} (h : Tracks m r p caller reaper)
    (hl : Leaves m m' r) : Tracks m' r p caller reaper where
  pending := hl.pending.trans h.pending
  command := h.command
  caller_at := hl.caller h.caller_at h.caller_stands.engaged_or_ended
  reaper_at := hl.reaper h.reaper_at h.reaper_stands.engaged_or_ended
  caller_stands := by
    have hk := fun htimed => hl.keeps (Or.inl rfl) h.caller_at htimed
    refine h.caller_stands.moves hk hl.stores.mp id ?_ (fun hc => ⟨hc, rfl⟩)
    intro due aborted heq hc
    subst heq
    cases h.caller_stands with
    | waiting _ woken _ => exact (hk trivial).ready (woken hc)
  reaper_stands := h.reaper_stands.keeps fun htimed => hl.keeps (Or.inr rfl) h.reaper_at htimed
  guarded := by
    intro ho hf
    obtain ⟨hstored, due, hreaper⟩ := h.guarded ho hf
    exact ⟨hl.stores.mpr hstored, due, hreaper⟩

/-! ### Steps that concern one registration -/

/-- Everything but the ticket, the caller and the reaper of a registration stays. -/
structure Touches (m m' : Mesh) (r : Registration) : Prop where
  elsewhere : ∀ {i}, i ≠ r.station → m'.store i = m.store i
  command : ∀ {l : Nat}, l ≠ r.ticket →
    (m'.store r.station).command? l = (m.store r.station).command? l
  entry : ∀ {id} {l : Nat}, l ≠ r.ticket →
    ((m'.store r.station).get? id = some l ↔ (m.store r.station).get? id = some l)
  task : ∀ {t : Nat}, t ≠ r.caller → t ≠ r.reaper → m'.tasks[t]? = m.tasks[t]?
  keeps : ∀ {t}, t ≠ r.caller → t ≠ r.reaper → Keeps m m' t

theorem Touches.trans (h : Touches m m' r) (h' : Touches m' m'' r) : Touches m m'' r where
  elsewhere := fun hi => (h'.elsewhere hi).trans (h.elsewhere hi)
  command := fun hl => (h'.command hl).trans (h.command hl)
  entry := fun hl => (h'.entry hl).trans (h.entry hl)
  task := fun hc hr => (h'.task hc hr).trans (h.task hc hr)
  keeps := fun hc hr => (h.keeps hc hr).trans (h'.keeps hc hr)

theorem Touches.leaves (h : Touches m m' r) (hd : Distinct L) (hr : r ∈ L) (hr' : r' ∈ L)
    (hne : r' ≠ r) : Leaves m m' r' := by
  -- tasks and tickets of two registrations are distinct, so that what is not `r`'s stays
  have hcaller : r'.caller ≠ r.caller := fun heq => hne (hd.caller hr' hr heq)
  have hreaper : r'.reaper ≠ r.reaper := fun heq => hne (hd.reaper hr' hr heq)
  have hcross : r'.caller ≠ r.reaper := hd.apart hr' hr
  have hcross' : r'.reaper ≠ r.caller := (hd.apart hr hr').symm
  have hpending : m'.pending r' = m.pending r' := by
    by_cases hi : r'.station = r.station
    · have hk : r'.ticket ≠ r.ticket := fun heq => hne (hd.ticket hr' hr hi heq)
      simp only [Mesh.pending, hi]
      exact h.command hk
    · simp only [Mesh.pending, h.elsewhere hi]
  have hstores : m'.Stores r' ↔ m.Stores r' := by
    by_cases hi : r'.station = r.station
    · have hk : r'.ticket ≠ r.ticket := fun heq => hne (hd.ticket hr' hr hi heq)
      simp only [Stores, hi]
      exact h.entry hk
    · simp only [Stores, h.elsewhere hi]
  refine ⟨hpending, hstores, ?_, ?_, ?_⟩
  · intro task htask _
    rw [h.task hcaller hcross, htask]
  · intro task htask _
    rw [h.task hcross' hreaper, htask]
  · intro t task hcase _ _
    rcases hcase with rfl | rfl
    · exact h.keeps hcaller hcross
    · exact h.keeps hcross' hreaper

/-- Whether the time of a registered command is over, by its reaper or by its caller. -/
inductive Expires (m : Mesh) (r : Registration) : Prop
  | reaper (now : m.now = r.instant + r.timeout)
  | waiting {aborted : Bool} (task : m.tasks[r.caller]? =
      some ⟨r.station, .executing r.command (.waiting r.ticket m.now r.reaper), aborted⟩)
  | sending {aborted : Bool} (task : m.tasks[r.caller]? =
      some ⟨r.station, .executing r.command (.sending r.ticket r.timeout r.reaper), aborted⟩)
      (timeout : r.timeout = 0)

/-- What becomes of the command of a registration in a step. -/
inductive Evolves (m : Mesh) (e : Happening) (r : Registration) (p : Pending) : Pending → Prop
  | kept {p' : Pending} (results : p'.results = p.results)
      (completed : p'.completed = p.completed) : Evolves m e r p p'
  | collects {result : CommandResult} (opened : p.completed = false)
      (event : e = .correlates r.station result) (id : result.id = r.command.id)
      (notFull : ¬(p.collecting result).IsFull) : Evolves m e r p (p.collecting result)
  | fills {result : CommandResult} (opened : p.completed = false)
      (event : e = .correlates r.station result) (id : result.id = r.command.id)
      (full : (p.collecting result).IsFull) : Evolves m e r p (p.collecting result).closed
  | displaced {r' : Registration} (opened : p.completed = false) (event : e = .registers r')
      (station : r'.station = r.station) (id : r'.command.id = r.command.id) :
      Evolves m e r p p.closed
  | expires {p' : Pending} (opened : p.completed = false) (results : p'.results = p.results)
      (completed : p'.completed = true) (elapsed : Expires m r) : Evolves m e r p p'

/-- How the call of a registration goes on in a step. -/
inductive Goes (m : Mesh) (e : Happening) (r : Registration) (task task' : Task) : Prop
  | stays (activity : task'.activity = task.activity)
      (aborted : task'.aborted = task.aborted ∨ e = .cancels r.caller)
  | waits (before : task.activity =
        .executing r.command (.sending r.ticket r.timeout r.reaper))
      (after : task'.activity =
        .executing r.command (.waiting r.ticket (m.now + r.timeout) r.reaper))
      (aborted : task'.aborted = task.aborted)
  | returns {outcome : Except MeshError Outcome} (before : task.activity.IsEngaged)
      (after : task'.activity = .ended (.returned m.now outcome))
  | givesUp (before : task.activity.IsEngaged) (aborted : task.aborted = true)
      (after : task'.activity = .ended .cancelled)

/-- A registration stands well before and after a step in which its command and its call go
on. -/
def Proceeds (m : Mesh) (e : Happening) (r : Registration) (m' : Mesh) : Prop :=
  ∃ p p' caller caller' reaper reaper', Tracks m r p caller reaper ∧
    Tracks m' r p' caller' reaper' ∧ Evolves m e r p p' ∧ Goes m e r caller caller'

/-- A step that concerns one registration. -/
structure Acts (m : Mesh) (e : Happening) (r : Registration) (m' : Mesh) : Prop where
  touches : Touches m m' r
  sound : (m'.store r.station).Sound
  proceeds : Proceeds m e r m'

theorem Tracks.proceeds {caller reaper : Task} {e : Happening} (h : Tracks m r p caller reaper)
    (hl : Leaves m m' r) : Proceeds m e r m' :=
  ⟨p, p, caller, caller, reaper, reaper, h, h.leaves hl, .kept rfl rfl, .stays rfl (Or.inl rfl)⟩

theorem Ledger.acts {e : Happening} (h : Ledger m L) (hr : r ∈ L) (ha : Acts m e r m') :
    Ledger m' L where
  sound := by
    intro i
    by_cases hi : i = r.station
    · exact hi ▸ ha.sound
    · rw [ha.touches.elsewhere hi]
      exact h.sound i
  tracked := by
    intro r' hr'
    by_cases hne : r' = r
    · obtain ⟨_, p', _, caller, _, reaper, -, htracks, -⟩ := ha.proceeds
      exact ⟨p', caller, reaper, hne ▸ htracks⟩
    · obtain ⟨p, caller, reaper, htracks⟩ := h.tracked hr'
      exact ⟨p, caller, reaper, htracks.leaves (ha.touches.leaves h.distinct hr hr' hne)⟩
  ticketed := by
    intro i k p hp
    by_cases hi : i = r.station
    · subst hi
      by_cases hk : k = r.ticket
      · exact ⟨r, hr, rfl, hk.symm⟩
      · rw [ha.touches.command hk] at hp
        exact h.ticketed hp
    · rw [ha.touches.elsewhere hi] at hp
      exact h.ticketed hp
  engaged := by
    intro t task htask hengaged
    by_cases hcaller : t = r.caller
    · exact ⟨r, hr, Or.inl hcaller.symm⟩
    · by_cases hreaper : t = r.reaper
      · exact ⟨r, hr, Or.inr hreaper.symm⟩
      · rw [ha.touches.task hcaller hreaper] at htask
        exact h.engaged htask hengaged
  distinct := h.distinct

theorem Ledger.proceeds {e : Happening} (h : Ledger m L) (hr : r ∈ L) (ha : Acts m e r m')
    (hr' : r' ∈ L) : Proceeds m e r' m' := by
  by_cases hne : r' = r
  · exact hne ▸ ha.proceeds
  · obtain ⟨p, caller, reaper, htracks⟩ := h.tracked hr'
    exact htracks.proceeds (ha.touches.leaves h.distinct hr hr' hne)

theorem Touches.now (h : Touches m m' r) : m'.now = m.now :=
  (h.keeps (t := r.caller + r.reaper + 1) (by omega) (by omega)).now

/-! ### Steps aside -/

theorem Aside.leaves (h : m.Aside m') (r : Registration) : Leaves m m' r where
  pending := by simp only [Mesh.pending, h.store]
  stores := by simp only [Stores, h.store]
  caller := h.keeps
  reaper := h.keeps
  keeps := fun _ htask htimed => ⟨h.now, h.ready htask htimed, h.alarm htask htimed⟩

theorem Ledger.proceeds_aside {e : Happening} (h : Ledger m L) (ha : m.Aside m') (hr : r ∈ L) :
    Proceeds m e r m' := by
  obtain ⟨p, caller, reaper, htracks⟩ := h.tracked hr
  exact htracks.proceeds (ha.leaves r)

theorem Ledger.aside (h : Ledger m L) (ha : m.Aside m') : Ledger m' L where
  sound := by
    intro i
    rw [ha.store]
    exact h.sound i
  tracked := by
    intro r hr
    obtain ⟨p, caller, reaper, htracks⟩ := h.tracked hr
    exact ⟨p, caller, reaper, htracks.leaves (ha.leaves r)⟩
  ticketed := by
    intro i k p hp
    rw [ha.store] at hp
    exact h.ticketed hp
  engaged := fun htask hengaged => h.engaged (ha.brings htask hengaged) hengaged
  distinct := h.distinct

end Mesh

end ClusterMesh
