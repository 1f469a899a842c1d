import ClusterMesh.Proofs.Mesh.Views

/-!
# Steps of a mesh

A call registers its command, sends it and waits; its reaper expires it; results come in; calls
are cancelled; and time passes once nothing can run. Each stretch between two points at which a
task waits is a step, and the steps may follow each other in any order in which they can. All
else that goes on in a mesh stands aside of the registered calls.
-/

namespace ClusterMesh

/-- A call that has stored its command. -/
structure Registration where
  command : Command
  station : Nat
  ticket : Nat
  caller : Nat
  reaper : Nat
  instant : Nat
  timeout : Nat

inductive Happening
  | registers (r : Registration)
  | correlates (station : Nat) (result : CommandResult)
  | cancels (task : Nat)
  | other

def Happening.registrations : Happening → List Registration
  | .registers r => [r]
  | _ => []

namespace Activity

/-- A registered call that has not ended, or a reaper. -/
def IsEngaged : Activity → Prop
  | .reaping _ _ _ => True
  | .executing _ .submitted => False
  | .executing _ _ => True
  | _ => False

/-- A task that waits for an instant on behalf of a registered call. -/
def IsTimed : Activity → Prop
  | .reaping _ _ _ => True
  | .executing _ (.waiting _ _ _) => True
  | _ => False

def IsEnded : Activity → Prop
  | .ended _ => True
  | _ => False

theorem IsTimed.isEngaged {a : Activity} (h : a.IsTimed) : a.IsEngaged := by
  cases a with
  | reaping _ _ _ => trivial
  | executing c stage =>
    cases stage with
    | submitted => exact h
    | sending _ _ _ => trivial
    | waiting _ _ _ => trivial
  | _ => exact h

end Activity

namespace Mesh

def registration (m : Mesh) (t i : Nat) (c : Command) : Registration where
  command := c
  station := i
  ticket := (m.store i).commands.length
  caller := t
  reaper := m.tasks.length
  instant := m.now
  timeout := (m.station i).timeoutOf c

/-- What happens apart from the registered calls: the stores, the clock, the calls and their
reapers stay as they are, except that calls may be submitted or refused. -/
structure Aside (m m' : Mesh) : Prop where
  now : m'.now = m.now
  stations : m.stations.length ≤ m'.stations.length
  store : ∀ i, m'.store i = m.store i
  keeps : ∀ {t : Nat} {task : Task}, m.tasks[t]? = some task →
    task.activity.IsEngaged ∨ task.activity.IsEnded → m'.tasks[t]? = some task
  brings : ∀ {t : Nat} {task : Task}, m'.tasks[t]? = some task → task.activity.IsEngaged →
    m.tasks[t]? = some task
  ready : ∀ {t : Nat} {task : Task}, m.tasks[t]? = some task → task.activity.IsTimed →
    m.IsReady t → m'.IsReady t
  alarm : ∀ {t due : Nat} {task : Task}, m.tasks[t]? = some task → task.activity.IsTimed →
    m.HasAlarm due t → m'.HasAlarm due t

/-- One step of a mesh and what happens in it. -/
inductive Step (m : Mesh) : Happening → Mesh → Prop
  | enter {t i : Nat} {c : Command} (ready : m.IsReady t)
      (task : m.tasks[t]? = some ⟨i, .executing c .submitted, false⟩)
      (placed : i < m.stations.length) (accepted : refusal? (m.station i) c = none) :
      Step m (.registers (m.registration t i (c.stamped (m.station i).node)))
        ((m.taken t).enter t i (c.stamped (m.station i).node)).1
  | depart {t i ticket timeout reaper : Nat} {c : Command} (sent : Except MeshError Bool)
      (task : m.tasks[t]? = some ⟨i, .executing c (.sending ticket timeout reaper), false⟩) :
      Step m .other (m.depart t i c ticket timeout reaper sent)
  | wait {t i ticket due reaper : Nat} {c : Command} (ready : m.IsReady t)
      (task : m.tasks[t]? = some ⟨i, .executing c (.waiting ticket due reaper), false⟩) :
      Step m .other ((m.taken t).awaitResults t i c ticket due reaper)
  | reap {t i ticket delay : Nat} {due : Option Nat} (ready : m.IsReady t)
      (task : m.tasks[t]? = some ⟨i, .reaping ticket delay due, false⟩) :
      Step m .other ((m.taken t).runReaper t i ticket delay due)
  | drop {t i : Nat} {a : Activity} (ready : m.IsReady t)
      (task : m.tasks[t]? = some ⟨i, a, true⟩) (engaged : a.IsEngaged) :
      Step m .other ((m.taken t).drop t i a)
  | correlate {i : Nat} (result : CommandResult) (placed : i < m.stations.length) :
      Step m (.correlates i result) (m.correlate i result).1
  | cancel {t i : Nat} {c : Command} {stage : CallStage} {aborted : Bool}
      (task : m.tasks[t]? = some ⟨i, .executing c stage, aborted⟩)
      (engaged : (Activity.executing c stage).IsEngaged) :
      Step m (.cancels t) (m.abort t)
  | pass (instant : Nat) (idle : ∀ t, ¬m.IsReady t) (later : m.now ≤ instant)
      (first : ∀ due t, m.HasAlarm due t → instant ≤ max m.now due) :
      Step m .other (machine.ring m instant)
  | aside {m' : Mesh} (h : m.Aside m') : Step m .other m'

theorem Aside.refl (m : Mesh) : m.Aside m where
  now := rfl
  stations := Nat.le_refl _
  store := fun _ => rfl
  keeps := fun h _ => h
  brings := fun h _ => h
  ready := fun _ _ h => h
  alarm := fun _ _ h => h

end Mesh

/-- The steps of a run up to a state, one more step from there, and then nothing, are steps. -/
theorem steps_followedBy {ε : Type} {Step : Mesh → ε → Mesh → Prop} {state : Nat → Mesh}
    {event : Nat → ε} {k : Nat} {m : Mesh} {e idle : ε}
    (hsteps : ∀ n, Step (state n) (event n) (state (n + 1))) (hnext : Step (state k) e m)
    (hidle : Step m idle m) (n : Nat) :
    Step (if n ≤ k then state n else m)
      (if n < k then event n else if n = k then e else idle)
      (if n + 1 ≤ k then state (n + 1) else m) := by
  rcases Nat.lt_trichotomy n k with hlt | rfl | hgt
  · rw [if_pos (Nat.le_of_lt hlt), if_pos hlt, if_pos (Nat.succ_le_of_lt hlt)]
    exact hsteps n
  · rw [if_pos (Nat.le_refl n), if_neg (Nat.lt_irrefl n), if_pos rfl,
      if_neg (Nat.not_succ_le_self n)]
    exact hnext
  · rw [if_neg (Nat.not_le.mpr hgt), if_neg (Nat.lt_asymm hgt), if_neg (Nat.ne_of_gt hgt),
      if_neg (Nat.not_le.mpr (Nat.lt_succ_of_lt hgt))]
    exact hidle

/-- A run of a mesh: its states and what happens between them. A run that ends stands still. -/
structure History where
  state : Nat → Mesh
  event : Nat → Happening
  start : ∃ capacity, state 0 = Mesh.ofCapacity capacity
  step : ∀ n, (state n).Step (event n) (state (n + 1))

namespace History

/-- The calls that were registered before a step. -/
def registered (h : History) : Nat → List Registration
  | 0 => []
  | n + 1 => registered h n ++ (h.event n).registrations

theorem mem_registered (h : History) {n : Nat} {r : Registration} :
    r ∈ h.registered n ↔ ∃ q < n, h.event q = .registers r := by
  induction n with
  | zero => simp [registered]
  | succ n ih =>
    have hlast : r ∈ (h.event n).registrations ↔ h.event n = .registers r := by
      cases h.event n <;> simp [Happening.registrations, eq_comm]
    simp only [registered, List.mem_append, ih, hlast]
    constructor
    · intro hcase
      rcases hcase with ⟨q, hq, he⟩ | he
      · exact ⟨q, Nat.lt_succ_of_lt hq, he⟩
      · exact ⟨n, Nat.lt_succ_self n, he⟩
    · intro hall
      obtain ⟨q, hq, he⟩ := hall
      rcases Nat.lt_succ_iff_lt_or_eq.mp hq with hlt | rfl
      · exact Or.inl ⟨q, hlt, he⟩
      · exact Or.inr he

end History

end ClusterMesh
