import ClusterMesh.Schedule.Agenda

/-!
# Machines that run tasks

A machine has an agenda and a rule that says what a task does when it runs. Everything that
can run at an instant runs before the clock goes on, and the clock goes from alarm to alarm.
-/

namespace ClusterMesh

/-- How a state with an agenda lets one of its tasks run. The task was taken off the agenda
before. -/
structure Machine (σ : Type) where
  agenda : σ → Agenda
  withAgenda : σ → Agenda → σ
  run : σ → Nat → σ

namespace Machine

variable {σ : Type}

/-- More turns than any schedule takes: a bound that keeps every run finite. -/
def turns : Nat := Nat.pow 10 12

/-- Let the tasks that can run take their turns, at most so many. -/
def settleWithin (m : Machine σ) : Nat → σ → σ
  | 0, s => s
  | fuel + 1, s =>
    match (m.agenda s).takeFirst? with
    | none => s
    | some (task, rest) => settleWithin m fuel (m.run (m.withAgenda s rest) task)

def settle (m : Machine σ) (s : σ) : σ := m.settleWithin turns s

/-- What the turns of the tasks preserve stays as everything runs that can. -/
theorem settle_preserves {m : Machine σ} {P : σ → Prop}
    (hturn : ∀ s task rest, (m.agenda s).takeFirst? = some (task, rest) → P s →
      P (m.run (m.withAgenda s rest) task)) {s : σ} (h : P s) : P (m.settle s) := by
  have hwithin : ∀ fuel s, P s → P (m.settleWithin fuel s) := by
    intro fuel
    induction fuel with
    | zero => exact fun _ h => h
    | succ fuel ih =>
      intro s h
      rw [settleWithin]
      split
      next => exact h
      next task rest hfirst => exact ih _ (hturn s task rest hfirst h)
  exact hwithin turns s h

def ring (m : Machine σ) (s : σ) (instant : Nat) : σ := m.withAgenda s ((m.agenda s).ring instant)

/-- Run everything that is due up to an instant, over at most so many instants, and let the
clock show it. -/
def advanceWithin (m : Machine σ) (instant : Nat) : Nat → σ → σ
  | 0, s => m.withAgenda s ((m.agenda s).passTo instant)
  | fuel + 1, s =>
    let s := m.settle s
    match (m.agenda s).nextAlarm? with
    | some due =>
      if due ≤ instant then advanceWithin m instant fuel (m.ring s due)
      else m.withAgenda s ((m.agenda s).passTo instant)
    | none => m.withAgenda s ((m.agenda s).passTo instant)

def advance (m : Machine σ) (s : σ) (duration : Nat) : σ :=
  m.advanceWithin ((m.agenda s).now + duration) (duration + 2) s

/-- Let the clock go from alarm to alarm until a state is reached, over at most so many
instants. -/
def awaitWithin (m : Machine σ) (reached : σ → Bool) : Nat → σ → σ
  | 0, s => s
  | fuel + 1, s =>
    let s := m.settle s
    if reached s then s
    else
      match (m.agenda s).nextAlarm? with
      | some due => awaitWithin m reached fuel (m.ring s due)
      | none => s

def await (m : Machine σ) (reached : σ → Bool) (s : σ) : σ := m.awaitWithin reached turns s

theorem await_preserves {m : Machine σ} {P : σ → Prop}
    (hturn : ∀ s task rest, (m.agenda s).takeFirst? = some (task, rest) → P s →
      P (m.run (m.withAgenda s rest) task))
    (hring : ∀ s due, P s → P (m.ring s due)) (reached : σ → Bool) {s : σ} (h : P s) :
    P (m.await reached s) := by
  have hwithin : ∀ fuel s, P s → P (m.awaitWithin reached fuel s) := by
    intro fuel
    induction fuel with
    | zero => exact fun _ h => h
    | succ fuel ih =>
      intro s h
      have hsettled : P (m.settle s) := settle_preserves hturn h
      rw [awaitWithin]
      split
      next => exact hsettled
      next =>
        split
        next due _ => exact ih _ (hring _ due hsettled)
        next => exact hsettled
  exact hwithin turns s h

end Machine

end ClusterMesh
