import ClusterMesh.Collection.KeyedList

/-!
# Agendas

Which tasks run, in what order and when. Tasks are known by number. Those that can run now
wait in the order in which they were woken, each at most once; the others wait for an alarm
or for an event. Time is counted in whole milliseconds.
-/

namespace ClusterMesh

/-- The instant, the tasks that can run now, and the alarms in the order in which they were
set, each an instant and the task to wake. -/
structure Agenda where
  now : Nat
  ready : KeyedList (fun task : Nat => task)
  alarms : List (Nat × Nat)

namespace Agenda

def empty : Agenda := ⟨0, ∅, []⟩

instance : Inhabited Agenda := ⟨empty⟩

/-- Let a task run after those that were woken before; one that was woken stays in its place. -/
def wake (a : Agenda) (task : Nat) : Agenda := { a with ready := a.ready.insert task }

def wakeAll (a : Agenda) (tasks : List Nat) : Agenda := { a with ready := a.ready.insertMany tasks }

def takeFirst? (a : Agenda) : Option (Nat × Agenda) :=
  match a.ready.toList with
  | [] => none
  | task :: _ => some (task, { a with ready := a.ready.erase task })

def setAlarm (a : Agenda) (due task : Nat) : Agenda :=
  { a with alarms := a.alarms ++ [(due, task)] }

def dropAlarms (a : Agenda) (task : Nat) : Agenda :=
  { a with alarms := a.alarms.filter (fun alarm => alarm.2 != task) }

def nextAlarm? (a : Agenda) : Option Nat := (a.alarms.map Prod.fst).min?

def passTo (a : Agenda) (instant : Nat) : Agenda := { a with now := max a.now instant }

/-- Let the clock show an instant and wake the tasks whose alarms are then due, in the order
in which the alarms were set. -/
def ring (a : Agenda) (instant : Nat) : Agenda :=
  let due := a.alarms.filter (fun alarm => decide (alarm.1 ≤ instant))
  { (a.passTo instant).wakeAll (due.map Prod.snd) with
    alarms := a.alarms.filter (fun alarm => decide (instant < alarm.1)) }

end Agenda

end ClusterMesh
