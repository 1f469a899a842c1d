import ClusterMesh.Schedule.Machine
import ClusterMesh.Sync.Round

/-!
# The runner of synchronizations

Rounds run at once, or again and again by a ticker. The first tick of a ticker is due when it
starts, and each further one a period later; a round that starts late by more than five
milliseconds skips the ticks that are past. Ticks are counted in microseconds, and a round
starts at the first whole millisecond that is not before its tick.
-/

namespace ClusterMesh

structure Visit where
  round : Round
  due : Nat

/-- What a task of the runner does: one round, or rounds by a ticker whose next tick is due at a
microsecond. A task that has not begun has no visit and no tick. -/
inductive SyncActivity
  | single (visit : Option Visit)
  | periodic (period : Nat) (tick : Option Nat) (visit : Option Visit)
  | finished (report : SyncReport)
  | cancelled

/-- A task of the runner. An aborted one ends as soon as it would run again. -/
structure SyncTask where
  activity : SyncActivity
  aborted : Bool

/-- A call that was made: when, which, for which group and which category. -/
structure CallRecord where
  instant : Nat
  call : SyncCall
  group : String
  category : String
deriving DecidableEq, Repr

structure SyncRunner where
  agenda : Agenda
  groups : GroupManager
  properties : Properties
  synchronizers : List Synchronizer
  tasks : List SyncTask
  calls : List CallRecord

namespace SyncRunner

def start (groups : GroupManager) (properties : Properties) : SyncRunner :=
  ⟨Agenda.empty, groups, properties, [], [], []⟩

instance : Inhabited SyncRunner := ⟨start (GroupManager.start default) ∅⟩

def now (r : SyncRunner) : Nat := r.agenda.now

def register (r : SyncRunner) (s : Synchronizer) : SyncRunner :=
  { r with synchronizers := r.synchronizers ++ [s] }

/-- A runner as the place of its rounds. A call is noted down, and takes the time that its
synchronizer takes for it. -/
def surroundings : Surroundings SyncRunner where
  groups r := r.groups.localGroups.map Group.name
  synchronizers r := r.synchronizers
  properties r := r.properties
  call c group s r :=
    ({ r with calls := r.calls ++ [⟨r.now, c, group, s.category⟩] },
      if c.duration s = 0 then some (c.succeeds s group) else none)

def newRound (r : SyncRunner) : Round := surroundings.newRound r

/-- Go on with a round. Gives the visit that waits for the call at hand, or the report. -/
def proceedRound (r : SyncRunner) (round : Round) : SyncRunner × (Visit ⊕ SyncReport) :=
  match surroundings.proceed round r with
  | (r, .inl round) => (r, .inl ⟨round, r.now + round.duration⟩)
  | (r, .inr report) => (r, .inr report)

def resume (r : SyncRunner) (v : Visit) : SyncRunner × (Visit ⊕ SyncReport) :=
  match v.round.remaining with
  | (group, s) :: _ => r.proceedRound (v.round.afterCall (v.round.next.succeeds s group))
  | [] => (r, .inr v.round.report)

def setActivity (r : SyncRunner) (t : Nat) (a : SyncActivity) : SyncRunner :=
  { r with tasks := r.tasks.modify t (fun task => { task with activity := a }) }

def setAlarm (r : SyncRunner) (due t : Nat) : SyncRunner :=
  { r with agenda := r.agenda.setAlarm due t }

/-- The first whole millisecond that is not before a microsecond. -/
def millisecondOf (tick : Nat) : Nat := (tick + 999) / 1000

def tickAfter (period tick now : Nat) : Nat :=
  if tick + 5000 < now * 1000 then tick + period * ((now * 1000 - tick) / period + 1)
  else tick + period

/-- Start the rounds whose ticks are due, at most so many, until one has to wait or the next
tick is yet to come. -/
def startRounds (r : SyncRunner) (t period tick : Nat) : Nat → SyncRunner
  | 0 => r
  | fuel + 1 =>
    if r.now < millisecondOf tick then
      (r.setActivity t (.periodic period (some tick) none)).setAlarm (millisecondOf tick) t
    else
      let tick := tickAfter period tick r.now
      match r.proceedRound r.newRound with
      | (r, .inl v) => (r.setActivity t (.periodic period (some tick) (some v))).setAlarm v.due t
      | (r, .inr _) => startRounds r t period tick fuel

/-- Start the rounds that are due at this instant; each tick is at least a millisecond after the
one before. -/
def startDueRounds (r : SyncRunner) (t period tick : Nat) : SyncRunner :=
  r.startRounds t period tick (r.now + 2)

def settleSingle (t : Nat) : SyncRunner × (Visit ⊕ SyncReport) → SyncRunner
  | (r, .inl v) => (r.setActivity t (.single (some v))).setAlarm v.due t
  | (r, .inr report) => r.setActivity t (.finished report)

def run (r : SyncRunner) (t : Nat) : SyncRunner :=
  match r.tasks[t]? with
  | none => r
  | some ⟨activity, true⟩ =>
    match activity with
    | .finished _ => r
    | _ => { r.setActivity t .cancelled with agenda := r.agenda.dropAlarms t }
  | some ⟨activity, false⟩ =>
    match activity with
    | .single none => settleSingle t (r.proceedRound r.newRound)
    | .single (some v) => if r.now < v.due then r else settleSingle t (r.resume v)
    | .periodic period none _ => r.startDueRounds t period (r.now * 1000)
    | .periodic period (some tick) none => r.startDueRounds t period tick
    | .periodic period (some tick) (some v) =>
      if r.now < v.due then r
      else
        match r.resume v with
        | (r, .inl v) => (r.setActivity t (.periodic period (some tick) (some v))).setAlarm v.due t
        | (r, .inr _) => r.startDueRounds t period tick
    | .finished _ => r
    | .cancelled => r

def machine : Machine SyncRunner := ⟨agenda, fun r a => { r with agenda := a }, run⟩

def advance (r : SyncRunner) (duration : Nat) : SyncRunner := machine.advance r duration

def settle (r : SyncRunner) : SyncRunner := machine.settle r

def report? (r : SyncRunner) (t : Nat) : Option SyncReport :=
  match r.tasks[t]? with
  | some ⟨.finished report, _⟩ => some report
  | _ => none

def synchronizeAll (r : SyncRunner) : SyncRunner × SyncReport :=
  let t := r.tasks.length
  let r := run { r with tasks := r.tasks ++ [⟨.single none, false⟩] } t
  let r :=
    if (r.report? t).isSome then r else machine.await (fun r => (r.report? t).isSome) r
  (r, (r.report? t).getD default)

/-- The shortest period of a ticker, in microseconds. -/
def shortestPeriod : Nat := 1000

def spawnPeriodic (r : SyncRunner) (period : Nat) : SyncRunner × Nat :=
  let t := r.tasks.length
  ({ r with
      tasks := r.tasks ++ [⟨.periodic (max period shortestPeriod) none none, false⟩]
      agenda := r.agenda.wake t },
    t)

def abort (r : SyncRunner) (t : Nat) : SyncRunner :=
  { r with
    tasks := r.tasks.modify t (fun task => { task with aborted := true })
    agenda := r.agenda.wake t }

end SyncRunner

end ClusterMesh
