import ClusterMesh.Cluster.Group
import ClusterMesh.Properties

/-!
# Rounds of synchronization

A round visits every pair of a local group and a synchronizer, group after group. A pair whose
category is not synchronized for the group is skipped, as its toggle stands when the pair's
turn comes. Otherwise the synchronizer pulls the state of the group and, if that went well,
pushes its own.
-/

namespace ClusterMesh

/-- The groups for which a call fails. -/
inductive Failing
  | everywhere
  | groups (names : List String)
deriving DecidableEq, Repr

def Failing.appliesTo : Failing → String → Bool
  | .everywhere, _ => true
  | .groups names, group => names.contains group

/-- A synchronizer of a category: for which groups its calls fail, and how many milliseconds
they take. -/
structure Synchronizer where
  category : String
  pullFails : Failing
  pushFails : Failing
  pullMs : Nat
  pushMs : Nat
deriving DecidableEq, Repr

inductive SyncCall
  | pull
  | push
deriving DecidableEq, Repr

namespace SyncCall

def name : SyncCall → String
  | pull => "pull"
  | push => "push"

def duration (s : Synchronizer) : SyncCall → Nat
  | pull => s.pullMs
  | push => s.pushMs

def succeeds (s : Synchronizer) (group : String) : SyncCall → Bool
  | pull => !s.pullFails.appliesTo group
  | push => !s.pushFails.appliesTo group

end SyncCall

structure SyncReport where
  synchronized : Nat
  skipped : Nat
  failed : Nat
deriving DecidableEq, Repr, Inhabited

/-- The pairs that a round has not finished, the one at hand first, the call that comes next for
it, and the report so far. -/
structure Round where
  remaining : List (String × Synchronizer)
  next : SyncCall
  report : SyncReport

namespace Round

def start (groups : List String) (synchronizers : List Synchronizer) : Round :=
  ⟨groups.flatMap (fun g => synchronizers.map (fun s => (g, s))), .pull, ⟨0, 0, 0⟩⟩

def skipDisabled (properties : Properties) (r : Round) : Round :=
  let skipped := r.remaining.takeWhile (fun p => !properties.syncEnabled p.1 p.2.category)
  { r with
    remaining := r.remaining.drop skipped.length
    report := { r.report with skipped := r.report.skipped + skipped.length } }

/-- How long the call for the pair at hand takes. -/
def duration (r : Round) : Nat :=
  match r.remaining with
  | (_, s) :: _ => r.next.duration s
  | [] => 0

/-- The round after the call for the pair at hand: a pull that went well is followed by the
push, and anything else ends the pair. -/
def afterCall (r : Round) (succeeded : Bool) : Round :=
  match r.next, succeeded with
  | .pull, true => { r with next := .push }
  | .push, true =>
    { remaining := r.remaining.drop 1
      next := .pull
      report := { r.report with synchronized := r.report.synchronized + 1 } }
  | _, false =>
    { remaining := r.remaining.drop 1
      next := .pull
      report := { r.report with failed := r.report.failed + 1 } }

end Round

/-- Where rounds take place: the local groups and the synchronizers, the properties as they stand, and
what a call does there. A call ends at once, well or badly, or it takes time. -/
structure Surroundings (σ : Type) where
  groups : σ → List String
  synchronizers : σ → List Synchronizer
  properties : σ → Properties
  call : SyncCall → String → Synchronizer → σ → σ × Option Bool

namespace Surroundings

variable {σ : Type}

def newRound (w : Surroundings σ) (s : σ) : Round := Round.start (w.groups s) (w.synchronizers s)

/-- Go on with a round until a call takes time: make the next call, or end. At most so many
calls are made. Gives the round that waits for its call, or the report. -/
def proceedWithin (w : Surroundings σ) : Nat → Round → σ → σ × (Round ⊕ SyncReport)
  | 0, round, s => (s, .inr round.report)
  | fuel + 1, round, s =>
    let round := if round.next = .pull then round.skipDisabled (w.properties s) else round
    match round.remaining with
    | [] => (s, .inr round.report)
    | (group, synchronizer) :: _ =>
      match w.call round.next group synchronizer s with
      | (s, some succeeded) => proceedWithin w fuel (round.afterCall succeeded) s
      | (s, none) => (s, .inl round)

/-- Go on with a round. No pair is called for more than twice. -/
def proceed (w : Surroundings σ) (round : Round) (s : σ) : σ × (Round ⊕ SyncReport) :=
  w.proceedWithin (2 * round.remaining.length + 1) round s

end Surroundings

end ClusterMesh
