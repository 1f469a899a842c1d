import ClusterMesh.Execution.Results

/-!
# Pending commands

A command whose results are being collected. It is completed once: by a result after which
every node of the destination can have answered, or by its expiry. The results that it has at
that moment are handed to the caller who waits for them.
-/

namespace ClusterMesh

/-- Where the results of a command are on their way to the caller. -/
inductive Delivery
  | awaited
  | delivered (results : Results)
  | taken
  | abandoned

structure Pending where
  command : Command
  results : Results
  completed : Bool
  delivery : Delivery

namespace Pending

def ofCommand (command : Command) : Pending := ⟨command, ∅, false, .awaited⟩

instance : Inhabited Pending := ⟨ofCommand default⟩

def id (p : Pending) : String := p.command.id

def received (p : Pending) : Nat := p.results.size

/-- A completed command: its results are handed over unless nobody waits for them. -/
def closed (p : Pending) : Pending :=
  { p with
    completed := true
    delivery :=
      match p.delivery with
      | .awaited => .delivered p.results
      | delivery => delivery }

/-- Complete a command with the results that it has, unless it was completed before. -/
def complete (p : Pending) : Pending × Bool := if p.completed then (p, false) else (p.closed, true)

/-- Take in results, and complete the command if as many nodes have answered as its destination
has. Tells whether this completed it. -/
def addResults (p : Pending) (incoming : List CommandResult) : Pending × Bool :=
  if p.completed then (p, false)
  else
    let p := { p with results := p.results.addAll incoming }
    match p.command.expected with
    | some expected => if expected ≤ p.received then p.complete else (p, false)
    | none => (p, false)

/-- Complete a command whose time is over. Tells whether this completed it. -/
def onTimeout (p : Pending) : Pending × Bool := p.complete

def take (p : Pending) : Pending :=
  match p.delivery with
  | .delivered _ => { p with delivery := .taken }
  | _ => p

def abandon (p : Pending) : Pending := { p with delivery := .abandoned }

end Pending

end ClusterMesh
