import ClusterMesh.Execution.Pending

/-!
# The store of pending commands

Commands in flight by their ids. Every command that was ever made pending has a ticket of its
own, so that an entry whose id was used again is not taken for the earlier one.
-/

namespace ClusterMesh

/-- A ticket counts the commands that were made pending before. -/
abbrev Ticket := Nat

/-- The commands by ticket, and the tickets of the stored ones by command id. -/
structure PendingStore where
  commands : List Pending
  entries : Table String Ticket

namespace PendingStore

def empty : PendingStore := ⟨[], ∅⟩

instance : Inhabited PendingStore := ⟨empty⟩

def issue (s : PendingStore) (command : Command) : PendingStore × Ticket :=
  ({ s with commands := s.commands ++ [Pending.ofCommand command] }, s.commands.length)

def command? (s : PendingStore) (ticket : Ticket) : Option Pending := s.commands[ticket]?

def update (s : PendingStore) (ticket : Ticket) (f : Pending → Pending) : PendingStore :=
  { s with commands := s.commands.modify ticket f }

/-- Store a ticket under an id and give back the one that it displaces. -/
def put (s : PendingStore) (id : String) (ticket : Ticket) : PendingStore × Option Ticket :=
  ({ s with entries := Table.set s.entries id ticket }, Table.get? s.entries id)

def get? (s : PendingStore) (id : String) : Option Ticket := Table.get? s.entries id

def remove (s : PendingStore) (id : String) : PendingStore × Option Ticket :=
  ({ s with entries := s.entries.erase id }, s.get? id)

/-- Take a ticket out of the store if it is the one under the id of its command. -/
def removeEntry (s : PendingStore) (ticket : Ticket) : PendingStore × Bool :=
  match s.command? ticket with
  | some p =>
    if s.get? p.id = some ticket then ({ s with entries := s.entries.erase p.id }, true)
    else (s, false)
  | none => (s, false)

/-- Take in results for a ticket. Tells whether this completed its command. -/
def addResults (s : PendingStore) (ticket : Ticket) (incoming : List CommandResult) :
    PendingStore × Bool :=
  match s.command? ticket with
  | some p =>
    let after := p.addResults incoming
    (s.update ticket (fun _ => after.1), after.2)
  | none => (s, false)

/-- Complete the command of a ticket whose time is over. Tells whether this completed it. -/
def onTimeout (s : PendingStore) (ticket : Ticket) : PendingStore × Bool :=
  match s.command? ticket with
  | some p =>
    let after := p.onTimeout
    (s.update ticket (fun _ => after.1), after.2)
  | none => (s, false)

/-- Take an expired ticket out of the store and complete its command. One that is not in the
store any more is left alone. Tells whether it was there. -/
def expire (s : PendingStore) (ticket : Ticket) : PendingStore × Bool :=
  let removed := s.removeEntry ticket
  if removed.2 then ((removed.1.onTimeout ticket).1, true) else (removed.1, false)

/-- Take a result in for the stored command of its id. A command that this completes leaves the
store, and its ticket is given. -/
def correlate (s : PendingStore) (result : CommandResult) : PendingStore × Option Ticket :=
  match s.get? result.id with
  | some ticket =>
    let after := s.addResults ticket [result]
    if after.2 then ((after.1.removeEntry ticket).1, some ticket) else (after.1, none)
  | none => (s, none)

end PendingStore

end ClusterMesh
