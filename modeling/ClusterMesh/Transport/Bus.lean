import ClusterMesh.Collection.KeyedList

/-!
# Buses

A bus hands every message to each of its subscribers. It keeps the last messages up to its
capacity; a subscriber that fell further behind is told how many it has missed and goes on with
the oldest that is kept. A message that is published while there are no subscribers is lost.
-/

namespace ClusterMesh

/-- A bus for messages of a type. Subscribers are known by number, and each is at a position
in the count of messages; `waiting` are the tasks that wait for the next message. -/
structure Bus (μ : Type) where
  capacity : Nat
  published : Nat
  kept : List μ
  positions : Table Nat Nat
  nextSubscriber : Nat
  waiting : KeyedList (fun task : Nat => task)

inductive Reception (μ : Type)
  | nothing
  | message (m : μ)
  | lagged (missed : Nat)

namespace Bus

variable {μ : Type}

def powerAtLeast (n : Nat) : Nat := if n ≤ 1 then 1 else Nat.pow 2 (Nat.log2 (n - 1) + 1)

/-- A bus without subscribers that keeps at least so many messages, and at least one. -/
def ofCapacity (capacity : Nat) : Bus μ := ⟨powerAtLeast capacity, 0, [], ∅, 0, ∅⟩

instance : Inhabited (Bus μ) := ⟨ofCapacity 1⟩

def subscriberCount (b : Bus μ) : Nat := b.positions.size

def subscribe (b : Bus μ) : Bus μ × Nat :=
  ({ b with
      positions := Table.set b.positions b.nextSubscriber b.published
      nextSubscriber := b.nextSubscriber + 1 },
    b.nextSubscriber)

def unsubscribe (b : Bus μ) (subscriber : Nat) : Bus μ :=
  { b with positions := b.positions.erase subscriber }

def await (b : Bus μ) (task : Nat) : Bus μ := { b with waiting := b.waiting.insert task }

def leave (b : Bus μ) (task : Nat) : Bus μ := { b with waiting := b.waiting.erase task }

/-- Hand a message to the subscribers. Also gives the tasks that waited for it, in order. -/
def publish (b : Bus μ) (m : μ) : Bus μ × List Nat :=
  if b.positions.isEmpty then (b, [])
  else
    let kept := b.kept ++ [m]
    ({ b with
        published := b.published + 1
        kept := kept.drop (kept.length - b.capacity)
        waiting := ∅ },
      b.waiting.toList)

def unread (b : Bus μ) (subscriber : Nat) : Nat :=
  b.published - (Table.get? b.positions subscriber).getD b.published

def receive (b : Bus μ) (subscriber : Nat) : Bus μ × Reception μ :=
  let unread := b.unread subscriber
  if b.kept.length < unread then
    ({ b with positions := Table.set b.positions subscriber (b.published - b.kept.length) },
      .lagged (unread - b.kept.length))
  else
    match b.kept.drop (b.kept.length - unread) with
    | [] => (b, .nothing)
    | m :: _ =>
      ({ b with positions := Table.set b.positions subscriber (b.published - unread + 1) },
        .message m)

end Bus

end ClusterMesh
