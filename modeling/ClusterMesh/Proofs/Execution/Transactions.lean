import ClusterMesh.Proofs.Execution.Entries

/-!
# Transactions on a store

Commands are registered, results are correlated with them, and they are closed: they expire, their
callers collect the results, or they are given up. A registered command is known by its id and its
rank, which counts the commands that were registered under the id before.
-/

namespace ClusterMesh

inductive Closing
  | expire
  | collect
  | withdraw
  | abandon
deriving DecidableEq, Repr

inductive Transaction
  | register (c : Command)
  | correlate (r : CommandResult)
  | close (how : Closing) (id : String) (n : Nat)

/-- What a transaction answers: the rank of a new command and of the one that it displaces, the
rank of the command that a result completes, or whether a command was stored when it was closed and
the results that its caller gets. -/
inductive Answer
  | registered (n : Nat) (displaced : Option Nat)
  | correlated (completed : Option Nat)
  | closed (stored : Bool) (results : Option Results)

def Transaction.id : Transaction → String
  | register c => c.id
  | correlate r => r.id
  | close _ id _ => id

namespace Pending

/-- What a caller gets: the results that were delivered, or else those that have come in. -/
def outcome (p : Pending) : Results :=
  match p.delivery with
  | .delivered results => results
  | _ => p.results

/-- A command that its caller waits for no longer. -/
def settled (p : Pending) : Pending :=
  match p.delivery with
  | .delivered _ => p
  | _ => p.onTimeout.1

end Pending

namespace Closing

/-- What becomes of a command that is closed. -/
def leaves (how : Closing) (stored : Bool) (p : Pending) : Pending :=
  match how with
  | expire => if stored then p.onTimeout.1 else p
  | collect => p.settled.take
  | withdraw => p
  | abandon => p.abandon

def removes : Closing → Bool
  | abandon => false
  | _ => true

def answer (how : Closing) (stored : Bool) (p : Pending) : Answer :=
  match how with
  | expire | withdraw => .closed stored none
  | collect => .closed stored (some p.outcome)
  | abandon => .closed false none

theorem leaves_id (how : Closing) (stored : Bool) (p : Pending) : (how.leaves stored p).id = p.id := by
  have hcommand : p.onTimeout.1.command = p.command := by
    unfold Pending.onTimeout Pending.complete
    split <;> rfl
  cases how with
  | expire => cases stored <;> simp [leaves, Pending.id, hcommand]
  | collect =>
    simp only [leaves, Pending.id, (Pending.take_eq _).1, Pending.settled]
    split <;> simp [hcommand]
  | withdraw => rfl
  | abandon => rfl

end Closing

namespace PendingStore

/-- How many commands of an id have earlier tickets. -/
def rank (s : PendingStore) (id : String) (k : Ticket) : Nat :=
  ((s.commands.take k).filter (fun p => p.id == id)).length

def ticket? (s : PendingStore) (id : String) (n : Nat) : Option Ticket :=
  (List.range s.commands.length).find? fun k =>
    (s.command? k).any (fun p => p.id == id) && s.rank id k == n

/-- Store a new command, which completes the one that it displaces. -/
def register (s : PendingStore) (c : Command) : PendingStore × Option Ticket :=
  let issued := s.issue c
  let put := issued.1.put c.id issued.2
  match put.2 with
  | some displaced => ((put.1.onTimeout displaced).1, some displaced)
  | none => (put.1, none)

/-- Close a command. Also tells whether it was stored, and what its caller gets. -/
def close (s : PendingStore) (k : Ticket) : Closing → PendingStore × Bool × Option Results
  | .expire => ((s.expire k).1, (s.expire k).2, none)
  | .collect =>
    let after := (s.update k (fun p => p.settled.take)).removeEntry k
    (after.1, after.2, (s.command? k).map Pending.outcome)
  | .withdraw => ((s.removeEntry k).1, (s.removeEntry k).2, none)
  | .abandon => (s.update k Pending.abandon, false, none)

def perform (s : PendingStore) : Transaction → PendingStore × Answer
  | .register c =>
    ((s.register c).1, .registered (s.rank c.id s.commands.length)
      ((s.register c).2.map (s.rank c.id)))
  | .correlate r => ((s.correlate r).1, .correlated ((s.correlate r).2.map (s.rank r.id)))
  | .close how id n =>
    match s.ticket? id n with
    | some k => ((s.close k how).1, .closed (s.close k how).2.1 (s.close k how).2.2)
    | none => (s, .closed false none)

/-- Perform transactions one after the other. Also gives each with its answer. -/
def performAll (s : PendingStore) : List Transaction → PendingStore × List (Transaction × Answer)
  | [] => (s, [])
  | e :: es =>
    let first := s.perform e
    let rest := first.1.performAll es
    (rest.1, (e, first.2) :: rest.2)

variable {s s' : PendingStore} {k l n : Nat} {p p' : Pending} {id : String}

theorem performAll_append (s : PendingStore) (es es' : List Transaction) :
    s.performAll (es ++ es') =
      (((s.performAll es).1.performAll es').1,
        (s.performAll es).2 ++ ((s.performAll es).1.performAll es').2) := by
  induction es generalizing s with
  | nil => rfl
  | cons e es ih => simp only [List.cons_append, performAll, ih]

/-! ### Ranks -/

theorem rank_succ (hp : s.command? k = some p) :
    s.rank id (k + 1) = if p.id = id then s.rank id k + 1 else s.rank id k := by
  have htake : s.commands.take (k + 1) = s.commands.take k ++ [p] := by
    rw [List.take_add_one, show s.commands[k]? = some p from hp]
    rfl
  simp only [rank, htake, List.filter_append, List.length_append]
  by_cases hid : p.id = id <;> simp [hid]

theorem rank_mono (h : k ≤ l) : s.rank id k ≤ s.rank id l := by
  have htake : s.commands.take k = (s.commands.take l).take k := by
    rw [List.take_take, Nat.min_eq_left h]
  rw [rank, rank, htake]
  exact ((List.take_sublist k _).filter _).length_le

theorem rank_lt (hp : s.command? k = some p) (hid : p.id = id) (h : k < l) :
    s.rank id k < s.rank id l := by
  have hnext : s.rank id (k + 1) = s.rank id k + 1 := (rank_succ hp).trans (if_pos hid)
  have hle : s.rank id (k + 1) ≤ s.rank id l := rank_mono h
  omega

theorem rank_inj (hp : s.command? k = some p) (hid : p.id = id) (hp' : s.command? l = some p')
    (hid' : p'.id = id) : s.rank id k = s.rank id l ↔ k = l := by
  constructor
  · intro h
    rcases Nat.lt_trichotomy k l with hlt | heq | hgt
    · have := rank_lt hp hid hlt
      omega
    · exact heq
    · have := rank_lt hp' hid' hgt
      omega
  · intro h
    rw [h]

theorem ticket?_eq_some (s : PendingStore) (id : String) (n k : Nat) :
    s.ticket? id n = some k ↔ ∃ p, s.command? k = some p ∧ p.id = id ∧ s.rank id k = n := by
  have hmatch : ∀ l : Nat, ((s.command? l).any (fun p => p.id == id) && s.rank id l == n) = true ↔
      ∃ p, s.command? l = some p ∧ p.id = id ∧ s.rank id l = n := by
    intro l
    cases s.command? l <;> simp
  constructor
  · intro h
    unfold ticket? at h
    have hfound := List.find?_some h
    exact (hmatch k).mp hfound
  · intro h
    obtain ⟨p, hp, hid, hrank⟩ := h
    unfold ticket?
    cases hfind : (List.range s.commands.length).find? fun k =>
        (s.command? k).any (fun p => p.id == id) && s.rank id k == n with
    | some l =>
      have hfound := List.find?_some hfind
      obtain ⟨q, hq, hqid, hqrank⟩ := (hmatch l).mp hfound
      rw [(rank_inj hp hid hq hqid).mp (hrank.trans hqrank.symm)]
    | none =>
      have hnone := List.find?_eq_none.mp hfind k (List.mem_range.mpr (lt_of_command? hp))
      exact absurd ((hmatch k).mpr ⟨p, hp, hid, hrank⟩) hnone

theorem ticket?_rank (hp : s.command? k = some p) : s.ticket? p.id (s.rank p.id k) = some k :=
  (ticket?_eq_some s _ _ k).mpr ⟨p, hp, rfl, rfl⟩

/-! ### Closing -/

theorem alters_close (h : s.Sound) (hp : s.command? k = some p) (how : Closing) :
    s.Alters k (how.leaves (decide (s.get? p.id = some k)) p) (how.removes = true)
      (s.close k how).1 := by
  cases how with
  | expire =>
    obtain ⟨hstored, ho, ha, -⟩ | ⟨hnot, heq⟩ := expire_cases h hp
    · simpa [Closing.leaves, Closing.removes, close, hstored, Pending.onTimeout,
        Pending.complete_of_open ho] using ha
    · have hout : ∀ id, s.get? id ≠ some k := fun id hget =>
        hnot ((h.own hp id hget) ▸ hget)
      simp only [Closing.leaves, Closing.removes, close, heq, hnot, decide_false]
      refine ⟨(alters_refl hp).command, fun id l => ?_⟩
      refine ⟨fun hget => ⟨hget, fun _ hl => hout id (hl ▸ hget)⟩, And.left⟩
  | collect =>
    have hupdated := alters_update (fun p => p.settled.take) hp
    have hcommand : (s.update k (fun p => p.settled.take)).command? k = some p.settled.take := by
      rw [hupdated.command, if_pos rfl]
    have hown : ∀ id, (s.update k (fun p => p.settled.take)).get? id = some k →
        id = p.settled.take.id := by
      intro id hget
      rw [h.own hp id hget]
      exact (Closing.leaves_id .collect false p).symm
    have hboth := hupdated.trans (removeEntry_alters hcommand hown)
    simpa [Closing.leaves, Closing.removes, close] using hboth
  | withdraw =>
    simpa [Closing.leaves, Closing.removes, close] using removeEntry_alters hp (h.own hp)
  | abandon =>
    simpa [Closing.leaves, Closing.removes, close] using alters_update Pending.abandon hp

theorem close_snd (h : s.Sound) (hp : s.command? k = some p) (how : Closing) :
    Answer.closed (s.close k how).2.1 (s.close k how).2.2 =
      how.answer (decide (s.get? p.id = some k)) p := by
  cases how with
  | expire =>
    obtain ⟨hstored, -, -, htrue⟩ | ⟨hnot, heq⟩ := expire_cases h hp
    · simp [close, Closing.answer, hstored, htrue]
    · simp [close, Closing.answer, hnot, heq]
  | collect =>
    have hcommand : (s.update k (fun p => p.settled.take)).command? k = some p.settled.take := by
      rw [command?_update, if_pos rfl, hp]
      rfl
    have hid : p.settled.take.id = p.id := Closing.leaves_id .collect false p
    simp only [close, Closing.answer, removeEntry_snd hcommand, hid, get?_update, hp, Option.map_some]
  | withdraw => simp [close, Closing.answer, removeEntry_snd hp]
  | abandon => simp [close, Closing.answer]

theorem Sound.close (h : s.Sound) (hp : s.command? k = some p) (how : Closing) :
    (s.close k how).1.Sound := by
  refine h.alters (alters_close h hp how) hp (Closing.leaves_id ..) ?_
  intro hc
  cases how with
  | abandon => exact Or.inr hc
  | _ => exact Or.inl rfl

theorem register_adds (h : s.Sound) (c : Command) :
    (s.get? c.id = none ∧ s.Adds c (s.register c).1 ∧ (s.register c).2 = none) ∨
      ∃ (k : Nat) (p : Pending), s.get? c.id = some k ∧ s.command? k = some p ∧ p.id = c.id ∧
        (s.close k .expire).1.Adds c (s.register c).1 ∧ (s.register c).2 = some k := by
  have hput : ((s.issue c).1.put c.id s.commands.length).2 = s.get? c.id := rfl
  cases hget : s.get? c.id with
  | none =>
    rw [hget] at hput
    have heq : s.register c = (((s.issue c).1.put c.id s.commands.length).1, none) := by
      simp only [register, issue] at hput ⊢
      rw [hput]
    rw [heq]
    exact Or.inl ⟨rfl, put_issue_adds s c, rfl⟩
  | some k =>
    rw [hget] at hput
    have heq : s.register c =
        ((((s.issue c).1.put c.id s.commands.length).1.onTimeout k).1, some k) := by
      simp only [register, issue] at hput ⊢
      rw [hput]
    obtain ⟨p, hp, hid, -⟩ := h.entry hget
    rw [heq]
    exact Or.inr ⟨k, p, rfl, hp, hid, put_issue_displacing h hget hp, rfl⟩

theorem Sound.register (h : s.Sound) (c : Command) : (s.register c).1.Sound := by
  obtain ⟨-, hadds, -⟩ | ⟨k, p, -, hp, -, hadds, -⟩ := register_adds h c
  · exact hadds.sound h
  · exact hadds.sound (h.close hp .expire)

theorem Sound.correlate (h : s.Sound) (r : CommandResult) : (s.correlate r).1.Sound := by
  obtain ⟨-, heq⟩ | ⟨k, p, -, hp, -, ho, ⟨-, ha, -⟩ | ⟨-, ha, -⟩⟩ := correlate_cases h r
  · rw [heq]
    exact h
  · exact h.alters ha hp rfl fun _ => Or.inl trivial
  · refine h.alters ha hp rfl fun hc => ?_
    rw [show (p.collecting r).completed = p.completed from rfl, ho] at hc
    cases hc

/-- Every transaction keeps the store sound. -/
theorem Sound.perform (h : s.Sound) (e : Transaction) : (s.perform e).1.Sound := by
  cases e with
  | register c => exact h.register c
  | correlate r => exact h.correlate r
  | close how id n =>
    simp only [PendingStore.perform]
    split
    · next k hk =>
      obtain ⟨p, hp, -, -⟩ := (ticket?_eq_some s id n k).mp hk
      exact h.close hp how
    · exact h

theorem Sound.performAll (h : s.Sound) (es : List Transaction) : (s.performAll es).1.Sound := by
  induction es generalizing s with
  | nil => exact h
  | cons e es ih => exact ih (h.perform e)

end PendingStore

end ClusterMesh
