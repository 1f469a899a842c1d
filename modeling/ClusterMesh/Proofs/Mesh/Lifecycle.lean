import ClusterMesh.Proofs.Mesh.Preservation

/-!
# The lifecycle of pending commands

In every run an entry of a store is that of the open command that was registered last with its
id, an open command is stored and guarded by its reaper unless its call has failed, and a call
that has returned has left the store and nobody else's entry with it.
-/

namespace ClusterMesh

namespace Mesh

variable {m : Mesh} {r : Registration}

/-- The reaper of a command is at work, and its time is the instant at which the command
expires. -/
def IsArmed (m : Mesh) (r : Registration) : Prop :=
  ∃ due, m.tasks[r.reaper]? = some ⟨r.station, .reaping r.ticket r.timeout due, false⟩ ∧
    (due = none ∧ m.IsReady r.reaper ∧ m.now = r.instant ∨
      due = some (r.instant + r.timeout) ∧ m.IsDue (r.instant + r.timeout) r.reaper)

def HasReturned (m : Mesh) (r : Registration) : Prop :=
  ∃ task instant outcome, m.tasks[r.caller]? = some task ∧
    task.activity = .ended (.returned instant outcome)

/-- The call of a registration returned the error of a transport. -/
def CallFailed (m : Mesh) (r : Registration) : Prop :=
  ∃ task, m.tasks[r.caller]? = some task ∧ task.HasFailed

theorem Tracks.isArmed {p : Pending} {caller reaper : Task} (h : Tracks m r p caller reaper)
    (ho : p.completed = false) (hf : ¬m.CallFailed r) : m.Stores r ∧ m.IsArmed r := by
  obtain ⟨hstored, due, rfl⟩ := h.guarded ho fun hfailed => hf ⟨caller, h.caller_at, hfailed⟩
  refine ⟨hstored, due, h.reaper_at, ?_⟩
  have hstands := h.reaper_stands
  generalize hreaper : Task.mk r.station (.reaping r.ticket r.timeout due) false = reaper at hstands
  cases hstands with
  | starting ready now =>
    cases hreaper
    exact Or.inl ⟨rfl, ready, now⟩
  | armed timed =>
    cases hreaper
    exact Or.inr ⟨rfl, timed⟩
  | ended => cases hreaper

theorem Tracks.not_stored_of_returned {p : Pending} {caller reaper : Task}
    (h : Tracks m r p caller reaper) (hs : (m.store r.station).Sound) (hr : m.HasReturned r)
    (id : String) : (m.store r.station).get? id ≠ some r.ticket := by
  obtain ⟨task, instant, outcome, htask, hended⟩ := hr
  obtain rfl : caller = task := Option.some.inj (h.caller_at.symm.trans htask)
  cases h.caller_stands with
  | returned completed => exact hs.not_stored_of_completed h.pending completed id
  | failed gone =>
    intro hget
    have hid : id = r.command.id := by
      rw [hs.own h.pending id hget, Pending.id, h.command]
    refine gone ?_
    rw [Stores, ← hid]
    exact hget
  | _ => cases hended

end Mesh

namespace History

open Mesh

theorem ticket_lt (h : History) {q q' : Nat} {r r' : Registration} (hq : q < q')
    (he : h.event q = .registers r) (he' : h.event q' = .registers r')
    (hi : r.station = r'.station) : r.ticket < r'.ticket := by
  have hr : r ∈ h.registered q' := h.mem_registered.mpr ⟨q, hq, he⟩
  obtain ⟨p, caller, reaper, ht⟩ := (h.ledger q').tracked hr
  obtain ⟨⟨t, i, c, rfl⟩, -⟩ := (h.upkeep q').enrolled he'
  have hlt := PendingStore.lt_of_command? ht.pending
  rw [hi] at hlt
  exact hlt

/-- What holds of the stores in a state of a run. -/
structure Lifecycle (h : History) (n : Nat) : Prop where
  /-- A stored entry is that of an open command that was registered, and no command of its id was
  registered after it. -/
  stored : ∀ {i id} {k : Nat}, ((h.state n).store i).get? id = some k → ∃ q < n, ∃ r p,
    h.event q = .registers r ∧ r.station = i ∧ r.ticket = k ∧ r.command.id = id ∧
      (h.state n).pending r = some p ∧ p.command = r.command ∧ p.completed = false ∧
      ∀ {q' r'}, q < q' → q' < n → h.event q' = .registers r' → r'.station = i →
        r'.command.id ≠ id
  /-- A registered command that is open, and whose call has not failed to send it, is stored, and
  its reaper is armed. -/
  guarded : ∀ {q r}, q < n → h.event q = .registers r → ∃ p, (h.state n).pending r = some p ∧
    p.command = r.command ∧
    (p.completed = false → ¬(h.state n).CallFailed r →
      (h.state n).Stores r ∧ (h.state n).IsArmed r)
  /-- The entry of a call that has returned is under no id. -/
  returned : ∀ {q r}, q < n → h.event q = .registers r → (h.state n).HasReturned r → ∀ id,
    ((h.state n).store r.station).get? id ≠ some r.ticket
  /-- A later command of its id is still stored unless it is completed or its call has failed. -/
  reused : ∀ {q r q' r' p'}, q < q' → q' < n → h.event q = .registers r →
    h.event q' = .registers r' → r'.station = r.station → r'.command.id = r.command.id →
    (h.state n).HasReturned r → (h.state n).pending r' = some p' → p'.completed = false →
    ¬(h.state n).CallFailed r' →
      ((h.state n).store r.station).get? r.command.id = some r'.ticket
  /-- A call that returns leaves every entry but its own where it is. -/
  returning : ∀ {q r}, q < n → h.event q = .registers r → ¬(h.state n).HasReturned r →
    (h.state (n + 1)).HasReturned r → ∀ {i id} {k : Nat}, (i = r.station → k ≠ r.ticket) →
      (((h.state (n + 1)).store i).get? id = some k ↔ ((h.state n).store i).get? id = some k)

theorem lifecycle (h : History) (n : Nat) : h.Lifecycle n where
  stored := by
    intro i id k hget
    have hledger := h.ledger n
    obtain ⟨p, hp, hid, ho⟩ := (hledger.sound i).entry hget
    obtain ⟨r, hr, rfl, rfl⟩ := hledger.ticketed hp
    obtain ⟨q, hq, he⟩ := h.mem_registered.mp hr
    obtain ⟨p', caller, reaper, ht⟩ := hledger.tracked hr
    obtain rfl : p = p' := Option.some.inj (hp.symm.trans ht.pending)
    have hsame : r.command.id = id := by rw [← ht.command, ← hid, Pending.id]
    refine ⟨q, hq, r, p, he, rfl, rfl, hsame, hp, ht.command, ho, ?_⟩
    intro q' r' hq' hn he' hi hid'
    have hr' : r' ∈ h.registered n := h.mem_registered.mpr ⟨q', hn, he'⟩
    obtain ⟨p', caller', reaper', ht'⟩ := hledger.tracked hr'
    have hp' : ((h.state n).store r.station).command? r'.ticket = some p' := hi ▸ ht'.pending
    -- tickets count the registrations, so that the later command has the larger one
    refine (hledger.sound _).latest hget (h.ticket_lt hq' he he' hi.symm) hp' ?_
    rw [Pending.id, ht'.command, hid']
  guarded := by
    intro q r hq he
    obtain ⟨p, caller, reaper, ht⟩ := (h.ledger n).tracked (h.mem_registered.mpr ⟨q, hq, he⟩)
    exact ⟨p, ht.pending, ht.command, fun ho hf => ht.isArmed ho hf⟩
  returned := by
    intro q r hq he hreturned id
    obtain ⟨p, caller, reaper, ht⟩ := (h.ledger n).tracked (h.mem_registered.mpr ⟨q, hq, he⟩)
    exact ht.not_stored_of_returned ((h.ledger n).sound _) hreturned id
  reused := by
    intro q r q' r' p' _ hn _ he' hi hid _ hp' ho hf
    obtain ⟨p, caller, reaper, ht⟩ := (h.ledger n).tracked (h.mem_registered.mpr ⟨q', hn, he'⟩)
    obtain rfl : p' = p := Option.some.inj (hp'.symm.trans ht.pending)
    rw [← hi, ← hid]
    exact (ht.isArmed ho hf).1
  returning := by
    intro q r hq he hbefore hafter i id k hk
    refine (h.upkeep n).others (h.mem_registered.mpr ⟨q, hq, he⟩) ?_ hk
    intro hsame
    obtain ⟨task, instant, outcome, htask, hended⟩ := hafter
    exact hbefore ⟨task, instant, outcome, hsame ▸ htask, hended⟩

end History

end ClusterMesh
