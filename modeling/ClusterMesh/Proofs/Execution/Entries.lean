import ClusterMesh.Execution.Store
import Mathlib.Tactic.ByContra
import Mathlib.Tactic.Tauto

/-!
# The entries of the store

A store is seen through the command of each ticket and the ticket under each id. In a sound store
an entry is that of an open command under its own id, and no later command has this id. What the
store does to one ticket is said once, as an alteration, and keeps the store sound.
-/

namespace ClusterMesh

namespace Pending

variable {p : Pending}

/-- An open command that has taken in a result. -/
def collecting (p : Pending) (r : CommandResult) : Pending := { p with results := p.results.add r }

/-- As many nodes have answered as the destination has. -/
def IsFull (p : Pending) : Prop := ∃ expected, p.command.expected = some expected ∧
  expected ≤ p.results.size

theorem complete_of_open (h : p.completed = false) : p.complete = (p.closed, true) := by
  simp [complete, h]

theorem addResults_one (h : p.completed = false) (r : CommandResult) :
    (p.collecting r).IsFull ∧ p.addResults [r] = ((p.collecting r).closed, true) ∨
      ¬(p.collecting r).IsFull ∧ p.addResults [r] = (p.collecting r, false) := by
  have hresults : p.results.addAll [r] = p.results.add r := rfl
  cases he : p.command.expected with
  | none =>
    refine Or.inr ⟨?_, ?_⟩
    · intro hall
      obtain ⟨expected, hsome, -⟩ := hall
      cases he.symm.trans hsome
    · simp [addResults, h, he, collecting, hresults]
  | some expected =>
    by_cases hle : expected ≤ (p.results.add r).size
    · refine Or.inl ⟨⟨expected, he, hle⟩, ?_⟩
      simp [addResults, h, he, collecting, hresults, received, hle, complete]
    · refine Or.inr ⟨?_, ?_⟩
      · intro hall
        obtain ⟨other, hsome, hother⟩ := hall
        obtain rfl : expected = other := Option.some.inj (he.symm.trans hsome)
        exact hle hother
      · simp [addResults, h, he, collecting, hresults, received, hle]

theorem take_eq (p : Pending) : p.take.command = p.command ∧ p.take.results = p.results ∧
    p.take.completed = p.completed := by
  unfold take
  split <;> exact ⟨rfl, rfl, rfl⟩

end Pending

namespace PendingStore

variable {s s' : PendingStore} {k : Nat} {p p' : Pending} {gone : Prop}

/-- Each entry is an open command under its own id, and the last one that has this id. -/
structure Sound (s : PendingStore) : Prop where
  entry : ∀ {id} {k : Nat}, s.get? id = some k → ∃ p, s.command? k = some p ∧ p.id = id ∧
    p.completed = false
  latest : ∀ {id} {k : Nat}, s.get? id = some k →
    ∀ {l : Nat} {p}, k < l → s.command? l = some p → p.id ≠ id

/-- The store with another state of one ticket, which may have left the entries. -/
structure Alters (s : PendingStore) (k : Nat) (p' : Pending) (gone : Prop)
    (s' : PendingStore) : Prop where
  command : ∀ l : Nat, s'.command? l = if l = k then some p' else s.command? l
  entry : ∀ id (l : Nat), s'.get? id = some l ↔ s.get? id = some l ∧ (gone → l ≠ k)

theorem command?_update (s : PendingStore) (k : Nat) (f : Pending → Pending) (l : Nat) :
    (s.update k f).command? l = if l = k then (s.command? k).map f else s.command? l := by
  by_cases h : l = k
  · subst h
    simp [update, command?]
  · have hne : ¬k = l := fun hkl => h hkl.symm
    simp [update, command?, h, hne]

@[simp] theorem get?_update (s : PendingStore) (k : Nat) (f : Pending → Pending) (id : String) :
    (s.update k f).get? id = s.get? id := rfl

theorem alters_update (f : Pending → Pending) (hp : s.command? k = some p) :
    s.Alters k (f p) False (s.update k f) := by
  refine ⟨?_, ?_⟩
  · intro l
    rw [command?_update, hp]
    rfl
  · simp

theorem alters_refl (hp : s.command? k = some p) : s.Alters k p False s := by
  refine ⟨?_, ?_⟩
  · intro l
    split
    · next hl => rw [hl, hp]
    · rfl
  · simp

namespace Sound

theorem get?_iff (h : s.Sound) (hp : s.command? k = some p) {id : String} :
    s.get? id = some k ↔ p.id = id ∧ s.get? p.id = some k := by
  constructor
  · intro hget
    obtain ⟨q, hq, hid, -⟩ := h.entry hget
    obtain rfl : p = q := Option.some.inj (hp.symm.trans hq)
    exact ⟨hid, hid ▸ hget⟩
  · intro hall
    obtain ⟨rfl, hget⟩ := hall
    exact hget

theorem own (h : s.Sound) (hp : s.command? k = some p) (id : String) (hget : s.get? id = some k) :
    id = p.id :=
  ((h.get?_iff hp).mp hget).1.symm

theorem not_stored_of_completed (h : s.Sound) (hp : s.command? k = some p)
    (hc : p.completed = true) (id : String) : s.get? id ≠ some k := by
  intro hget
  obtain ⟨q, hq, -, hopen⟩ := h.entry hget
  obtain rfl : p = q := Option.some.inj (hp.symm.trans hq)
  rw [hc] at hopen
  cases hopen

theorem alters (h : s.Sound) (ha : s.Alters k p' gone s') (hp : s.command? k = some p)
    (hid : p'.id = p.id) (hopen : p'.completed = true → gone ∨ p.completed = true) : s'.Sound := by
  refine ⟨?_, ?_⟩
  · intro id l hget
    obtain ⟨hold, hstay⟩ := (ha.entry id l).mp hget
    obtain ⟨q, hq, hqid, hqopen⟩ := h.entry hold
    by_cases hl : l = k
    · subst hl
      obtain rfl : p = q := Option.some.inj (hp.symm.trans hq)
      refine ⟨p', by rw [ha.command, if_pos rfl], by rw [hid, hqid], ?_⟩
      by_contra hne
      rcases hopen (by simpa using hne) with hgone | hc
      · exact hstay hgone rfl
      · rw [hc] at hqopen
        cases hqopen
    · exact ⟨q, by rw [ha.command, if_neg hl, hq], hqid, hqopen⟩
  · intro id l hget m q hlt hq
    obtain ⟨hold, -⟩ := (ha.entry id l).mp hget
    rw [ha.command] at hq
    by_cases hm : m = k
    · subst hm
      rw [if_pos rfl] at hq
      obtain rfl : p' = q := Option.some.inj hq
      rw [hid]
      exact h.latest hold hlt hp
    · rw [if_neg hm] at hq
      exact h.latest hold hlt hq

end Sound

/-! ### Taking entries out -/

theorem get?_erase_iff (s : PendingStore) (id j : String) (l : Nat) :
    ({ s with entries := s.entries.erase id } : PendingStore).get? j = some l ↔
      s.get? j = some l ∧ j ≠ id := by
  simp only [get?, Table.get?_erase]
  by_cases h : j = id <;> simp [h]

theorem removeEntry_alters (hp : s.command? k = some p)
    (hown : ∀ id, s.get? id = some k → id = p.id) : s.Alters k p True (s.removeEntry k).1 := by
  have hcommand : ∀ l, (s.removeEntry k).1.command? l = s.command? l := by
    intro l
    simp only [removeEntry, hp]
    split <;> rfl
  refine ⟨?_, ?_⟩
  · intro l
    rw [hcommand]
    split
    · next hl => rw [hl, hp]
    · rfl
  · intro id l
    simp only [removeEntry, hp, true_imp_iff]
    by_cases hstored : s.get? p.id = some k
    · rw [if_pos hstored, get?_erase_iff]
      refine and_congr_right ?_
      intro hget
      constructor
      · intro hne heq
        subst heq
        exact hne (hown id hget)
      · intro hne heq
        subst heq
        exact hne (Option.some.inj (hget.symm.trans hstored))
    · rw [if_neg hstored]
      constructor
      · intro hget
        refine ⟨hget, ?_⟩
        intro heq
        subst heq
        exact hstored (hown id hget ▸ hget)
      · exact And.left

theorem removeEntry_snd (hp : s.command? k = some p) :
    (s.removeEntry k).2 = decide (s.get? p.id = some k) := by
  simp only [removeEntry, hp]
  by_cases h : s.get? p.id = some k <;> simp [h]

theorem removeEntry_of_not_stored (hp : s.command? k = some p) (h : s.get? p.id ≠ some k) :
    s.removeEntry k = (s, false) := by
  simp [removeEntry, hp, h]

theorem Alters.trans {s'' : PendingStore} {gone gone' : Prop} {p'' : Pending}
    (h : s.Alters k p' gone s') (h' : s'.Alters k p'' gone' s'') :
    s.Alters k p'' (gone ∨ gone') s'' := by
  refine ⟨?_, ?_⟩
  · intro l
    rw [h'.command, h.command]
    split <;> rfl
  · intro id l
    rw [h'.entry, h.entry, or_imp]
    tauto

theorem Alters.settled {q : Pending} (h : s.Alters k q False s')
    (hown : ∀ id, s.get? id = some k → id = q.id) :
    s.Alters k q.take True ((s'.update k Pending.take).removeEntry k).1 := by
  have hq : s'.command? k = some q := by rw [h.command, if_pos rfl]
  have htaken := h.trans (alters_update Pending.take hq)
  have hcommand : (s'.update k Pending.take).command? k = some q.take := by
    rw [htaken.command, if_pos rfl]
  have hown' : ∀ id, (s'.update k Pending.take).get? id = some k → id = q.take.id := by
    intro id hget
    have hold := ((htaken.entry id k).mp hget).1
    simpa only [Pending.id, (Pending.take_eq q).1] using hown id hold
  simpa using htaken.trans (removeEntry_alters hcommand hown')

/-! ### What the store does to a ticket -/

theorem onTimeout_of_open (hp : s.command? k = some p) (ho : p.completed = false) :
    s.onTimeout k = (s.update k (fun _ => p.closed), true) := by
  simp [onTimeout, hp, Pending.onTimeout, Pending.complete_of_open ho]

theorem expire_cases (h : s.Sound) (hp : s.command? k = some p) :
    (s.get? p.id = some k ∧ p.completed = false ∧ s.Alters k p.closed True (s.expire k).1 ∧
        (s.expire k).2 = true) ∨
      (s.get? p.id ≠ some k ∧ s.expire k = (s, false)) := by
  by_cases hstored : s.get? p.id = some k
  · obtain ⟨q, hq, -, ho⟩ := h.entry hstored
    obtain rfl : p = q := Option.some.inj (hp.symm.trans hq)
    have hremoved := removeEntry_alters hp (h.own hp)
    have hcommand : (s.removeEntry k).1.command? k = some p := by
      rw [hremoved.command, if_pos rfl]
    have hsnd : (s.removeEntry k).2 = true := by
      rw [removeEntry_snd hp]
      simpa using hstored
    have hexpire : s.expire k = (((s.removeEntry k).1.update k (fun _ => p.closed)), true) := by
      simp [expire, hsnd, onTimeout_of_open hcommand ho]
    refine Or.inl ⟨hstored, ho, ?_, by rw [hexpire]⟩
    rw [hexpire]
    have hboth := hremoved.trans (alters_update (fun _ => p.closed) hcommand)
    simpa using hboth
  · refine Or.inr ⟨hstored, ?_⟩
    simp [expire, removeEntry_of_not_stored hp hstored]

theorem correlate_cases (h : s.Sound) (r : CommandResult) :
    (s.get? r.id = none ∧ s.correlate r = (s, none)) ∨
      ∃ (k : Nat) (p : Pending), s.get? r.id = some k ∧ s.command? k = some p ∧ p.id = r.id ∧
        p.completed = false ∧
        ((p.collecting r).IsFull ∧ s.Alters k (p.collecting r).closed True (s.correlate r).1 ∧
            (s.correlate r).2 = some k ∨
          ¬(p.collecting r).IsFull ∧ s.Alters k (p.collecting r) False (s.correlate r).1 ∧
            (s.correlate r).2 = none) := by
  cases hget : s.get? r.id with
  | none => exact Or.inl ⟨rfl, by simp [correlate, hget]⟩
  | some k =>
    obtain ⟨p, hp, hid, ho⟩ := h.entry hget
    refine Or.inr ⟨k, p, rfl, hp, hid, ho, ?_⟩
    rcases Pending.addResults_one ho r with ⟨hfull, hadd⟩ | ⟨hnot, hadd⟩
    · have haltered := alters_update (fun _ => (p.collecting r).closed) hp
      have hafter : (s.update k (fun _ => (p.collecting r).closed)).command? k =
          some (p.collecting r).closed := by
        rw [haltered.command, if_pos rfl]
      have hcorrelate : s.correlate r =
          (((s.update k (fun _ => (p.collecting r).closed)).removeEntry k).1, some k) := by
        simp [correlate, hget, addResults, hp, hadd]
      have hown : ∀ id, (s.update k (fun _ => (p.collecting r).closed)).get? id = some k →
          id = p.id := h.own hp
      have hboth := haltered.trans (removeEntry_alters hafter hown)
      refine Or.inl ⟨hfull, ?_, by rw [hcorrelate]⟩
      rw [hcorrelate]
      simpa using hboth
    · refine Or.inr ⟨hnot, ?_, by simp [correlate, hget, addResults, hp, hadd]⟩
      have hcorrelate : (s.correlate r).1 = s.update k (fun _ => p.collecting r) := by
        simp [correlate, hget, addResults, hp, hadd]
      rw [hcorrelate]
      exact alters_update (fun _ => p.collecting r) hp

/-! ### New tickets -/

/-- The store with a new command, under an id that nothing was stored under. -/
structure Adds (s : PendingStore) (c : Command) (s' : PendingStore) : Prop where
  command : ∀ l : Nat, s'.command? l =
    if l = s.commands.length then some (Pending.ofCommand c) else s.command? l
  entry : ∀ id, s'.get? id = if id = c.id then some s.commands.length else s.get? id

theorem lt_of_command? (hp : s.command? k = some p) : k < s.commands.length := by
  by_contra hle
  simp [command?, List.getElem?_eq_none (Nat.le_of_not_lt hle)] at hp

theorem length_removeEntry (s : PendingStore) (k : Nat) :
    (s.removeEntry k).1.commands.length = s.commands.length := by
  simp only [removeEntry]
  split
  · split <;> rfl
  · rfl

theorem length_onTimeout (s : PendingStore) (k : Nat) :
    (s.onTimeout k).1.commands.length = s.commands.length := by
  simp only [onTimeout]
  split
  · simp [update]
  · rfl

theorem length_expire (s : PendingStore) (k : Nat) :
    (s.expire k).1.commands.length = s.commands.length := by
  simp only [expire]
  split
  · rw [length_onTimeout, length_removeEntry]
  · rw [length_removeEntry]

theorem Adds.sound {c : Command} (h : s.Sound) (ha : s.Adds c s') : s'.Sound := by
  refine ⟨?_, ?_⟩
  · intro id k hget
    rw [ha.entry] at hget
    by_cases hid : id = c.id
    · rw [if_pos hid] at hget
      obtain rfl := Option.some.inj hget
      exact ⟨Pending.ofCommand c, by rw [ha.command, if_pos rfl], hid.symm, rfl⟩
    · rw [if_neg hid] at hget
      obtain ⟨p, hp, hpid, ho⟩ := h.entry hget
      have hne : k ≠ s.commands.length := Nat.ne_of_lt (lt_of_command? hp)
      exact ⟨p, by rw [ha.command, if_neg hne, hp], hpid, ho⟩
  · intro id k hget l q hlt hq
    rw [ha.entry] at hget
    rw [ha.command] at hq
    by_cases hid : id = c.id
    · rw [if_pos hid] at hget
      obtain rfl := Option.some.inj hget
      rw [if_neg (by omega)] at hq
      have hbound := lt_of_command? hq
      omega
    · rw [if_neg hid] at hget
      by_cases hl : l = s.commands.length
      · rw [if_pos hl] at hq
        obtain rfl := Option.some.inj hq
        exact fun heq => hid heq.symm
      · rw [if_neg hl] at hq
        exact h.latest hget hlt hq

theorem put_issue_command (s : PendingStore) (c : Command) (l : Nat) :
    ((s.issue c).1.put c.id s.commands.length).1.command? l =
      if l = s.commands.length then some (Pending.ofCommand c) else s.command? l := by
  simp only [issue, put, command?]
  by_cases hl : l = s.commands.length
  · simp [hl]
  · rw [if_neg hl]
    by_cases hlt : l < s.commands.length
    · simp [List.getElem?_append_left hlt]
    · rw [List.getElem?_eq_none (by simp; omega), List.getElem?_eq_none (by omega)]

theorem put_issue_entry (s : PendingStore) (c : Command) (id : String) :
    ((s.issue c).1.put c.id s.commands.length).1.get? id =
      if id = c.id then some s.commands.length else s.get? id := by
  simp only [issue, put, get?, Table.get?_set]

theorem put_issue_adds (s : PendingStore) (c : Command) :
    s.Adds c ((s.issue c).1.put c.id s.commands.length).1 :=
  ⟨put_issue_command s c, put_issue_entry s c⟩

/-- To displace an entry is to expire it and to store the new command then. -/
theorem put_issue_displacing {c : Command} (h : s.Sound) (hget : s.get? c.id = some k)
    (hp : s.command? k = some p) :
    (s.expire k).1.Adds c
      (((s.issue c).1.put c.id s.commands.length).1.onTimeout k).1 := by
  have hid : p.id = c.id := ((h.get?_iff hp).mp hget).1
  obtain ⟨-, ho, hexpired, -⟩ | ⟨hnot, -⟩ := expire_cases h hp
  · have hlength := length_expire s k
    have hkl : k ≠ s.commands.length := Nat.ne_of_lt (lt_of_command? hp)
    have hcommand : ((s.issue c).1.put c.id s.commands.length).1.command? k = some p := by
      rw [put_issue_command, if_neg hkl, hp]
    rw [onTimeout_of_open hcommand ho]
    refine ⟨?_, ?_⟩
    · intro l
      rw [command?_update, hcommand, hexpired.command, put_issue_command, hlength]
      by_cases hl : l = k
      · simp [hl, hkl]
      · simp [hl]
    · intro id
      rw [get?_update, put_issue_entry, hlength]
      by_cases hne : id = c.id
      · rw [if_pos hne, if_pos hne]
      · rw [if_neg hne, if_neg hne]
        ext l
        rw [hexpired.entry]
        refine ⟨fun hl => ⟨hl, ?_⟩, And.left⟩
        intro _ heq
        subst heq
        exact hne (((h.get?_iff hp).mp hl).1.symm.trans hid)
  · exact absurd (hid ▸ hget) hnot

end PendingStore

end ClusterMesh
