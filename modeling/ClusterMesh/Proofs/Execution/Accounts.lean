import ClusterMesh.Proofs.Execution.Transactions
import Mathlib.Data.List.Basic

/-!
# Accounts of ids

The account of an id is all that a store has under it: the commands in the order in which they were
registered, and which of them is stored. A transaction acts on the account of its id by what stands
there, and leaves those of other ids alone. So commands in flight do not interfere.
-/

namespace ClusterMesh

/-- The commands of an id, and the rank of the one that is stored. -/
structure Account where
  commands : List Pending
  stored : Option Nat

namespace Account

def empty : Account := ⟨[], none⟩

/-- Put a command in the place of the one of a rank, which may leave the store. -/
def settle (a : Account) (n : Nat) (p : Pending) (leaves : Bool) : Account :=
  ⟨a.commands.set n p, if leaves && a.stored == some n then none else a.stored⟩

def close (a : Account) (n : Nat) (how : Closing) : Account × Answer :=
  match a.commands[n]? with
  | some p =>
    (a.settle n (how.leaves (decide (a.stored = some n)) p) how.removes,
      how.answer (decide (a.stored = some n)) p)
  | none => (a, .closed false none)

/-- The account after the stored command, if there is one, has made place for a new one. -/
def register (a : Account) (c : Command) : Account :=
  let kept :=
    match a.stored with
    | some n => (a.close n .expire).1
    | none => a
  ⟨kept.commands ++ [Pending.ofCommand c], some a.commands.length⟩

def correlate (a : Account) (r : CommandResult) : Account × Option Nat :=
  match a.stored with
  | some n =>
    match a.commands[n]? with
    | some p =>
      let after := p.addResults [r]
      (a.settle n after.1 after.2, if after.2 then some n else none)
    | none => (a, none)
  | none => (a, none)

def perform (a : Account) : Transaction → Account × Answer
  | .register c => (a.register c, .registered a.commands.length a.stored)
  | .correlate r => ((a.correlate r).1, .correlated (a.correlate r).2)
  | .close how _ n => a.close n how

end Account

namespace PendingStore

def account (s : PendingStore) (id : String) : Account :=
  ⟨s.commands.filter (fun p => p.id == id), (s.get? id).map (s.rank id)⟩

variable {s s' : PendingStore} {k n : Nat} {p p' : Pending} {id : String}

/-! ### Commands by rank -/

theorem commands_account (hp : s.command? k = some p) :
    s.commands.filter (fun q => q.id == id) =
      (s.commands.take k).filter (fun q => q.id == id) ++
        (if p.id = id then [p] else []) ++ (s.commands.drop (k + 1)).filter (fun q => q.id == id) := by
  obtain ⟨hlt, hget⟩ := List.getElem?_eq_some_iff.mp hp
  have hsplit : s.commands = s.commands.take k ++ p :: s.commands.drop (k + 1) := by
    rw [← hget, List.getElem_cons_drop, List.take_append_drop]
  have hfilter := congrArg (List.filter (fun q => q.id == id)) hsplit
  by_cases hid : p.id = id
  · simpa [List.filter_cons, hid] using hfilter
  · simpa [List.filter_cons, hid] using hfilter

/-- The command of a ticket has the rank of the ticket in its account. -/
theorem getElem?_account (hp : s.command? k = some p) :
    (s.account p.id).commands[s.rank p.id k]? = some p := by
  have hlength : ((s.commands.take k).filter (fun q => q.id == p.id)).length = s.rank p.id k := rfl
  simp only [account, commands_account hp, if_pos]
  rw [List.append_assoc, List.getElem?_append_right (Nat.le_of_eq hlength), hlength, Nat.sub_self]
  rfl

theorem ticket_of_account {s : PendingStore} (h : (s.account id).commands[n]? = some p) :
    ∃ k, s.command? k = some p ∧ p.id = id ∧ s.rank id k = n := by
  have hrank : ∀ (l : List Pending) (n : Nat), (l.filter (fun q => q.id == id))[n]? = some p →
      ∃ k : Nat, l[k]? = some p ∧ p.id = id ∧
        ((l.take k).filter (fun q => q.id == id)).length = n := by
    intro l
    induction l with
    | nil =>
      intro n h
      cases h
    | cons q l ih =>
      intro n h
      by_cases hq : q.id = id
      · rw [List.filter_cons_of_pos (by simpa using hq)] at h
        cases n with
        | zero => exact ⟨0, h, by rwa [← Option.some.inj h], rfl⟩
        | succ n =>
          obtain ⟨k, hk, hid, hlength⟩ := ih n h
          exact ⟨k + 1, hk, hid, by simp [hq, hlength]⟩
      · rw [List.filter_cons_of_neg (by simpa using hq)] at h
        obtain ⟨k, hk, hid, hlength⟩ := ih n h
        exact ⟨k + 1, hk, hid, by simp [hq, hlength]⟩
  exact hrank s.commands n h

theorem length_account (s : PendingStore) (id : String) :
    (s.account id).commands.length = s.rank id s.commands.length := by
  simp [account, rank]

/-! ### Changes -/

section

variable {gone : Prop}

theorem Alters.commands (ha : s.Alters k p' gone s') (hp : s.command? k = some p) :
    s'.commands = s.commands.set k p' := by
  apply List.ext_getElem?
  intro l
  have hlt := lt_of_command? hp
  have hl := ha.command l
  simp only [command?] at hl
  rw [hl, List.getElem?_set]
  by_cases hkl : k = l
  · subst hkl
    simp [hlt]
  · have hlk : ¬l = k := fun h => hkl h.symm
    simp [hkl, hlk]

theorem Alters.rank (ha : s.Alters k p' gone s') (hp : s.command? k = some p)
    (hid : p'.id = p.id) (id : String) (l : Nat) : s'.rank id l = s.rank id l := by
  induction l with
  | zero => rfl
  | succ l ih =>
    have hl := ha.command l
    cases hq : s.command? l with
    | some q =>
      rw [hq] at hl
      rw [rank_succ hq, ← ih]
      by_cases hlk : l = k
      · subst hlk
        obtain rfl := Option.some.inj (hp.symm.trans hq)
        rw [if_pos rfl] at hl
        rw [rank_succ hl, hid]
      · rw [if_neg hlk] at hl
        exact rank_succ hl
    | none =>
      have hlength : s'.commands.length = s.commands.length := by
        rw [ha.commands hp, List.length_set]
      have hle : s.commands.length ≤ l := List.getElem?_eq_none_iff.mp hq
      have htake : ∀ {t : PendingStore}, t.commands.length ≤ l → t.rank id (l + 1) = t.rank id l := by
        intro t ht
        simp only [PendingStore.rank, List.take_of_length_le ht,
          List.take_of_length_le (Nat.le_succ_of_le ht)]
      rw [htake hle, htake (hlength ▸ hle), ih]

theorem Alters.account [Decidable gone] (ha : s.Alters k p' gone s') (h : s.Sound)
    (hp : s.command? k = some p) (hid : p'.id = p.id) :
    s'.account p.id = (s.account p.id).settle (s.rank p.id k) p' (decide gone) := by
  have hp' : s'.command? k = some p' := by rw [ha.command, if_pos rfl]
  have hcommands : s'.commands.filter (fun q => q.id == p.id) =
      (s.commands.filter (fun q => q.id == p.id)).set (s.rank p.id k) p' := by
    have hlength : ((s.commands.take k).filter (fun q => q.id == p.id)).length = s.rank p.id k := rfl
    rw [commands_account hp', commands_account hp, ha.commands hp, List.take_set_of_le (Nat.le_refl k),
      List.drop_set_of_lt (Nat.lt_succ_self k), if_pos hid, if_pos rfl, List.append_assoc,
      List.append_assoc, List.set_append_right _ _ (Nat.le_of_eq hlength), hlength, Nat.sub_self]
    rfl
  have hstored : (s'.get? p.id).map (s'.rank p.id) =
      if decide gone && (s.account p.id).stored == some (s.rank p.id k) then none
      else (s.account p.id).stored := by
    have hranks : s'.rank p.id = s.rank p.id := funext fun l => ha.rank hp hid p.id l
    rw [hranks]
    cases hget : s.get? p.id with
    | none =>
      have hnone : s'.get? p.id = none := by
        rw [Option.eq_none_iff_forall_ne_some]
        intro l hl
        rw [((ha.entry p.id l).mp hl).1] at hget
        cases hget
      simp [hnone, PendingStore.account, hget]
    | some l =>
      obtain ⟨q, hq, hqid, -⟩ := h.entry hget
      have hsame := rank_inj hq hqid hp rfl
      by_cases hgone : gone ∧ l = k
      · have hnone : s'.get? p.id = none := by
          rw [Option.eq_none_iff_forall_ne_some]
          intro j hj
          obtain ⟨hold, hne⟩ := (ha.entry p.id j).mp hj
          rw [hget] at hold
          obtain rfl := Option.some.inj hold
          exact hne hgone.1 hgone.2
        simp [hnone, PendingStore.account, hget, hgone.1, hgone.2]
      · have hsome : s'.get? p.id = some l :=
          (ha.entry p.id l).mpr ⟨hget, fun hg hl => hgone ⟨hg, hl⟩⟩
        have hcond : ¬(gone ∧ s.rank p.id l = s.rank p.id k) := fun hboth =>
          hgone ⟨hboth.1, hsame.mp hboth.2⟩
        simp [hsome, PendingStore.account, hget, hcond]
  exact congrArg₂ Account.mk hcommands hstored

theorem Alters.account_of_ne (ha : s.Alters k p' gone s') (h : s.Sound)
    (hp : s.command? k = some p) (hid : p'.id = p.id) (hne : id ≠ p.id) :
    s'.account id = s.account id := by
  have hp' : s'.command? k = some p' := by rw [ha.command, if_pos rfl]
  have hcommands : s'.commands.filter (fun q => q.id == id) =
      s.commands.filter (fun q => q.id == id) := by
    rw [commands_account hp', commands_account hp, ha.commands hp, List.take_set_of_le (Nat.le_refl k),
      List.drop_set_of_lt (Nat.lt_succ_self k), if_neg (hid ▸ hne.symm), if_neg hne.symm]
  have hstored : s'.get? id = s.get? id := by
    ext l
    rw [ha.entry]
    refine ⟨And.left, fun hl => ⟨hl, fun _ hlk => ?_⟩⟩
    subst hlk
    exact hne (h.own hp id hl)
  have hranks : s'.rank id = s.rank id := funext fun l => ha.rank hp hid id l
  exact congrArg₂ Account.mk hcommands (by rw [hstored, hranks])

end

theorem Adds.commands {c : Command} (ha : s.Adds c s') :
    s'.commands = s.commands ++ [Pending.ofCommand c] := by
  apply List.ext_getElem?
  intro l
  have hl := ha.command l
  simp only [command?] at hl
  rw [hl, List.getElem?_append]
  rcases Nat.lt_trichotomy l s.commands.length with hlt | heq | hgt
  · rw [if_neg (Nat.ne_of_lt hlt), if_pos hlt]
  · simp [heq]
  · rw [if_neg (Nat.ne_of_gt hgt), if_neg (Nat.lt_asymm hgt),
      List.getElem?_eq_none (Nat.le_of_lt hgt), List.getElem?_eq_none (by simp; omega)]

theorem Adds.account {c : Command} (ha : s.Adds c s') (h : s.Sound) (id : String) :
    s'.account id =
      if id = c.id then
        ⟨(s.account id).commands ++ [Pending.ofCommand c], some (s.account id).commands.length⟩
      else s.account id := by
  have hranks : ∀ {l}, l ≤ s.commands.length → s'.rank id l = s.rank id l := by
    intro l hl
    simp only [PendingStore.rank, ha.commands, List.take_append_of_le_length hl]
  by_cases hid : id = c.id
  · subst hid
    have hself : (Pending.ofCommand c).id = c.id := rfl
    rw [if_pos rfl, length_account, ← hranks (Nat.le_refl _)]
    simp [PendingStore.account, ha.commands, ha.entry, hself]
  · have hother : ¬(Pending.ofCommand c).id = id := fun heq => hid heq.symm
    have hstored : (s.get? id).map (s'.rank id) = (s.get? id).map (s.rank id) := by
      cases hget : s.get? id with
      | none => rfl
      | some k =>
        obtain ⟨p, hp, -, -⟩ := h.entry hget
        exact congrArg some (hranks (Nat.le_of_lt (lt_of_command? hp)))
    rw [if_neg hid]
    simp [PendingStore.account, ha.commands, ha.entry, hid, hother, hstored]

/-! ### Transactions -/

theorem stored_account (h : s.Sound) (hp : s.command? k = some p) :
    (s.account p.id).stored = some (s.rank p.id k) ↔ s.get? p.id = some k := by
  constructor
  · intro hstored
    obtain ⟨l, hget, hrank⟩ := Option.map_eq_some_iff.mp hstored
    obtain ⟨q, hq, hqid, -⟩ := h.entry hget
    rw [← (rank_inj hq hqid hp rfl).mp hrank, hget]
  · intro hget
    simp only [account, hget, Option.map_some]

theorem account_close (h : s.Sound) (hp : s.command? k = some p) (how : Closing) :
    ((s.close k how).1.account p.id,
        Answer.closed (s.close k how).2.1 (s.close k how).2.2) =
      (s.account p.id).close (s.rank p.id k) how := by
  have hstored : decide ((s.account p.id).stored = some (s.rank p.id k)) =
      decide (s.get? p.id = some k) := decide_eq_decide.mpr (stored_account h hp)
  simp only [Account.close, getElem?_account hp, hstored]
  rw [(alters_close h hp how).account h hp (Closing.leaves_id ..), close_snd h hp, Bool.decide_eq_true]

theorem account_close_of_ne (h : s.Sound) (hp : s.command? k = some p) (how : Closing)
    (hne : id ≠ p.id) : (s.close k how).1.account id = s.account id :=
  (alters_close h hp how).account_of_ne h hp (Closing.leaves_id ..) hne

theorem account_register (h : s.Sound) (c : Command) :
    (s.register c).1.account c.id = (s.account c.id).register c ∧
      (s.register c).2.map (s.rank c.id) = (s.account c.id).stored := by
  obtain ⟨hget, hadds, hnone⟩ | ⟨k, p, hget, hp, hid, hadds, hsome⟩ := register_adds h c
  · have hstored : (s.account c.id).stored = none := by simp [account, hget]
    rw [hadds.account h, if_pos rfl, hnone, hstored]
    simp [Account.register, hstored]
  · have hstored : (s.account c.id).stored = some (s.rank c.id k) := by simp [account, hget]
    have hexpired := congrArg Prod.fst (account_close h hp .expire)
    rw [hid] at hexpired
    have hlength : ((s.close k .expire).1.account c.id).commands.length =
        (s.account c.id).commands.length := by
      rw [show (s.close k .expire).1.account c.id =
        ((s.account c.id).close (s.rank c.id k) .expire).1 from hexpired]
      have hat := getElem?_account hp
      rw [hid] at hat
      simp [Account.close, hat, Account.settle]
    rw [hadds.account (h.close hp .expire), if_pos rfl, hlength, hsome, hstored]
    refine ⟨?_, rfl⟩
    simp only [Account.register, hstored]
    rw [show (s.close k .expire).1.account c.id =
      ((s.account c.id).close (s.rank c.id k) .expire).1 from hexpired]

theorem account_register_of_ne (h : s.Sound) {c : Command} (hne : id ≠ c.id) :
    (s.register c).1.account id = s.account id := by
  obtain ⟨-, hadds, -⟩ | ⟨k, p, -, hp, hid, hadds, -⟩ := register_adds h c
  · rw [hadds.account h, if_neg hne]
  · rw [hadds.account (h.close hp .expire), if_neg hne,
      account_close_of_ne h hp .expire (hid ▸ hne)]

theorem account_correlate (h : s.Sound) (r : CommandResult) :
    (s.correlate r).1.account r.id = ((s.account r.id).correlate r).1 ∧
      (s.correlate r).2.map (s.rank r.id) = ((s.account r.id).correlate r).2 := by
  obtain ⟨hget, heq⟩ | ⟨k, p, hget, hp, hid, ho, hcase⟩ := correlate_cases h r
  · have hstored : (s.account r.id).stored = none := by simp [account, hget]
    rw [heq]
    simp [Account.correlate, hstored]
  · have hstored : (s.account r.id).stored = some (s.rank r.id k) := by simp [account, hget]
    have hat := getElem?_account hp
    rw [hid] at hat
    rcases Pending.addResults_one ho r with ⟨hfull, hadd⟩ | ⟨hnot, hadd⟩
    · obtain ⟨-, ha, hsome⟩ | ⟨hnot, -, -⟩ := hcase
      · have hafter := ha.account h hp rfl
        rw [hid] at hafter
        simp [Account.correlate, hstored, hat, hadd, hafter, hsome]
      · exact absurd hfull hnot
    · obtain ⟨hfull, -, -⟩ | ⟨-, ha, hnone⟩ := hcase
      · exact absurd hfull hnot
      · have hafter := ha.account h hp rfl
        rw [hid] at hafter
        simp [Account.correlate, hstored, hat, hadd, hafter, hnone]

theorem account_correlate_of_ne (h : s.Sound) {r : CommandResult} (hne : id ≠ r.id) :
    (s.correlate r).1.account id = s.account id := by
  obtain ⟨-, heq⟩ | ⟨k, p, -, hp, hid, -, ⟨-, ha, -⟩ | ⟨-, ha, -⟩⟩ := correlate_cases h r
  · rw [heq]
  · exact ha.account_of_ne h hp rfl (hid ▸ hne)
  · exact ha.account_of_ne h hp rfl (hid ▸ hne)

/-- A transaction acts on the account of its id by what stands there. -/
theorem account_perform (h : s.Sound) (e : Transaction) :
    ((s.perform e).1.account e.id, (s.perform e).2) = (s.account e.id).perform e := by
  cases e with
  | register c =>
    obtain ⟨haccount, hdisplaced⟩ := account_register h c
    simp only [perform, Account.perform, Transaction.id, haccount, hdisplaced, length_account]
  | correlate r =>
    obtain ⟨haccount, hcompleted⟩ := account_correlate h r
    simp only [perform, Account.perform, Transaction.id, haccount, hcompleted]
  | close how id n =>
    simp only [perform, Account.perform, Transaction.id]
    cases hticket : s.ticket? id n with
    | some k =>
      obtain ⟨p, hp, rfl, rfl⟩ := (ticket?_eq_some s id n k).mp hticket
      exact account_close h hp how
    | none =>
      have hnone : (s.account id).commands[n]? = none := by
        rw [Option.eq_none_iff_forall_ne_some]
        intro p hp
        obtain ⟨k, hk, hid, hrank⟩ := ticket_of_account hp
        rw [(ticket?_eq_some s id n k).mpr ⟨p, hk, hid, hrank⟩] at hticket
        cases hticket
      simp [Account.close, hnone]

theorem account_perform_of_ne (h : s.Sound) {e : Transaction} (hne : id ≠ e.id) :
    (s.perform e).1.account id = s.account id := by
  cases e with
  | register c => exact account_register_of_ne h hne
  | correlate r => exact account_correlate_of_ne h hne
  | close how i n =>
    simp only [perform]
    split
    · next k hk =>
      obtain ⟨p, hp, hid, -⟩ := (ticket?_eq_some s i n k).mp hk
      exact account_close_of_ne h hp how (hid ▸ hne)
    · rfl

end PendingStore

end ClusterMesh
