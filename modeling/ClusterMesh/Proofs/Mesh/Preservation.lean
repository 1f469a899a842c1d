import ClusterMesh.Proofs.Mesh.Enrolment
import ClusterMesh.Proofs.Mesh.Moves

/-!
# Every step keeps the ledger

A call that enters is enrolled, a step that acts on one registration leaves the others, and the
clock goes on only while every registered call waits for an instant to come.
-/

namespace ClusterMesh.Mesh

variable {m m' : Mesh} {r : Registration} {p : Pending} {L : List Registration}
variable {e : Happening} {t i : Nat}

/-! ### The clock -/

theorem IsDue.pass {due instant u : Nat} (h : m.IsDue due u) (hidle : ∀ t, ¬m.IsReady t)
    (hlater : m.now ≤ instant) (hfirst : ∀ due t, m.HasAlarm due t → instant ≤ max m.now due) :
    (machine.ring m instant).IsDue due u := by
  rcases h with ⟨halarm, hlt⟩ | ⟨hready, -⟩
  · have hle := hfirst due u halarm
    have hnow : (machine.ring m instant).now = instant := (now_ring m instant).trans (by omega)
    by_cases hpast : instant < due
    · exact Or.inl ⟨(hasAlarm_ring m u instant due).mpr ⟨halarm, hpast⟩, by omega⟩
    · refine Or.inr ⟨(isReady_ring m u instant).mpr (Or.inr ⟨due, halarm, by omega⟩), by omega⟩
  · exact absurd hready (hidle u)

theorem Tracks.pass {caller reaper : Task} {instant : Nat} (h : Tracks m r p caller reaper)
    (hidle : ∀ t, ¬m.IsReady t) (hlater : m.now ≤ instant)
    (hfirst : ∀ due t, m.HasAlarm due t → instant ≤ max m.now due) :
    Tracks (machine.ring m instant) r p caller reaper where
  pending := h.pending
  command := h.command
  caller_at := h.caller_at
  reaper_at := h.reaper_at
  caller_stands := by
    cases h.caller_stands with
    | sending way => exact .sending way
    | waiting way woken timed =>
      exact .waiting way (fun hc => absurd (woken hc) (hidle _)) (timed.pass hidle hlater hfirst)
    | returned completed => exact .returned completed
    | failed gone => exact .failed gone
    | cancelled => exact .cancelled
  reaper_stands := by
    cases h.reaper_stands with
    | starting ready now => exact absurd ready (hidle _)
    | armed timed => exact .armed (timed.pass hidle hlater hfirst)
    | ended => exact .ended
  guarded := h.guarded

theorem Ledger.pass {instant : Nat} (h : Ledger m L) (hidle : ∀ t, ¬m.IsReady t)
    (hlater : m.now ≤ instant) (hfirst : ∀ due t, m.HasAlarm due t → instant ≤ max m.now due) :
    Ledger (machine.ring m instant) L where
  sound := h.sound
  tracked := by
    intro r hr
    obtain ⟨p, caller, reaper, ht⟩ := h.tracked hr
    exact ⟨p, caller, reaper, ht.pass hidle hlater hfirst⟩
  ticketed := h.ticketed
  engaged := h.engaged
  distinct := h.distinct

/-! ### Steps -/

/-- What a step does to the ledger. -/
structure Upkeep (m : Mesh) (e : Happening) (m' : Mesh) (L : List Registration) : Prop where
  ledger : Ledger m' (L ++ e.registrations)
  proceeds : ∀ {r}, r ∈ L → Proceeds m e r m'
  enrolled : ∀ {r}, e = .registers r → (∃ t i c, r = m.registration t i c) ∧
    Tracks m' r (.ofCommand r.command)
      ⟨r.station, .executing r.command (.sending r.ticket r.timeout r.reaper), false⟩
      ⟨r.station, .reaping r.ticket r.timeout none, false⟩
  others : ∀ {r}, r ∈ L → m'.tasks[r.caller]? ≠ m.tasks[r.caller]? → ∀ {i id} {k : Nat},
    (i = r.station → k ≠ r.ticket) →
      ((m'.store i).get? id = some k ↔ (m.store i).get? id = some k)
  clock : m'.now = m.now ∨ (∀ t, ¬m.IsReady t) ∧ m.now ≤ m'.now ∧ m'.tasks = m.tasks ∧
    ∀ i, m'.store i = m.store i

theorem Ledger.upkeep_acts (h : Ledger m L) (ha : ∃ r ∈ L, Acts m e r m')
    (he : e.registrations = []) : Upkeep m e m' L := by
  obtain ⟨r, hr, hacts⟩ := ha
  refine ⟨?_, fun hr' => h.proceeds hr hacts hr', ?_, ?_, Or.inl hacts.touches.now⟩
  · rw [he, List.append_nil]
    exact h.acts hr hacts
  · intro r' heq
    subst heq
    cases he
  · intro r' hr' hchanged i id k hk
    have htouches := hacts.touches
    obtain rfl : r' = r := by
      by_contra hne
      refine hchanged (htouches.task ?_ (h.distinct.apart hr' hr))
      exact fun heq => hne (h.distinct.caller hr' hr heq)
    by_cases hi : i = r'.station
    · subst hi
      exact htouches.entry (hk rfl)
    · rw [htouches.elsewhere hi]

theorem Ledger.upkeep_aside (h : Ledger m L) (ha : m.Aside m') (he : e.registrations = []) :
    Upkeep m e m' L := by
  refine ⟨?_, fun hr => h.proceeds_aside ha hr, ?_, ?_, Or.inl ha.now⟩
  · rw [he, List.append_nil]
    exact h.aside ha
  · intro r heq
    subst heq
    cases he
  · intro r hr _ i id k _
    rw [ha.store]

theorem Ledger.upkeep_enter (h : Ledger m L) {c₀ : Command}
    (htask : m.tasks[t]? = some ⟨i, .executing c₀ .submitted, false⟩)
    (hi : i < m.stations.length) (c : Command) :
    Upkeep m (.registers (m.registration t i c)) ((m.taken t).enter t i c).1 L := by
  -- the task of a call that is only submitted is nobody's call and nobody's reaper
  have hfree : ∀ r' ∈ L, r'.caller ≠ t ∧ r'.reaper ≠ t := by
    intro r' hr'
    obtain ⟨p, caller, reaper, ht⟩ := h.tracked hr'
    refine ⟨?_, ?_⟩
    · intro heq
      subst heq
      have hstands := ht.caller_stands.engaged_or_ended
      rw [Option.some.inj (ht.caller_at.symm.trans htask)] at hstands
      exact hstands.elim id id
    · intro heq
      subst heq
      have hstands := ht.reaper_stands
      rw [Option.some.inj (ht.reaper_at.symm.trans htask)] at hstands
      exact hstands.not_executing
  have hr : m.registration t i c = m.registration t i c := rfl
  obtain ⟨m₀, hledger, htasks, henrols, hproceeds⟩ := h.enters htask hi hr
  refine ⟨hledger.enrols henrols hfree, ?_, ?_, ?_, Or.inl henrols.now⟩
  · intro r' hr'
    obtain ⟨p, p', caller, caller', reaper, reaper', hbefore, hafter, hevolves, hgoes⟩ :=
      hproceeds r' hr'
    exact ⟨p, p', caller, caller', reaper, reaper', hbefore,
      hafter.leaves (henrols.leaves hafter (hfree r' hr').1 (hfree r' hr').2), hevolves, hgoes⟩
  · intro r' heq
    cases heq
    exact ⟨⟨t, i, c, rfl⟩, henrols.tracks⟩
  · intro r' hr' hchanged
    obtain ⟨p, caller, reaper, ht⟩ := hledger.tracked hr'
    have hleaves := henrols.leaves ht (hfree r' hr').1 (hfree r' hr').2
    exfalso
    refine hchanged ?_
    rw [hleaves.caller ht.caller_at ht.caller_stands.engaged_or_ended, ← htasks, ht.caller_at]

/-- Every step keeps the ledger, and what it does to a registration is one of a few things. -/
theorem Step.upkeep (hs : m.Step e m') (h : Ledger m L) : Upkeep m e m' L := by
  cases hs with
  | enter ready task placed accepted => exact h.upkeep_enter task placed _
  | depart sent task => exact h.upkeep_acts (h.acts_depart task sent) rfl
  | wait ready task => exact h.upkeep_acts (h.acts_wait task) rfl
  | reap ready task => exact h.upkeep_acts (h.acts_reap task) rfl
  | @drop t i a ready task engaged =>
    refine h.upkeep_acts ?_ rfl
    cases a with
    | reaping k delay due => exact h.acts_dropReaper task
    | executing c stage =>
      obtain ⟨r, hr, p, reaper, rfl, ht⟩ := h.caller_of task engaged
      cases stage with
      | submitted => exact engaged.elim
      | sending k timeout guard =>
        obtain ⟨rfl, rfl, rfl, -⟩ := ht.caller_stands.of_sending
        exact ⟨r, hr, h.acts_giveUp ht hr trivial rfl rfl⟩
      | waiting k due guard =>
        obtain ⟨rfl, rfl, rfl, -⟩ := ht.caller_stands.of_waiting
        exact ⟨r, hr, h.acts_giveUp ht hr trivial rfl rfl⟩
    | _ => exact engaged.elim
  | correlate result placed =>
    rcases h.acts_correlate placed result with ⟨-, haside⟩ | hacts
    · exact h.upkeep_aside haside rfl
    · exact h.upkeep_acts hacts rfl
  | cancel task engaged => exact h.upkeep_acts (h.acts_cancel task engaged) rfl
  | pass instant idle later first =>
    refine ⟨?_, ?_, ?_, ?_, Or.inr ⟨idle, Nat.le_max_left _ _, rfl, fun _ => rfl⟩⟩
    · exact (List.append_nil L).symm ▸ h.pass idle later first
    rotate_left
    · intro r he
      cases he
    · exact fun _ hchanged => absurd rfl hchanged
    · intro r hr
      obtain ⟨p, caller, reaper, ht⟩ := h.tracked hr
      exact ⟨p, p, caller, caller, reaper, reaper, ht, ht.pass idle later first, .kept rfl rfl,
        .stays rfl (Or.inl rfl)⟩
  | aside ha => exact h.upkeep_aside ha rfl

theorem ledger_ofCapacity (capacity : Nat) : Ledger (ofCapacity capacity) [] := by
  have hnone : ∀ {r : Registration}, r ∈ [] → False := List.not_mem_nil
  refine ⟨?_, fun hr => (hnone hr).elim, ?_, ?_, ⟨?_, ?_, ?_, ?_⟩⟩
  · intro i
    have hget : ∀ id, ((ofCapacity capacity).store i).get? id = none := fun _ => rfl
    refine ⟨?_, ?_⟩
    · intro id k hsome
      rw [hget] at hsome
      cases hsome
    · intro id k hsome
      rw [hget] at hsome
      cases hsome
  · intro i k p hp
    have hcommand : ((ofCapacity capacity).store i).command? k = none := rfl
    rw [hcommand] at hp
    cases hp
  · intro t task htask
    cases htask
  all_goals exact fun hr => (hnone hr).elim

end ClusterMesh.Mesh

namespace ClusterMesh.History

open Mesh

theorem ledger (h : History) (n : Nat) : Ledger (h.state n) (h.registered n) := by
  induction n with
  | zero =>
    obtain ⟨capacity, hstart⟩ := h.start
    rw [hstart]
    exact ledger_ofCapacity capacity
  | succ n ih => exact ((h.step n).upkeep ih).ledger

theorem upkeep (h : History) (n : Nat) :
    Upkeep (h.state n) (h.event n) (h.state (n + 1)) (h.registered n) :=
  (h.step n).upkeep (h.ledger n)

end ClusterMesh.History
