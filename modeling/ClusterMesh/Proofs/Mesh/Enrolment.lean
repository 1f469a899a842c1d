import ClusterMesh.Proofs.Mesh.Completing

/-!
# Calls that enter

A call that enters displaces the stored command of its id, which is to expire it, and is enrolled
then with a ticket, a call and a reaper that no other registration has.
-/

namespace ClusterMesh.Mesh

variable {m m' m₀ m₂ : Mesh} {r r' : Registration} {p : Pending} {L : List Registration}
variable {e : Happening} {t i : Nat} {c : Command}

/-! ### Calls that enter -/

/-- A registration that is added to what was registered before. -/
structure Enrols (m m' : Mesh) (r : Registration) : Prop where
  elsewhere : ∀ {i}, i ≠ r.station → m'.store i = m.store i
  adds : (m.store r.station).Adds r.command (m'.store r.station)
  fresh : (m.store r.station).get? r.command.id = none
  ticket : r.ticket = (m.store r.station).commands.length
  task : ∀ {t : Nat}, t ≠ r.caller → t ≠ r.reaper → m'.tasks[t]? = m.tasks[t]?
  caller : m'.tasks[r.caller]? =
    some ⟨r.station, .executing r.command (.sending r.ticket r.timeout r.reaper), false⟩
  reaper : m'.tasks[r.reaper]? = some ⟨r.station, .reaping r.ticket r.timeout none, false⟩
  unused : m.tasks[r.reaper]? = none
  ready : m'.IsReady r.reaper
  now : m'.now = r.instant
  keeps : ∀ {t}, t ≠ r.caller → Keeps m m' t

theorem Enrols.tracks (h : Enrols m m' r) : Tracks m' r (.ofCommand r.command)
    ⟨r.station, .executing r.command (.sending r.ticket r.timeout r.reaper), false⟩
    ⟨r.station, .reaping r.ticket r.timeout none, false⟩ where
  pending := by rw [pending, h.adds.command, if_pos h.ticket]
  command := rfl
  caller_at := h.caller
  reaper_at := h.reaper
  caller_stands := .sending rfl
  reaper_stands := .starting h.ready h.now
  guarded := by
    intro _ _
    refine ⟨?_, none, rfl⟩
    rw [Stores, h.adds.entry, if_pos rfl, h.ticket]

theorem Enrols.leaves (h : Enrols m m' r) {caller reaper : Task}
    (ht : Tracks m r' p caller reaper) (hcaller : r'.caller ≠ r.caller)
    (hreaper : r'.reaper ≠ r.caller) : Leaves m m' r' := by
  have hfree : ∀ {u : Nat} {task : Task}, m.tasks[u]? = some task → u ≠ r.reaper := by
    intro u task hu heq
    subst heq
    rw [h.unused] at hu
    cases hu
  have hcaller' := hfree ht.caller_at
  have hreaper' := hfree ht.reaper_at
  refine ⟨?_, ?_, ?_, ?_, ?_⟩
  · by_cases hi : r'.station = r.station
    · have hlt := PendingStore.lt_of_command? ht.pending
      rw [hi] at hlt
      simp only [pending, hi]
      rw [h.adds.command, if_neg (Nat.ne_of_lt hlt)]
    · simp only [pending, h.elsewhere hi]
  · by_cases hi : r'.station = r.station
    · have hlt := PendingStore.lt_of_command? ht.pending
      rw [hi] at hlt
      simp only [Stores, hi]
      rw [h.adds.entry]
      by_cases hid : r'.command.id = r.command.id
      · rw [if_pos hid, hid, h.fresh]
        refine iff_of_false ?_ ?_
        · intro hsome
          exact absurd (Option.some.inj hsome) (Nat.ne_of_gt hlt)
        · intro hnone
          cases hnone
      · rw [if_neg hid]
    · simp only [Stores, h.elsewhere hi]
  · intro task htask _
    rw [h.task hcaller hcaller', htask]
  · intro task htask _
    rw [h.task hreaper hreaper', htask]
  · intro u task hcase _ _
    rcases hcase with rfl | rfl
    · exact h.keeps hcaller
    · exact h.keeps hreaper

theorem Distinct.concat (h : Distinct L) (hself : r.caller ≠ r.reaper)
    (hfree : ∀ r' ∈ L, r'.caller ≠ r.caller ∧ r'.reaper ≠ r.caller)
    (hused : ∀ r' ∈ L, r'.caller ≠ r.reaper ∧ r'.reaper ≠ r.reaper ∧
      (r'.station = r.station → r'.ticket ≠ r.ticket)) : Distinct (L ++ [r]) := by
  have hmem : ∀ {r'}, r' ∈ L ++ [r] → r' ∈ L ∨ r' = r := by
    intro r' hr'
    simpa using hr'
  refine ⟨?_, ?_, ?_, ?_⟩
  · intro r₁ r₂ h₁ h₂ hstation hticket
    rcases hmem h₁ with hold₁ | rfl <;> rcases hmem h₂ with hold₂ | rfl
    · exact h.ticket hold₁ hold₂ hstation hticket
    · exact absurd hticket ((hused _ hold₁).2.2 hstation)
    · exact absurd hticket.symm ((hused _ hold₂).2.2 hstation.symm)
    · rfl
  · intro r₁ r₂ h₁ h₂ hcaller
    rcases hmem h₁ with hold₁ | rfl <;> rcases hmem h₂ with hold₂ | rfl
    · exact h.caller hold₁ hold₂ hcaller
    · exact absurd hcaller (hfree _ hold₁).1
    · exact absurd hcaller.symm (hfree _ hold₂).1
    · rfl
  · intro r₁ r₂ h₁ h₂ hreaper
    rcases hmem h₁ with hold₁ | rfl <;> rcases hmem h₂ with hold₂ | rfl
    · exact h.reaper hold₁ hold₂ hreaper
    · exact absurd hreaper (hused _ hold₁).2.1
    · exact absurd hreaper.symm (hused _ hold₂).2.1
    · rfl
  · intro r₁ r₂ h₁ h₂
    rcases hmem h₁ with hold₁ | rfl <;> rcases hmem h₂ with hold₂ | rfl
    · exact h.apart hold₁ hold₂
    · exact (hused _ hold₁).1
    · exact (hfree _ hold₂).2.symm
    · exact hself

theorem Enrols.distinct (he : Enrols m m' r) (h : Ledger m L)
    (hfree : ∀ r' ∈ L, r'.caller ≠ r.caller ∧ r'.reaper ≠ r.caller) : Distinct (L ++ [r]) := by
  have hself : r.caller ≠ r.reaper := by
    intro heq
    have htask := he.caller
    rw [heq, he.reaper] at htask
    cases htask
  refine h.distinct.concat hself hfree ?_
  intro r' hr'
  obtain ⟨p, caller, reaper, ht⟩ := h.tracked hr'
  have hunused := he.unused
  refine ⟨?_, ?_, ?_⟩
  · intro heq
    rw [← heq, ht.caller_at] at hunused
    cases hunused
  · intro heq
    rw [← heq, ht.reaper_at] at hunused
    cases hunused
  · intro hi heq
    have hlt := PendingStore.lt_of_command? ht.pending
    rw [hi, heq, he.ticket] at hlt
    exact Nat.lt_irrefl _ hlt

theorem Ledger.enrols (h : Ledger m L) (he : Enrols m m' r)
    (hfree : ∀ r' ∈ L, r'.caller ≠ r.caller ∧ r'.reaper ≠ r.caller) :
    Ledger m' (L ++ [r]) := by
  have hmem : ∀ {r'}, r' ∈ L ++ [r] ↔ r' ∈ L ∨ r' = r := by simp
  refine ⟨?_, ?_, ?_, ?_, he.distinct h hfree⟩
  · intro i
    by_cases hi : i = r.station
    · rw [hi]
      exact he.adds.sound (h.sound _)
    · rw [he.elsewhere hi]
      exact h.sound i
  · intro r' hr'
    rcases hmem.mp hr' with hold | rfl
    · obtain ⟨p, caller, reaper, ht⟩ := h.tracked hold
      exact ⟨p, caller, reaper, ht.leaves (he.leaves ht (hfree r' hold).1 (hfree r' hold).2)⟩
    · exact ⟨_, _, _, he.tracks⟩
  · intro i k p hp
    by_cases hi : i = r.station
    · subst hi
      rw [he.adds.command] at hp
      by_cases hk : k = (m.store r.station).commands.length
      · exact ⟨r, hmem.mpr (Or.inr rfl), rfl, he.ticket.trans hk.symm⟩
      · rw [if_neg hk] at hp
        obtain ⟨r', hr', hstation, hticket⟩ := h.ticketed hp
        exact ⟨r', hmem.mpr (Or.inl hr'), hstation, hticket⟩
    · rw [he.elsewhere hi] at hp
      obtain ⟨r', hr', hstation, hticket⟩ := h.ticketed hp
      exact ⟨r', hmem.mpr (Or.inl hr'), hstation, hticket⟩
  · intro u task htask hengaged
    by_cases hcaller : u = r.caller
    · exact ⟨r, hmem.mpr (Or.inr rfl), Or.inl hcaller.symm⟩
    · by_cases hreaper : u = r.reaper
      · exact ⟨r, hmem.mpr (Or.inr rfl), Or.inr hreaper.symm⟩
      · rw [he.task hcaller hreaper] at htask
        obtain ⟨r', hr', hwho⟩ := h.engaged htask hengaged
        exact ⟨r', hmem.mpr (Or.inl hr'), hwho⟩

theorem enrols_of_adds {a : Activity}
    (hstore : ∀ {j}, j ≠ r.station → m₂.store j = m₀.store j)
    (hadds : (m₀.store r.station).Adds r.command (m₂.store r.station))
    (hfresh : (m₀.store r.station).get? r.command.id = none)
    (hticket : r.ticket = (m₀.store r.station).commands.length)
    (hreaper : r.reaper = m₀.tasks.length) (htasks : m₂.tasks = m₀.tasks)
    (htask : m₀.tasks[r.caller]? = some ⟨r.station, a, false⟩)
    (hkeeps : ∀ {u}, u ≠ r.caller → Keeps m₀ m₂ u) (hnow : m₂.now = r.instant) :
    Enrols m₀ ((m₂.spawn r.station (.reaping r.ticket r.timeout none)).1.setActivity r.caller
      (.executing r.command (.sending r.ticket r.timeout r.reaper))) r := by
  have hlt : r.caller < m₀.tasks.length := (List.getElem?_eq_some_iff.mp htask).1
  have hnew : m₂.tasks.length = r.reaper := by rw [htasks, hreaper]
  have hspawn : ∀ u : Nat,
      (m₂.spawn r.station (.reaping r.ticket r.timeout none)).1.tasks[u]? =
        if u = r.reaper then some ⟨r.station, .reaping r.ticket r.timeout none, false⟩
        else m₀.tasks[u]? := by
    intro u
    rw [tasks_spawn, hnew, htasks]
  refine ⟨hstore, hadds, hfresh, hticket, ?_, ?_, ?_, ?_, ?_, hnow, ?_⟩
  · intro u hc hu
    rw [tasks_setActivity, if_neg hc, hspawn, if_neg hu]
  · rw [tasks_setActivity, if_pos rfl, hspawn, if_neg (by omega), htask]
    rfl
  · rw [tasks_setActivity, if_neg (by omega), hspawn, if_pos rfl]
  · rw [hreaper]
    exact List.getElem?_eq_none (Nat.le_refl _)
  · exact (isReady_spawn m₂ _ r.station (.reaping r.ticket r.timeout none)).mpr (Or.inr hnew.symm)
  · intro u hu
    have hspawned : Keeps m₂ (m₂.spawn r.station (.reaping r.ticket r.timeout none)).1 u :=
      ⟨rfl, fun hready => (isReady_spawn m₂ u _ _).mpr (Or.inl hready), id⟩
    exact (hkeeps hu).trans (hspawned.trans (keeps_of_agenda (agenda_setActivity _ _ _) u))

def storing (m : Mesh) (i : Nat) (c : Command) : Mesh :=
  m.updateStore i (fun _ => (((m.store i).issue c).1.put c.id (m.store i).commands.length).1)

theorem enter_of_fresh (hget : (m.store i).get? c.id = none)
    (hr : m.registration t i c = r) :
    (m.enter t i c).1 =
      ((m.storing i c).spawn i (.reaping r.ticket r.timeout none)).1.setActivity t
        (.executing c (.sending r.ticket r.timeout r.reaper)) := by
  have hput : (((m.station i).store.issue c).1.put c.id ((m.station i).store.issue c).2).2 =
      none := hget
  rw [← hr]
  simp only [enter, register, hput]
  rfl

theorem enter_of_displacing {k : Nat} (hget : (m.store i).get? c.id = some k)
    (hr : m.registration t i c = r) :
    (m.enter t i c).1 =
      (((m.storing i c).timeOut i k).1.spawn i (.reaping r.ticket r.timeout none)).1.setActivity t
        (.executing c (.sending r.ticket r.timeout r.reaper)) := by
  have hput : (((m.station i).store.issue c).1.put c.id ((m.station i).store.issue c).2).2 =
      some k := hget
  have htasks : ((m.storing i c).timeOut i k).1.tasks = m.tasks := by
    rw [tasks_timeOut, storing, tasks_updateStore]
  rw [← hr, registration, ← htasks]
  simp only [enter, register, hput]
  rfl

theorem keeps_storing {u : Nat} (hu : u ≠ t) (c : Command) :
    Keeps m ((m.taken t).storing i c) u :=
  (keeps_taken hu).trans (keeps_of_agenda (agenda_updateStore _ _ _) _)

theorem store_storing (hi : i < m.stations.length) (c : Command) (j : Nat) :
    (m.storing i c).store j =
      if j = i then (((m.store i).issue c).1.put c.id (m.store i).commands.length).1
      else m.store j :=
  store_updateStore hi _ j

theorem enrols_of_fresh {a : Activity} (htask : m.tasks[t]? = some ⟨i, a, false⟩)
    (hi : i < m.stations.length) (hget : (m.store i).get? c.id = none) :
    Enrols m ((m.taken t).enter t i c).1 (m.registration t i c) := by
  have hi' : i < (m.taken t).stations.length := hi
  have hget' : ((m.taken t).store i).get? c.id = none := hget
  rw [enter_of_fresh hget' rfl]
  refine enrols_of_adds (r := m.registration t i c) ?_ ?_ hget rfl rfl rfl htask
    (fun hu => keeps_storing hu c) rfl
  · intro j hj
    exact (store_storing hi' c j).trans (if_neg hj)
  · simp only [registration, store_storing hi', if_true]
    exact PendingStore.put_issue_adds (m.store i) c

/-- To displace a command is to let it expire and to be enrolled then. -/
theorem enrols_of_displacing {a : Activity} {k : Nat} (hs : (m.store i).Sound)
    (htask : m.tasks[t]? = some ⟨i, a, false⟩) (hi : i < m.stations.length)
    (hget : (m.store i).get? c.id = some k) (hp : (m.store i).command? k = some p) :
    Enrols (m.expire i k).1 ((m.taken t).enter t i c).1 (m.registration t i c) := by
  obtain ⟨q, hq, hid, ho⟩ := hs.entry hget
  obtain rfl : p = q := Option.some.inj (hp.symm.trans hq)
  obtain ⟨-, -, halters, hsnd⟩ : (m.store i).get? p.id = some k ∧ p.completed = false ∧
      (m.store i).Alters k p.closed True ((m.store i).expire k).1 ∧
      ((m.store i).expire k).2 = true := by
    rcases PendingStore.expire_cases hs hp with hexpires | ⟨hnot, -⟩
    · exact hexpires
    · exact absurd (by rw [hid, hget]) hnot
  have hi' : i < (m.taken t).stations.length := hi
  have hplaced : i < ((m.taken t).storing i c).stations.length := by
    rw [storing, length_updateStore]
    exact hi
  have hopened : (((m.taken t).storing i c).store i).command? k = some p := by
    have hne := Nat.ne_of_lt (PendingStore.lt_of_command? hp)
    have hstored := store_storing hi' c i
    rw [if_pos rfl] at hstored
    rw [hstored]
    exact (PendingStore.put_issue_command ..).trans ((if_neg hne).trans hp)
  have hready : ∀ {u}, u ≠ t → (m.expire i k).1.IsReady u →
      (((m.taken t).storing i c).timeOut i k).1.IsReady u := by
    intro u hu hready
    have hsnd' := congrArg Prod.snd (PendingStore.onTimeout_of_open hopened ho)
    rcases (isReady_expire hsnd).mp hready with hready | hfind
    · exact (isReady_timeOut hsnd').mpr (Or.inl ((keeps_storing hu c).ready hready))
    · exact (isReady_timeOut hsnd').mpr (Or.inr hfind)
  have hk₀ := keeps_expire m i k
  have hk₂ := keeps_timeOut ((m.taken t).storing i c) i k
  have hget' : ((m.taken t).store i).get? c.id = some k := hget
  rw [enter_of_displacing hget' rfl]
  refine enrols_of_adds (r := m.registration t i c) ?_ ?_ ?_ ?_ ?_ ?_
    (by rw [tasks_expire]; exact htask) ?_ (hk₂ 0).now
  · intro j hj
    have hj' : j ≠ i := hj
    rw [store_timeOut hplaced, if_neg hj', store_storing hi', if_neg hj', store_expire hi,
      if_neg hj']
    rfl
  · simp only [registration]
    rw [store_timeOut hplaced, if_pos rfl, store_storing hi', if_pos rfl, store_expire hi,
      if_pos rfl]
    exact PendingStore.put_issue_displacing hs hget hp
  · simp only [registration]
    rw [store_expire hi, if_pos rfl]
    cases hsome : (((m.store i).expire k).1.get? c.id) with
    | none => rfl
    | some l =>
      obtain ⟨hbefore, hne⟩ := (halters.entry c.id l).mp hsome
      exact absurd (Option.some.inj (hbefore.symm.trans hget)) (hne trivial)
  · simp only [registration]
    rw [store_expire hi, if_pos rfl, PendingStore.length_expire]
  · rw [tasks_expire]
    rfl
  · rw [tasks_timeOut, tasks_expire]
    rfl
  · intro u hu
    refine ⟨(hk₂ u).now.trans (hk₀ u).now.symm, hready hu, ?_⟩
    intro due halarm
    rw [HasAlarm, alarms_expire] at halarm
    exact (hk₂ u).alarm halarm

/-- A call that enters displaces the stored command of its id, and is enrolled then. -/
theorem Ledger.enters (h : Ledger m L) {c₀ : Command}
    (htask : m.tasks[t]? = some ⟨i, .executing c₀ .submitted, false⟩)
    (hi : i < m.stations.length) (hr : m.registration t i c = r) :
    ∃ m₀, Ledger m₀ L ∧ m₀.tasks = m.tasks ∧ Enrols m₀ ((m.taken t).enter t i c).1 r ∧
      ∀ r' ∈ L, Proceeds m (.registers r) r' m₀ := by
  subst hr
  cases hget : (m.store i).get? c.id with
  | none =>
    exact ⟨m, h, rfl, enrols_of_fresh htask hi hget, fun r' hr' => h.proceeds_aside (.refl m) hr'⟩
  | some k =>
    -- `m₀` is the mesh in which the displaced command has expired
    obtain ⟨p, hp, hid, -⟩ := (h.sound i).entry hget
    obtain ⟨old, hold, rfl, rfl⟩ := h.ticketed hp
    obtain ⟨q, caller, reaper, ht⟩ := h.tracked hold
    obtain rfl : p = q := Option.some.inj (hp.symm.trans ht.pending)
    have hsame : old.command.id = c.id := by rw [← ht.command, ← hid, Pending.id]
    have hacts : Acts m (.registers (m.registration t old.station c)) old
        (m.expire old.station old.ticket).1 :=
      h.acts_expire ht hold (by rw [Stores, hsame, hget]) fun ho =>
        .displaced ho rfl rfl hsame.symm
    exact ⟨_, h.acts hold hacts, tasks_expire _ _ _,
      enrols_of_displacing (h.sound _) htask hi hget hp, fun r' hr' => h.proceeds hold hacts hr'⟩

end ClusterMesh.Mesh
