import ClusterMesh.Proofs.Mesh.Upkeep

/-!
# What each step does to its registration

A call that goes on, a reaper that goes on, a result that comes in and a call that is cancelled:
each acts on one registration.
-/

namespace ClusterMesh.Mesh

variable {m m' m₁ : Mesh} {r : Registration} {p p' : Pending} {L : List Registration}
variable {caller reaper : Task} {e : Happening}

/-! ### Calls that go on -/

section

variable {t i k due guard : Nat} {c : Command}

theorem awaitResults_of_delivered (hp : (m.store i).command? k = some p)
    (hd : p.delivery = .delivered p.results) :
    m.awaitResults t i c k due guard = m.returnResults t i c k guard p.results := by
  obtain ⟨command, results, completed, delivery⟩ := p
  obtain rfl : delivery = .delivered results := hd
  simp only [awaitResults, hp]

theorem awaitResults_of_early (hp : (m.store i).command? k = some p)
    (hd : p.delivery = .awaited) (hlt : m.now < due) :
    m.awaitResults t i c k due guard = m := by
  obtain ⟨command, results, completed, delivery⟩ := p
  obtain rfl : delivery = .awaited := hd
  simp only [awaitResults, hp, if_pos hlt]

theorem awaitResults_of_late (hp : (m.store i).command? k = some p)
    (hd : p.delivery = .awaited) (hle : due ≤ m.now) :
    m.awaitResults t i c k due guard =
      (m.timeOut i k).1.returnResults t i c k guard p.results := by
  obtain ⟨command, results, completed, delivery⟩ := p
  obtain rfl : delivery = .awaited := hd
  simp only [awaitResults, hp, if_neg (Nat.not_lt.mpr hle)]

end

/-- The mesh with a call that has come to wait, in which nothing but the call has changed. -/
structure Waits (m m₁ : Mesh) (r : Registration) (due : Nat) (aborted : Bool) : Prop where
  stations : m₁.stations = m.stations
  touches : Touches m m₁ r
  keeps : Keeps m m₁ r.reaper
  caller : m₁.tasks[r.caller]? =
    some ⟨r.station, .executing r.command (.waiting r.ticket due r.reaper), aborted⟩
  reaper : m₁.tasks[r.reaper]? = m.tasks[r.reaper]?

section

variable {due : Nat} {aborted : Bool}

theorem Waits.store (hw : Waits m m₁ r due aborted) (i : Nat) : m₁.store i = m.store i := by
  simp only [Mesh.store, station, hw.stations]

theorem Waits.command? (hw : Waits m m₁ r due aborted) (hp : m.pending r = some p) :
    (m₁.store r.station).command? r.ticket = some p := by
  rw [hw.store]
  exact hp

theorem Waits.placed (hw : Waits m m₁ r due aborted) (hp : m.pending r = some p) :
    r.station < m₁.stations.length := by
  rw [hw.stations]
  exact placed_of_pending hp

theorem Ledger.acts_receive (h : Ledger m L) (ht : Tracks m r p caller reaper) (hr : r ∈ L)
    (hlive : caller.activity.IsEngaged) (hw : Waits m m₁ r due aborted) (hway : p.OnItsWay)
    (hc : p.completed = true) :
    Acts m .other r (m₁.awaitResults r.caller r.station r.command r.ticket due r.reaper) := by
  have hd : p.delivery = .delivered p.results := by
    simpa only [Pending.OnItsWay, hc, if_true] using hway
  have hown := (h.sound r.station).own ht.pending
  have htake := Pending.take_eq p
  rw [awaitResults_of_delivered (hw.command? ht.pending) hd]
  refine h.acts_leave ht hr hlive (hw.placed ht.pending) hw.touches hw.keeps hw.caller rfl
    hw.reaper ?_ htake.1 (Or.inr ⟨htake.2.2.trans hc, by rw [htake.2.1]⟩)
    (.kept htake.2.1 htake.2.2)
  rw [hw.store]
  exact (PendingStore.alters_refl ht.pending).settled hown

theorem Ledger.acts_linger (h : Ledger m L) (ht : Tracks m r p caller reaper)
    (hlive : caller.activity.IsEngaged) (hw : Waits m m₁ r due aborted) (hway : p.OnItsWay)
    (ho : p.completed = false) (hlt : m₁.now < due) (halarm : m₁.HasAlarm due r.caller)
    (hgoes : Goes m .other r caller
      ⟨r.station, .executing r.command (.waiting r.ticket due r.reaper), aborted⟩) :
    Acts m .other r (m₁.awaitResults r.caller r.station r.command r.ticket due r.reaper) := by
  have hd : p.delivery = .awaited := by
    simpa only [Pending.OnItsWay, ho, Bool.false_eq_true, if_false] using hway
  have hp₁ := hw.command? ht.pending
  have hstores : m₁.Stores r ↔ m.Stores r := by rw [Stores, hw.store, Stores]
  have htracks : Tracks m₁ r p
      ⟨r.station, .executing r.command (.waiting r.ticket due r.reaper), aborted⟩ reaper := by
    refine ⟨hp₁, ht.command, hw.caller, hw.reaper.trans ht.reaper_at,
      .waiting hway ?_ (Or.inl ⟨halarm, hlt⟩), ht.reaper_stands.keeps fun _ => hw.keeps, ?_⟩
    · intro hcompleted
      rw [ho] at hcompleted
      cases hcompleted
    · intro _ _
      obtain ⟨hstored, due', hsame⟩ := ht.guarded ho hlive.not_hasFailed
      exact ⟨hstores.mpr hstored, due', hsame⟩
  rw [awaitResults_of_early hp₁ hd hlt]
  refine ⟨hw.touches, ?_, p, p, caller, _, reaper, reaper, ht, htracks, .kept rfl rfl, hgoes⟩
  rw [hw.store]
  exact h.sound _

theorem Ledger.acts_overrun (h : Ledger m L) (ht : Tracks m r p caller reaper) (hr : r ∈ L)
    (hlive : caller.activity.IsEngaged) (hw : Waits m m₁ r due aborted) (hway : p.OnItsWay)
    (ho : p.completed = false) (hle : due ≤ m₁.now) (hover : Expires m r) :
    Acts m .other r (m₁.awaitResults r.caller r.station r.command r.ticket due r.reaper) := by
  have hd : p.delivery = .awaited := by
    simpa only [Pending.OnItsWay, ho, Bool.false_eq_true, if_false] using hway
  have hp₁ := hw.command? ht.pending
  have hplaced := hw.placed ht.pending
  have hown := (h.sound r.station).own ht.pending
  -- the call completes its command itself, takes the results and leaves the store
  have hstore : ((m₁.timeOut r.station r.ticket).1).store r.station =
      (m.store r.station).update r.ticket (fun _ => p.closed) := by
    rw [store_timeOut hplaced, if_pos rfl, PendingStore.onTimeout_of_open hp₁ ho, hw.store]
  have hclosed : (m.store r.station).Alters r.ticket p.closed False
      (((m₁.timeOut r.station r.ticket).1).store r.station) := by
    rw [hstore]
    exact PendingStore.alters_update (fun _ => p.closed) ht.pending
  have htouches : Touches m₁ (m₁.timeOut r.station r.ticket).1 r := by
    rw [← hw.store] at hclosed
    refine touches_of_alters (fun hi => ?_) hclosed (fun _ _ => by rw [tasks_timeOut])
      (fun _ _ => keeps_timeOut m₁ _ _ _)
    rw [store_timeOut hplaced, if_neg hi]
  have htake := Pending.take_eq p.closed
  have hresults : p.closed.take.results = p.results := htake.2.1
  have hplaced' : r.station < (m₁.timeOut r.station r.ticket).1.stations.length := by
    rw [length_timeOut]
    exact hplaced
  have hcaller : (m₁.timeOut r.station r.ticket).1.tasks[r.caller]? = some
      ⟨r.station, .executing r.command (.waiting r.ticket due r.reaper), aborted⟩ := by
    rw [tasks_timeOut]
    exact hw.caller
  have hreaper : (m₁.timeOut r.station r.ticket).1.tasks[r.reaper]? = m.tasks[r.reaper]? := by
    rw [tasks_timeOut]
    exact hw.reaper
  rw [awaitResults_of_late hp₁ hd hle, ← hresults]
  exact h.acts_leave ht hr hlive hplaced' (hw.touches.trans htouches)
    (hw.keeps.trans (keeps_timeOut m₁ _ _ _)) hcaller rfl hreaper (hclosed.settled hown) htake.1
    (Or.inr ⟨htake.2.2, rfl⟩) (.expires ho hresults htake.2.2 hover)

theorem Ledger.acts_awaitResults (h : Ledger m L) (ht : Tracks m r p caller reaper) (hr : r ∈ L)
    (hlive : caller.activity.IsEngaged) (hw : Waits m m₁ r due aborted) (hway : p.OnItsWay)
    (halarm : m₁.now < due → m₁.HasAlarm due r.caller) (hover : due ≤ m₁.now → Expires m r)
    (hgoes : Goes m .other r caller
      ⟨r.station, .executing r.command (.waiting r.ticket due r.reaper), aborted⟩) :
    Acts m .other r
      (m₁.awaitResults r.caller r.station r.command r.ticket due r.reaper) := by
  cases hc : p.completed with
  | true => exact h.acts_receive ht hr hlive hw hway hc
  | false =>
    by_cases hlt : m₁.now < due
    · exact h.acts_linger ht hlive hw hway hc hlt (halarm hlt) hgoes
    · have hle : due ≤ m₁.now := Nat.le_of_not_lt hlt
      exact h.acts_overrun ht hr hlive hw hway hc hle (hover hle)

end

theorem Ledger.acts_wait (h : Ledger m L) {t i k due guard : Nat} {c : Command}
    (htask : m.tasks[t]? = some ⟨i, .executing c (.waiting k due guard), false⟩) :
    ∃ r ∈ L, Acts m .other r ((m.taken t).awaitResults t i c k due guard) := by
  obtain ⟨r, hr, p, reaper, rfl, ht⟩ := h.caller_of htask trivial
  obtain ⟨rfl, rfl, rfl, rfl, hway, -, htimed⟩ := ht.caller_stands.of_waiting
  have hapart : r.reaper ≠ r.caller := (h.distinct.apart hr hr).symm
  have hwaits : Waits m (m.taken r.caller) r due false :=
    ⟨rfl, touches_taken m (Or.inl rfl), keeps_taken hapart, htask, rfl⟩
  refine ⟨r, hr, h.acts_awaitResults ht hr trivial hwaits hway ?_ ?_ (.stays rfl (Or.inl rfl))⟩
  · intro hlt
    rcases htimed with ⟨halarm, -⟩ | ⟨-, heq⟩
    · exact halarm
    · exact absurd heq (Nat.ne_of_lt hlt)
  · intro hle
    obtain heq : m.now = due := by
      rcases htimed with ⟨-, hlt⟩ | ⟨-, heq⟩
      · exact absurd hlt (Nat.not_lt.mpr hle)
      · exact heq
    rw [← heq] at htask
    exact .waiting htask

theorem Ledger.acts_depart (h : Ledger m L) {t i k timeout guard : Nat} {c : Command}
    (htask : m.tasks[t]? = some ⟨i, .executing c (.sending k timeout guard), false⟩)
    (sent : Except MeshError Bool) :
    ∃ r ∈ L, Acts m .other r (m.depart t i c k timeout guard sent) := by
  obtain ⟨r, hr, p, reaper, rfl, ht⟩ := h.caller_of htask trivial
  obtain ⟨rfl, rfl, rfl, rfl, rfl, hway⟩ := ht.caller_stands.of_sending
  have hapart : r.reaper ≠ r.caller := (h.distinct.apart hr hr).symm
  have hplaced := placed_of_pending ht.pending
  cases sent with
  | error error =>
    have htouches : Touches m m r := touches_of_stores (fun _ => rfl) (fun _ _ => rfl)
      (fun _ _ => keeps_of_agenda rfl _)
    exact ⟨r, hr, h.acts_leave ht hr trivial hplaced htouches (keeps_of_agenda rfl _) htask rfl rfl
      (PendingStore.removeEntry_alters ht.pending ((h.sound _).own ht.pending)) rfl
      (Or.inl ⟨error, rfl⟩) (.kept rfl rfl)⟩
  | ok went =>
    have hwaits : Waits m (m.beginWaiting r.caller r.command r.ticket (m.now + r.timeout) r.reaper)
        r (m.now + r.timeout) false := by
      refine ⟨rfl, (touches_setActivity m (Or.inl rfl) _).trans (touches_setAlarm _ r _ _),
        (keeps_of_agenda (agenda_setActivity _ _ _) _).trans (keeps_setAlarm _ _ _ _), ?_, ?_⟩
      · rw [beginWaiting, tasks_setAlarm, tasks_setActivity, if_pos rfl, htask]
        rfl
      · rw [beginWaiting, tasks_setAlarm, tasks_setActivity, if_neg hapart]
    refine ⟨r, hr, h.acts_awaitResults ht hr trivial hwaits hway ?_ ?_ (.waits rfl rfl rfl)⟩
    · intro _
      exact (hasAlarm_setAlarm _ _ _ _ _).mpr (Or.inr ⟨rfl, rfl⟩)
    · intro hle
      have hle' : m.now + r.timeout ≤ m.now := hle
      exact .sending htask (by omega)

/-! ### Calls that are cancelled -/

theorem Ledger.acts_cancel (h : Ledger m L) {t i : Nat} {c : Command} {stage : CallStage}
    {aborted : Bool} (htask : m.tasks[t]? = some ⟨i, .executing c stage, aborted⟩)
    (hengaged : (Activity.executing c stage).IsEngaged) :
    ∃ r ∈ L, Acts m (.cancels t) r (m.abort t) := by
  obtain ⟨r, hr, p, reaper, rfl, ht⟩ := h.caller_of htask hengaged
  have hapart : r.reaper ≠ r.caller := (h.distinct.apart hr hr).symm
  obtain ⟨aborted', hcaller⟩ := tasks_abort_self htask
  have hstores : (m.abort r.caller).Stores r ↔ m.Stores r := by simp only [Stores, store_abort]
  have hkeeps := keeps_abort m r.caller
  refine ⟨r, hr, touches_abort m (Or.inl rfl), by rw [store_abort]; exact h.sound _, p, p, _,
    _, reaper, reaper, ht, ⟨by rw [pending, store_abort]; exact ht.pending, ht.command, hcaller,
    by rw [tasks_abort_of_ne _ _ _ hapart]; exact ht.reaper_at, ?_,
    ht.reaper_stands.keeps fun _ => hkeeps _, ?_⟩, .kept rfl rfl, .stays rfl (Or.inr rfl)⟩
  · have hstands := ht.caller_stands
    cases stage with
    | submitted => exact hengaged.elim
    | sending k timeout guard =>
      obtain ⟨rfl, rfl, rfl, rfl, rfl, hway⟩ := hstands.of_sending
      exact .sending hway
    | waiting k due guard =>
      obtain ⟨rfl, rfl, rfl, rfl, hway, hwoken, htimed⟩ := hstands.of_waiting
      exact .waiting hway (fun hc => (hkeeps _).ready (hwoken hc)) (htimed.keeps (hkeeps _))
  · intro ho _
    have hlive : (Task.mk i (.executing c stage) aborted).activity.IsEngaged := hengaged
    obtain ⟨hstored, due, hsame⟩ := ht.guarded ho hlive.not_hasFailed
    exact ⟨hstores.mpr hstored, due, hsame⟩

theorem Ledger.acts_giveUp (h : Ledger m L) (ht : Tracks m r p caller reaper) (hr : r ∈ L)
    (hlive : caller.activity.IsEngaged) (haborted : caller.aborted = true)
    (hstation : caller.station = r.station) :
    Acts m .other r (((m.taken r.caller).updateStore r.station
      (fun s => s.update r.ticket Pending.abandon)).finish r.caller .cancelled) := by
  have hapart : r.reaper ≠ r.caller := (h.distinct.apart hr hr).symm
  have hplaced : r.station < (m.taken r.caller).stations.length := placed_of_pending ht.pending
  have hstore : ∀ i, (((m.taken r.caller).updateStore r.station
      (fun s => s.update r.ticket Pending.abandon)).finish r.caller .cancelled).store i =
        if i = r.station then (m.store r.station).update r.ticket Pending.abandon
        else m.store i := by
    intro i
    rw [store_finish, store_updateStore hplaced]
    rfl
  generalize hm : ((m.taken r.caller).updateStore r.station
    (fun s => s.update r.ticket Pending.abandon)).finish r.caller .cancelled = m' at hstore
  have halters : (m.store r.station).Alters r.ticket p.abandon False (m'.store r.station) := by
    rw [hstore, if_pos rfl]
    exact PendingStore.alters_update Pending.abandon ht.pending
  have htasks : ∀ u : Nat, m'.tasks[u]? = if u = r.caller then
      some ⟨r.station, .ended .cancelled, caller.aborted⟩ else m.tasks[u]? := by
    intro u
    rw [← hm, tasks_finish, tasks_setActivity, tasks_updateStore, tasks_taken, ht.caller_at,
      ← hstation]
    rfl
  have hkeeps : ∀ u, u ≠ r.caller → Keeps m m' u := by
    intro u hu
    rw [← hm]
    exact (keeps_taken hu).trans
      ((keeps_of_agenda (agenda_updateStore _ _ _) _).trans (keeps_finish hu _))
  refine ⟨touches_of_alters ?_ halters ?_ (fun hc _ => hkeeps _ hc),
    (h.sound _).alters halters ht.pending rfl Or.inr, p, p.abandon, caller, _, reaper, reaper, ht,
    ⟨pending_of_alters halters, ht.command, by rw [htasks, if_pos rfl],
    by rw [htasks, if_neg hapart]; exact ht.reaper_at, .cancelled,
    ht.reaper_stands.keeps fun _ => hkeeps _ hapart, ?_⟩, .kept rfl rfl,
    .givesUp hlive haborted rfl⟩
  · intro i hi
    rw [hstore, if_neg hi]
  · intro u hc _
    rw [htasks, if_neg hc]
  · intro ho _
    obtain ⟨hstored, due, hsame⟩ := ht.guarded ho hlive.not_hasFailed
    exact ⟨(stores_of_alters halters).mpr ⟨hstored, id⟩, due, hsame⟩

end ClusterMesh.Mesh
