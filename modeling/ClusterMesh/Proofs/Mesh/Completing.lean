import ClusterMesh.Proofs.Mesh.Upkeep

/-!
# Completing a command for its caller

A command is completed by its reaper, by a result that comes in, or by a command of the same id
that displaces it. Its caller is woken if it waits.
-/

namespace ClusterMesh.Mesh

variable {m m' : Mesh} {r : Registration} {p : Pending} {L : List Registration}
variable {caller reaper : Task} {e : Happening}

/-! ### Expiry -/

theorem Tracks.get?_iff (ht : Tracks m r p caller reaper) :
    (m.store r.station).get? p.id = some r.ticket ↔ m.Stores r := by
  rw [Stores, Pending.id, ht.command]

theorem Ledger.acts_expiry (h : Ledger m L) (ht : Tracks m r p caller reaper) (hr : r ∈ L)
    (hstored : m.Stores r)
    (hstore : ∀ i, m'.store i =
      if i = r.station then ((m.store r.station).expire r.ticket).1 else m.store i)
    (htask : ∀ {u : Nat}, u ≠ r.reaper → m'.tasks[u]? = m.tasks[u]?)
    (hkeeps : ∀ {u}, u ≠ r.reaper → Keeps m m' u)
    (hwoken : ((m.store r.station).expire r.ticket).2 = true →
      m.tasks.findIdx? (isCallerOf r.station r.ticket) = some r.caller → m'.IsReady r.caller)
    (hreaper : ∃ reaper', m'.tasks[r.reaper]? = some reaper' ∧ ReaperStands m' r reaper')
    (hevolves : p.completed = false → Evolves m e r p p.closed) : Acts m e r m' := by
  have hapart : r.caller ≠ r.reaper := h.distinct.apart hr hr
  obtain ⟨-, ho, halters, hsnd⟩ | ⟨hnot, -⟩ :=
    PendingStore.expire_cases (h.sound r.station) ht.pending
  · have halters' : (m.store r.station).Alters r.ticket p.closed True (m'.store r.station) := by
      rw [hstore, if_pos rfl]
      exact halters
    have htouches : Touches m m' r := by
      refine touches_of_alters ?_ halters' (fun _ hu => htask hu) (fun _ hu => hkeeps hu)
      intro i hi
      rw [hstore, if_neg hi]
    obtain ⟨reaper', hat, hstands⟩ := hreaper
    refine h.acts_moves ht hr ho htouches halters' (iff_of_true trivial rfl) rfl
      (onItsWay_closed ho) (htask hapart) (hkeeps hapart) (fun _ => hwoken hsnd)
      ⟨reaper', hat, hstands, ?_⟩ (hevolves ho)
    intro hopen
    cases hopen
  · exact absurd (ht.get?_iff.mpr hstored) hnot

theorem Ledger.acts_expire (h : Ledger m L) (ht : Tracks m r p caller reaper) (hr : r ∈ L)
    (hstored : m.Stores r) (hevolves : p.completed = false → Evolves m e r p p.closed) :
    Acts m e r (m.expire r.station r.ticket).1 := by
  have hkeeps := keeps_expire m r.station r.ticket
  refine h.acts_expiry ht hr hstored (store_expire (placed_of_pending ht.pending) r.ticket)
    (fun _ => by rw [tasks_expire]) (fun _ => hkeeps _) ?_ ⟨reaper, ?_, ?_⟩ hevolves
  · exact fun hsnd hfind => (isReady_expire hsnd).mpr (Or.inr hfind)
  · rw [tasks_expire]
    exact ht.reaper_at
  · exact ht.reaper_stands.keeps fun _ => hkeeps _

theorem Ledger.acts_reaper (h : Ledger m L) (ht : Tracks m r p caller reaper) (hr : r ∈ L)
    {reaper' : Task} (hstore : ∀ i, m'.store i = m.store i)
    (htask : ∀ {u : Nat}, u ≠ r.reaper → m'.tasks[u]? = m.tasks[u]?)
    (hkeeps : ∀ {u}, u ≠ r.reaper → Keeps m m' u)
    (hat : m'.tasks[r.reaper]? = some reaper') (hstands : ReaperStands m' r reaper')
    (hguard : m.Stores r → p.completed = false → ¬caller.HasFailed →
      ∃ due, reaper' = ⟨r.station, .reaping r.ticket r.timeout due, false⟩) :
    Acts m .other r m' := by
  have hapart : r.caller ≠ r.reaper := h.distinct.apart hr hr
  have hstores : m'.Stores r ↔ m.Stores r := by rw [Stores, hstore, Stores]
  refine ⟨touches_of_stores hstore (fun _ hu => htask hu) (fun _ hu => hkeeps hu),
    by rw [hstore]; exact h.sound _, p, p, caller, caller, reaper, reaper', ht,
    ⟨by rw [pending, hstore]; exact ht.pending, ht.command,
    by rw [htask hapart]; exact ht.caller_at, hat, ?_, hstands, ?_⟩, .kept rfl rfl,
    .stays rfl (Or.inl rfl)⟩
  · refine ht.caller_stands.moves (fun _ => hkeeps hapart) hstores.mp id ?_ (fun hc => ⟨hc, rfl⟩)
    intro due aborted heq hc
    subst heq
    obtain ⟨-, -, -, -, -, hwoken, -⟩ := ht.caller_stands.of_waiting
    exact (hkeeps hapart).ready (hwoken hc)
  · intro ho hf
    obtain ⟨hstored, -⟩ := ht.guarded ho hf
    exact ⟨hstores.mpr hstored, hguard hstored ho hf⟩

theorem Ledger.acts_fire (h : Ledger m L) (ht : Tracks m r p caller reaper) (hr : r ∈ L)
    (hstation : reaper.station = r.station) (hnow : m.now = r.instant + r.timeout) :
    Acts m .other r (((m.taken r.reaper).expire r.station r.ticket).1.finish r.reaper
      (.reaped ((m.taken r.reaper).expire r.station r.ticket).2)) := by
  have hapart : r.caller ≠ r.reaper := h.distinct.apart hr hr
  have hplaced : r.station < (m.taken r.reaper).stations.length := placed_of_pending ht.pending
  have hstore : ∀ i, ((m.taken r.reaper).expire r.station r.ticket).1.store i =
      if i = r.station then ((m.store r.station).expire r.ticket).1 else m.store i :=
    store_expire hplaced r.ticket
  have htasks := tasks_expire (m.taken r.reaper) r.station r.ticket
  have hkeeps : ∀ {u}, u ≠ r.reaper →
      Keeps m ((m.taken r.reaper).expire r.station r.ticket).1 u :=
    fun hu => (keeps_taken hu).trans (keeps_expire _ _ _ _)
  have hwoken : ((m.store r.station).expire r.ticket).2 = true →
      m.tasks.findIdx? (isCallerOf r.station r.ticket) = some r.caller →
        ((m.taken r.reaper).expire r.station r.ticket).1.IsReady r.caller := by
    intro hsnd hfind
    have hsnd' : (((m.taken r.reaper).store r.station).expire r.ticket).2 = true := hsnd
    exact (isReady_expire hsnd').mpr (Or.inr hfind)
  generalize (m.taken r.reaper).expire r.station r.ticket = expired at *
  obtain ⟨m', stored⟩ := expired
  have htask : ∀ {u : Nat}, u ≠ r.reaper →
      (m'.finish r.reaper (.reaped stored)).tasks[u]? = m.tasks[u]? := by
    intro u hu
    rw [tasks_finish, tasks_setActivity, if_neg hu, htasks, tasks_taken]
  have hat : (m'.finish r.reaper (.reaped stored)).tasks[r.reaper]? =
      some ⟨r.station, .ended (.reaped stored), reaper.aborted⟩ := by
    rw [tasks_finish, tasks_setActivity, if_pos rfl, htasks, tasks_taken, ht.reaper_at, ← hstation]
    rfl
  have hkeeps' : ∀ {u}, u ≠ r.reaper → Keeps m (m'.finish r.reaper (.reaped stored)) u :=
    fun hu => (hkeeps hu).trans (keeps_finish hu _)
  by_cases hstored : m.Stores r
  · exact h.acts_expiry ht hr hstored hstore htask hkeeps' hwoken ⟨_, hat, .ended⟩
      fun ho => .expires ho rfl rfl (.reaper hnow)
  · obtain ⟨hget, -⟩ | ⟨-, hexpire⟩ := PendingStore.expire_cases (h.sound r.station) ht.pending
    · exact absurd (ht.get?_iff.mp hget) hstored
    · have hsame : ∀ i, (m'.finish r.reaper (.reaped stored)).store i = m.store i := by
        intro i
        rw [store_finish, hstore, hexpire]
        split
        · next hi => rw [hi]
        · rfl
      exact h.acts_reaper ht hr hsame htask hkeeps' hat .ended fun hs => absurd hs hstored

/-! ### Reapers that go on -/

section

variable {t i k delay instant : Nat} {due : Option Nat}

theorem runReaper_of_late (hinstant : due.getD (m.now + delay) = instant)
    (hle : instant ≤ m.now) : (m.taken t).runReaper t i k delay due =
      ((m.taken t).expire i k).1.finish t (.reaped ((m.taken t).expire i k).2) := by
  have hnow : (m.taken t).now = m.now := rfl
  simp only [runReaper, hnow, hinstant, if_neg (Nat.not_lt.mpr hle)]

/-- What a mesh is like when a reaper waits for its instant. -/
structure Reaps (m m' : Mesh) (t i k delay instant : Nat) : Prop where
  store : ∀ j, m'.store j = m.store j
  task : ∀ {u : Nat}, u ≠ t → m'.tasks[u]? = m.tasks[u]?
  keeps : ∀ {u}, u ≠ t → Keeps m m' u
  now : m'.now = m.now
  reaper : m'.tasks[t]? = some ⟨i, .reaping k delay (some instant), false⟩
  alarm : m'.HasAlarm instant t

theorem reaps_of_early (htask : m.tasks[t]? = some ⟨i, .reaping k delay due, false⟩)
    (hinstant : due.getD (m.now + delay) = instant) (hlt : m.now < instant)
    (halarm : due.isNone = false → m.HasAlarm instant t) :
    Reaps m ((m.taken t).runReaper t i k delay due) t i k delay instant := by
  have hset : ∀ {u : Nat}, u ≠ t → ((m.taken t).setActivity t
      (.reaping k delay (some instant))).tasks[u]? = m.tasks[u]? := by
    intro u hu
    rw [tasks_setActivity, if_neg hu, tasks_taken]
  have hself : ((m.taken t).setActivity t (.reaping k delay (some instant))).tasks[t]? =
      some ⟨i, .reaping k delay (some instant), false⟩ := by
    rw [tasks_setActivity, if_pos rfl, tasks_taken, htask]
    rfl
  have hkeeps : ∀ {u}, u ≠ t →
      Keeps m ((m.taken t).setActivity t (.reaping k delay (some instant))) u :=
    fun hu => (keeps_taken hu).trans (keeps_of_agenda (agenda_setActivity _ _ _) _)
  have hnow : (m.taken t).now = m.now := rfl
  simp only [runReaper, hnow, hinstant, if_pos hlt]
  cases hdue : due.isNone with
  | true =>
    rw [if_pos rfl]
    exact ⟨fun _ => rfl, hset, fun hu => (hkeeps hu).trans (keeps_setAlarm _ _ _ _), rfl, hself,
      (hasAlarm_setAlarm _ _ _ _ _).mpr (Or.inr ⟨rfl, rfl⟩)⟩
  | false =>
    rw [if_neg Bool.false_ne_true]
    exact ⟨fun _ => rfl, hset, hkeeps, rfl, hself, halarm hdue⟩

end

theorem Ledger.acts_reap (h : Ledger m L) {t i k delay : Nat} {due : Option Nat}
    (htask : m.tasks[t]? = some ⟨i, .reaping k delay due, false⟩) :
    ∃ r ∈ L, Acts m .other r ((m.taken t).runReaper t i k delay due) := by
  obtain ⟨r, hr, p, caller, rfl, ht⟩ := h.reaper_of htask
  obtain ⟨rfl, rfl, rfl, hdue⟩ := ht.reaper_stands.of_reaping
  have hinstant : due.getD (m.now + r.timeout) = r.instant + r.timeout := by
    rcases hdue with ⟨rfl, hnow⟩ | ⟨rfl, -⟩
    · rw [hnow]
      rfl
    · rfl
  refine ⟨r, hr, ?_⟩
  by_cases hlt : m.now < r.instant + r.timeout
  · have hreaps := reaps_of_early htask hinstant hlt (by
      intro hset
      rcases hdue with ⟨rfl, -⟩ | ⟨rfl, ⟨halarm, -⟩ | ⟨-, heq⟩⟩
      · cases hset
      · exact halarm
      · exact absurd heq (Nat.ne_of_lt hlt))
    refine h.acts_reaper ht hr hreaps.store hreaps.task hreaps.keeps hreaps.reaper
      (.armed (Or.inl ⟨hreaps.alarm, ?_⟩)) (fun _ _ _ => ⟨_, rfl⟩)
    rw [hreaps.now]
    exact hlt
  · have hnow : m.now = r.instant + r.timeout := by
      rcases hdue with ⟨-, hnow⟩ | ⟨-, ⟨-, hearly⟩ | ⟨-, hnow⟩⟩
      · omega
      · exact absurd hearly hlt
      · exact hnow
    rw [runReaper_of_late hinstant (Nat.le_of_not_lt hlt)]
    exact h.acts_fire ht hr rfl hnow

theorem Ledger.acts_dropReaper (h : Ledger m L) {t i k delay : Nat} {due : Option Nat}
    (htask : m.tasks[t]? = some ⟨i, .reaping k delay due, true⟩) :
    ∃ r ∈ L, Acts m .other r ((m.taken t).finish t .cancelled) := by
  obtain ⟨r, hr, p, caller, rfl, ht⟩ := h.reaper_of htask
  obtain ⟨rfl, rfl, rfl, -⟩ := ht.reaper_stands.of_reaping
  have hat : ((m.taken r.reaper).finish r.reaper .cancelled).tasks[r.reaper]? =
      some ⟨r.station, .ended .cancelled, true⟩ := by
    rw [tasks_finish, tasks_setActivity, if_pos rfl, tasks_taken, htask]
    rfl
  refine ⟨r, hr, h.acts_reaper ht hr (fun _ => rfl) ?_ ?_ hat .ended ?_⟩
  · intro u hu
    rw [tasks_finish, tasks_setActivity, if_neg hu, tasks_taken]
  · exact fun hu => (keeps_taken hu).trans (keeps_finish hu _)
  · intro _ ho hf
    obtain ⟨-, due', hsame⟩ := ht.guarded ho hf
    cases hsame

/-! ### Results that come in -/

section

variable {i : Nat} {result : CommandResult}

theorem aside_correlate (hi : i < m.stations.length)
    (hcorrelate : (m.store i).correlate result = (m.store i, none)) :
    m.Aside (m.correlate i result).1 := by
  have htasks := tasks_correlate m i result
  have hkeeps := keeps_correlate m i result
  refine ⟨(hkeeps 0).now, Nat.le_of_eq (length_correlate m i result).symm, ?_, ?_, ?_,
    fun _ _ => (hkeeps _).ready, fun _ _ => (hkeeps _).alarm⟩
  · intro j
    rw [store_correlate hi, hcorrelate]
    split
    · next hj => rw [hj]
    · rfl
  · intro t task htask _
    rw [htasks, htask]
  · intro t task htask _
    rw [← htasks, htask]

theorem touches_correlate {gone : Prop} {p' : Pending} (hi : r.station < m.stations.length)
    (halters : (m.store r.station).Alters r.ticket p' gone
      ((m.correlate r.station result).1.store r.station)) :
    Touches m (m.correlate r.station result).1 r := by
  refine touches_of_alters ?_ halters (fun _ _ => by rw [tasks_correlate])
    (fun _ _ => keeps_correlate m _ _ _)
  intro j hj
  rw [store_correlate hi, if_neg hj]

theorem Ledger.acts_correlate (h : Ledger m L) (hi : i < m.stations.length)
    (result : CommandResult) :
    ((m.store i).get? result.id = none ∧ m.Aside (m.correlate i result).1) ∨
      ∃ r ∈ L, Acts m (.correlates i result) r (m.correlate i result).1 := by
  obtain ⟨hnone, hcorrelate⟩ | ⟨k, p, hget, hp, hid, ho, hmoved⟩ :=
    PendingStore.correlate_cases (h.sound i) result
  · exact Or.inl ⟨hnone, aside_correlate hi hcorrelate⟩
  obtain ⟨r, hr, rfl, rfl⟩ := h.ticketed hp
  obtain ⟨q, caller, reaper, ht⟩ := h.tracked hr
  obtain rfl : p = q := Option.some.inj (hp.symm.trans ht.pending)
  have hsame : result.id = r.command.id := by rw [← hid, Pending.id, ht.command]
  have hstore := store_correlate hi result r.station
  have htasks := tasks_correlate m r.station result
  have hkeeps := keeps_correlate m r.station result
  have hat : (m.correlate r.station result).1.tasks[r.reaper]? = some reaper := by
    rw [htasks, ht.reaper_at]
  have hstands := ht.reaper_stands.keeps fun _ => hkeeps r.reaper
  rw [if_pos rfl] at hstore
  refine Or.inr ⟨r, hr, ?_⟩
  rcases hmoved with ⟨hfull, halters, hsnd⟩ | ⟨hnot, halters, -⟩
  · rw [← hstore] at halters
    refine h.acts_moves ht hr ho (touches_correlate hi halters) halters (iff_of_true trivial rfl)
      rfl ?_ (by rw [htasks]) (hkeeps _) ?_ ⟨reaper, hat, hstands, fun _ => rfl⟩
      (.fills ho rfl hsame hfull)
    · exact fun hway => onItsWay_closed ho (onItsWay_collecting ho result hway)
    · exact fun _ hfind => (isReady_correlate hsnd).mpr (Or.inr hfind)
  · have hopen : (p.collecting result).completed = false := ho
    rw [← hstore] at halters
    refine h.acts_moves ht hr ho (touches_correlate hi halters) halters ?_ rfl
      (onItsWay_collecting ho result) (by rw [htasks]) (hkeeps _) ?_
      ⟨reaper, hat, hstands, fun _ => rfl⟩ (.collects ho rfl hsame hnot)
    · rw [hopen]
      exact iff_of_false id Bool.false_ne_true
    · intro hc
      rw [hopen] at hc
      cases hc

end

end ClusterMesh.Mesh
