import ClusterMesh.Proofs.Mesh.Ledger

/-!
# The ledger is kept

Every step of a mesh keeps the ledger of the registered calls, and what becomes of a command in a
step is one of a few things.
-/

namespace ClusterMesh.Mesh

variable {m m' m₁ : Mesh} {r : Registration} {p p' : Pending} {L : List Registration}
variable {caller reaper : Task} {e : Happening} {t u : Nat}

/-! ### What the operations keep -/

theorem keeps_of_agenda (h : m'.agenda = m.agenda) (t : Nat) : Keeps m m' t := by
  refine ⟨?_, ?_, ?_⟩
  · rw [now, h, now]
  · intro hready
    rw [IsReady, h]
    exact hready
  · intro due halarm
    rw [HasAlarm, h]
    exact halarm

theorem keeps_taken (h : u ≠ t) : Keeps m (m.taken t) u :=
  ⟨rfl, fun hready => (isReady_taken m t u).mpr ⟨hready, h⟩, id⟩

theorem keeps_finish (h : u ≠ t) (e : TaskEnd) : Keeps m (m.finish t e) u :=
  ⟨rfl, id, fun halarm => (hasAlarm_finish m t u _ e).mpr ⟨halarm, h⟩⟩

theorem keeps_abort (m : Mesh) (t u : Nat) : Keeps m (m.abort t) u := by
  refine ⟨now_abort m t, fun hready => (isReady_abort m t u).mp (Or.inl hready), ?_⟩
  intro due halarm
  rw [HasAlarm, alarms_abort]
  exact halarm

theorem keeps_wakeCaller (m : Mesh) (i k u : Nat) : Keeps m (m.wakeCaller i k) u := by
  refine ⟨now_wakeCaller m i k, fun hready => (isReady_wakeCaller m u i k).mpr (Or.inl hready), ?_⟩
  intro due halarm
  rw [HasAlarm, alarms_wakeCaller]
  exact halarm

theorem keeps_setAlarm (m : Mesh) (due t u : Nat) : Keeps m (m.setAlarm due t) u :=
  ⟨rfl, id, fun halarm => (hasAlarm_setAlarm m t u due _).mpr (Or.inl halarm)⟩

theorem keeps_timeOut (m : Mesh) (i k u : Nat) : Keeps m (m.timeOut i k).1 u := by
  simp only [timeOut]
  split
  · exact (keeps_of_agenda (agenda_updateStore _ _ _) u).trans (keeps_wakeCaller _ _ _ u)
  · exact keeps_of_agenda (agenda_updateStore _ _ _) u

theorem keeps_expire (m : Mesh) (i k u : Nat) : Keeps m (m.expire i k).1 u := by
  simp only [expire]
  split
  · exact (keeps_of_agenda (agenda_updateStore _ _ _) u).trans (keeps_wakeCaller _ _ _ u)
  · exact keeps_of_agenda (agenda_updateStore _ _ _) u

theorem keeps_correlate (m : Mesh) (i : Nat) (result : CommandResult) (u : Nat) :
    Keeps m (m.correlate i result).1 u := by
  simp only [correlate]
  split
  · exact (keeps_of_agenda (agenda_updateStore m i _) u).trans (keeps_wakeCaller _ _ _ u)
  · refine keeps_of_agenda ?_ u
    exact agenda_updateStore m i _

theorem touches_of_alters {gone : Prop} (helsewhere : ∀ {i}, i ≠ r.station → m'.store i = m.store i)
    (halters : (m.store r.station).Alters r.ticket p' gone (m'.store r.station))
    (htask : ∀ {t : Nat}, t ≠ r.caller → t ≠ r.reaper → m'.tasks[t]? = m.tasks[t]?)
    (hkeeps : ∀ {t}, t ≠ r.caller → t ≠ r.reaper → Keeps m m' t) : Touches m m' r where
  elsewhere := helsewhere
  command := by
    intro l hl
    rw [halters.command, if_neg hl]
  entry := by
    intro id l hl
    rw [halters.entry]
    exact ⟨And.left, fun hget => ⟨hget, fun _ => hl⟩⟩
  task := htask
  keeps := hkeeps

theorem touches_of_stores (hstore : ∀ i, m'.store i = m.store i)
    (htask : ∀ {t : Nat}, t ≠ r.caller → t ≠ r.reaper → m'.tasks[t]? = m.tasks[t]?)
    (hkeeps : ∀ {t}, t ≠ r.caller → t ≠ r.reaper → Keeps m m' t) : Touches m m' r where
  elsewhere := fun _ => hstore _
  command := fun _ => by rw [hstore]
  entry := fun _ => by rw [hstore]
  task := htask
  keeps := hkeeps

theorem placed_of_pending (hp : m.pending r = some p) : r.station < m.stations.length := by
  by_contra hout
  have hdefault : m.station r.station = default := by
    simp [station, List.getD_eq_getElem?_getD, hout]
  simp only [pending, store, hdefault] at hp
  cases hp

theorem touches_abort (m : Mesh) (h : t = r.caller ∨ t = r.reaper) : Touches m (m.abort t) r := by
  refine touches_of_stores (fun i => store_abort m t i) ?_ (fun _ _ => keeps_abort m t _)
  intro u hcaller hreaper
  refine tasks_abort_of_ne m t u ?_
  rcases h with rfl | rfl <;> assumption

theorem touches_taken (m : Mesh) (h : t = r.caller ∨ t = r.reaper) : Touches m (m.taken t) r := by
  refine touches_of_stores (fun _ => rfl) (fun _ _ => rfl) ?_
  intro u hcaller hreaper
  refine keeps_taken ?_
  rcases h with rfl | rfl <;> assumption

theorem touches_setActivity (m : Mesh) (h : t = r.caller ∨ t = r.reaper) (a : Activity) :
    Touches m (m.setActivity t a) r := by
  refine touches_of_stores (fun _ => rfl) ?_
    (fun _ _ => keeps_of_agenda (agenda_setActivity m t a) _)
  intro u hcaller hreaper
  rw [tasks_setActivity, if_neg]
  rcases h with rfl | rfl <;> assumption

theorem touches_setAlarm (m : Mesh) (r : Registration) (due t : Nat) :
    Touches m (m.setAlarm due t) r :=
  touches_of_stores (fun _ => rfl) (fun _ _ => rfl) (fun _ _ => keeps_setAlarm m due t _)

/-! ### Who is woken -/

theorem Ledger.findIdx?_caller (h : Ledger m L) (hr : r ∈ L) {due : Nat} {aborted : Bool}
    (htask : m.tasks[r.caller]? =
      some ⟨r.station, .executing r.command (.waiting r.ticket due r.reaper), aborted⟩) :
    m.tasks.findIdx? (isCallerOf r.station r.ticket) = some r.caller := by
  have hself : isCallerOf r.station r.ticket
      ⟨r.station, .executing r.command (.waiting r.ticket due r.reaper), aborted⟩ = true := by
    simp [isCallerOf]
  cases hfind : m.tasks.findIdx? (isCallerOf r.station r.ticket) with
  | none =>
    have hnone := List.findIdx?_eq_none_iff.mp hfind _ (List.mem_of_getElem? htask)
    rw [hself] at hnone
    cases hnone
  | some u =>
    obtain ⟨hu, hcaller, -⟩ := List.findIdx?_eq_some_iff_getElem.mp hfind
    have hat : m.tasks[u]? = some m.tasks[u] := List.getElem?_eq_getElem hu
    generalize m.tasks[u] = task at hcaller hat
    obtain ⟨i, activity, aborted'⟩ := task
    cases activity with
    | executing c stage =>
      cases stage with
      | waiting k due' reaper' =>
        simp only [isCallerOf, Bool.and_eq_true, beq_iff_eq] at hcaller
        obtain ⟨rfl, rfl⟩ := hcaller
        obtain ⟨r', hr', p', task, rfl, htracks⟩ := h.caller_of hat trivial
        obtain ⟨hstation, -, hticket, -⟩ := htracks.caller_stands.of_waiting
        rw [h.distinct.ticket hr hr' hstation hticket]
      | _ => cases hcaller
    | _ => cases hcaller

/-! ### Commands that move on -/

theorem pending_of_alters {gone : Prop}
    (h : (m.store r.station).Alters r.ticket p' gone (m'.store r.station)) :
    m'.pending r = some p' := by
  rw [pending, h.command, if_pos rfl]

theorem stores_of_alters {gone : Prop}
    (h : (m.store r.station).Alters r.ticket p' gone (m'.store r.station)) :
    m'.Stores r ↔ m.Stores r ∧ ¬gone := by
  simp [Stores, h.entry, imp_false]

theorem onItsWay_closed (ho : p.completed = false) (h : p.OnItsWay) : p.closed.OnItsWay := by
  have hdelivery : p.delivery = .awaited := by simpa [Pending.OnItsWay, ho] using h
  simp [Pending.OnItsWay, Pending.closed, hdelivery]

theorem onItsWay_collecting (ho : p.completed = false) (result : CommandResult)
    (h : p.OnItsWay) : (p.collecting result).OnItsWay := by
  simpa [Pending.OnItsWay, Pending.collecting, ho] using h

theorem Ledger.acts_moves (h : Ledger m L) (ht : Tracks m r p caller reaper) (hr : r ∈ L)
    (ho : p.completed = false) (htouches : Touches m m' r) {gone : Prop}
    (halters : (m.store r.station).Alters r.ticket p' gone (m'.store r.station))
    (hgone : gone ↔ p'.completed = true) (hcommand : p'.command = p.command)
    (hway : p.OnItsWay → p'.OnItsWay)
    (hcaller : m'.tasks[r.caller]? = m.tasks[r.caller]?) (hkeeps : Keeps m m' r.caller)
    (hwoken : p'.completed = true →
      m.tasks.findIdx? (isCallerOf r.station r.ticket) = some r.caller → m'.IsReady r.caller)
    (hreaper : ∃ reaper', m'.tasks[r.reaper]? = some reaper' ∧ ReaperStands m' r reaper' ∧
      (p'.completed = false → reaper' = reaper))
    (hevolves : Evolves m e r p p') : Acts m e r m' := by
  obtain ⟨reaper', hreaper_at, hreaper_stands, hsame⟩ := hreaper
  have hid : p'.id = p.id := by simp only [Pending.id, hcommand]
  have hstores := stores_of_alters halters
  refine ⟨htouches, (h.sound r.station).alters halters ht.pending hid ?_,
    p, p', caller, caller, reaper, reaper', ht, ?_, hevolves, .stays rfl (Or.inl rfl)⟩
  · exact fun hc => Or.inl (hgone.mpr hc)
  refine ⟨pending_of_alters halters, hcommand.trans ht.command, hcaller.trans ht.caller_at,
    hreaper_at, ?_, hreaper_stands, ?_⟩
  · refine ht.caller_stands.moves (fun _ => hkeeps) (fun hs => (hstores.mp hs).1) hway ?_ ?_
    · intro due aborted heq hc
      subst heq
      exact hwoken hc (h.findIdx?_caller hr ht.caller_at)
    · intro hc
      rw [ho] at hc
      cases hc
  · intro hopen hf
    obtain ⟨hstored, due, hold⟩ := ht.guarded ho hf
    have hstay : ¬gone := by
      rw [hgone, hopen]
      exact Bool.false_ne_true
    exact ⟨hstores.mpr ⟨hstored, hstay⟩, due, (hsame hopen).trans hold⟩

/-! ### Calls that end -/

/-- The mesh with a call that has ended, whose reaper was asked to end. -/
structure Ends (m m' : Mesh) (r : Registration) (f : PendingStore → PendingStore)
    (outcome : Except MeshError Outcome) : Prop where
  store : ∀ i, m'.store i = if i = r.station then f (m.store r.station) else m.store i
  caller : ∀ {task}, m.tasks[r.caller]? = some task →
    m'.tasks[r.caller]? = some { task with activity := .ended (.returned m.now outcome) }
  reaper : ∀ {task}, m.tasks[r.reaper]? = some task →
    ∃ aborted, m'.tasks[r.reaper]? = some { task with aborted }
  task : ∀ {u : Nat}, u ≠ r.caller → u ≠ r.reaper → m'.tasks[u]? = m.tasks[u]?
  keeps : ∀ {u}, u ≠ r.caller → Keeps m m' u

theorem ends_endCall (hplaced : r.station < m.stations.length) (hapart : r.caller ≠ r.reaper)
    (f : PendingStore → PendingStore) (outcome : Except MeshError Outcome) :
    Ends m (((m.updateStore r.station f).abort r.reaper).endCall r.caller outcome) r f outcome := by
  have hkeeps : ∀ u, Keeps m ((m.updateStore r.station f).abort r.reaper) u := fun u =>
    (keeps_of_agenda (agenda_updateStore m r.station f) u).trans (keeps_abort _ r.reaper u)
  refine ⟨?_, ?_, ?_, ?_, fun hu => (hkeeps _).trans (keeps_finish hu _)⟩
  · intro i
    rw [endCall, store_finish, store_abort, store_updateStore hplaced]
  · intro task htask
    rw [endCall, tasks_finish, tasks_setActivity, if_pos rfl, tasks_abort_of_ne _ _ _ hapart,
      tasks_updateStore, htask, (hkeeps 0).now]
    rfl
  · intro task htask
    obtain ⟨aborted, hafter⟩ := tasks_abort_self (m := m.updateStore r.station f) htask
    refine ⟨aborted, ?_⟩
    rw [endCall, tasks_finish, tasks_setActivity, if_neg hapart.symm]
    exact hafter
  · intro u hc hu
    rw [endCall, tasks_finish, tasks_setActivity, if_neg hc, tasks_abort_of_ne _ _ _ hu,
      tasks_updateStore]

theorem Ledger.acts_leave (h : Ledger m L) (ht : Tracks m r p caller reaper) (hr : r ∈ L)
    {f : PendingStore → PendingStore} {outcome : Except MeshError Outcome} {before : Task}
    (hlive : caller.activity.IsEngaged)
    (hplaced : r.station < m₁.stations.length) (htouches : Touches m m₁ r)
    (hkeeps : Keeps m m₁ r.reaper)
    (hcaller : m₁.tasks[r.caller]? = some before) (hstation : before.station = r.station)
    (hreaper : m₁.tasks[r.reaper]? = m.tasks[r.reaper]?)
    (halters : (m.store r.station).Alters r.ticket p' True (f (m₁.store r.station)))
    (hcommand : p'.command = p.command)
    (hout : (∃ error, outcome = .error error) ∨
      (p'.completed = true ∧ outcome = .ok ⟨r.command.id, r.command.expected, p'.results⟩))
    (hevolves : Evolves m .other r p p') :
    Acts m .other r (((m₁.updateStore r.station f).abort r.reaper).endCall r.caller outcome) := by
  have hapart : r.caller ≠ r.reaper := h.distinct.apart hr hr
  have hends := ends_endCall hplaced hapart f outcome
  generalize ((m₁.updateStore r.station f).abort r.reaper).endCall r.caller outcome = m' at *
  have halters' : (m.store r.station).Alters r.ticket p' True (m'.store r.station) := by
    rw [hends.store, if_pos rfl]
    exact halters
  have hid : p'.id = p.id := by simp only [Pending.id, hcommand]
  obtain ⟨aborted, hreaper_at⟩ := hends.reaper (hreaper.trans ht.reaper_at)
  have hcaller_at : m'.tasks[r.caller]? =
      some ⟨r.station, .ended (.returned m.now outcome), before.aborted⟩ := by
    rw [hends.caller hcaller, hstation, hkeeps.now]
  have hcaller_stands : CallerStands m' r p'
      ⟨r.station, .ended (.returned m.now outcome), before.aborted⟩ := by
    rcases hout with ⟨error, rfl⟩ | ⟨hcompleted, rfl⟩
    · exact .failed fun hs => ((stores_of_alters halters').mp hs).2 trivial
    · exact .returned hcompleted
  have hreaper_stands : ReaperStands m' r { reaper with aborted } :=
    (ht.reaper_stands.keeps fun _ => hkeeps.trans (hends.keeps hapart.symm)).aborted aborted
  have htracks : Tracks m' r p' ⟨r.station, .ended (.returned m.now outcome), before.aborted⟩
      { reaper with aborted } := by
    refine ⟨pending_of_alters halters', hcommand.trans ht.command, hcaller_at, hreaper_at,
      hcaller_stands, hreaper_stands, ?_⟩
    intro hopen hf
    rcases hout with ⟨error, rfl⟩ | ⟨hcompleted, -⟩
    · exact absurd ⟨_, error, rfl⟩ hf
    · rw [hcompleted] at hopen
      cases hopen
  refine ⟨touches_of_alters ?_ halters' ?_ ?_, (h.sound r.station).alters halters' ht.pending hid
    (fun _ => Or.inl trivial), p, p', caller, _, reaper, _, ht, htracks, hevolves,
    .returns hlive rfl⟩
  · intro i hi
    rw [hends.store, if_neg hi, htouches.elsewhere hi]
  · intro u hc hu
    rw [hends.task hc hu, htouches.task hc hu]
  · intro u hc hu
    exact (htouches.keeps hc hu).trans (hends.keeps hc)

end ClusterMesh.Mesh
