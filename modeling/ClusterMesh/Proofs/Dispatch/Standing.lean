import ClusterMesh.Proofs.Dispatch.Custody

/-!
# What stays of a dispatcher

A dispatcher keeps its pool. It stays closed, and severed from its queue, once a shutdown has come to
it, and its worker is gone once it failed.
-/

namespace ClusterMesh.Mesh

variable {m m' : Mesh} {t u i j : Nat} {a a' : Activity} {e : Option (Nat × Notice)}

/-- How a dispatcher stands after a step, compared with how it stood before. -/
structure Standing (m m' : Mesh) (i : Nat) (e : Option (Nat × Notice)) : Prop where
  placed : i < m'.stations.length
  pool : (m'.station i).dispatcher.pool = (m.station i).dispatcher.pool
  closed : (m'.station i).dispatcher.closed = true ↔
    (m.station i).dispatcher.closed = true ∨ e = some (i, .closed)
  severed : (m'.station i).dispatcher.severed = true ↔
    (m.station i).dispatcher.severed = true ∨ e = some (i, .severed)
  gone : (m'.station i).dispatcher.workerGone = true ↔
    (m.station i).dispatcher.workerGone = true ∨ e = some (i, .failed)
  worker : (m'.station i).worker = (m.station i).worker

/-- What happens neither closes the dispatcher nor costs it its queue or its worker. -/
structure IsMild (i : Nat) (e : Option (Nat × Notice)) : Prop where
  closed : e ≠ some (i, .closed)
  severed : e ≠ some (i, .severed)
  failed : e ≠ some (i, .failed)

theorem standing_of_mild (hi : i < m'.stations.length) (he : IsMild i e)
    (hdispatcher : ∃ entering queue stats, (m'.station i).dispatcher =
      { (m.station i).dispatcher with entering := entering, queue := queue, stats := stats })
    (hworker : (m'.station i).worker = (m.station i).worker) : m.Standing m' i e := by
  obtain ⟨entering, queue, stats, heq⟩ := hdispatcher
  refine ⟨hi, by rw [heq], ?_, ?_, ?_, hworker⟩
  · rw [heq]
    exact ⟨Or.inl, fun h => h.resolve_right he.closed⟩
  · rw [heq]
    exact ⟨Or.inl, fun h => h.resolve_right he.severed⟩
  · rw [heq]
    exact ⟨Or.inl, fun h => h.resolve_right he.failed⟩

theorem Beside.standing (h : m.Beside m' i) (hi : i < m.stations.length) (he : IsMild i e) :
    m.Standing m' i e :=
  standing_of_mild (Nat.lt_of_lt_of_le hi h.stations) he ⟨_, _, _, h.dispatcher⟩ h.worker

theorem Beside.trans_standing {before : Mesh} (h : m.Beside before i)
    (hs : before.Standing m' i e) : m.Standing m' i e := by
  obtain ⟨hplaced, hpool, hclosed, hsevered, hgone, hworker⟩ := hs
  rw [h.dispatcher] at hpool hclosed hsevered hgone
  rw [h.worker] at hworker
  exact ⟨hplaced, hpool, hclosed, hsevered, hgone, hworker⟩

theorem isMild_of_silent (h : ∀ notice, e = some (i, notice) → notice.IsSilent) : IsMild i e :=
  ⟨fun heq => h _ heq, fun heq => h _ heq, fun heq => h _ heq⟩

theorem Work.isMild {notice : Option Notice} (hw : m.Work t j a notice a' m') (i : Nat) :
    IsMild i (notice.map fun notice => (j, notice)) := by
  cases hw <;> exact ⟨nofun, nofun, nofun⟩

theorem standing_deliver (hi : i < m.stations.length) {message : Message}
    {after : Dispatcher × Admission}
    (hd : (m.station i).dispatcher.Disposes message after) (x : Intake) :
    m.Standing (m.deliver i message after) i (some (i, .called x)) := by
  have hstation := (m.station_deliver i message after i).trans (if_pos ⟨rfl, hi⟩)
  obtain ⟨entering, queue, stats, heq⟩ := hd.frame
  refine standing_of_mild ?_ ⟨nofun, nofun, nofun⟩ ⟨entering, queue, stats, ?_⟩ ?_
  · rwa [length_deliver]
  · rw [hstation, heq]
  · rw [hstation]

theorem standing_beginDispatch (hi : i < m.stations.length) (c : DispatchCall) :
    m.Standing (m.beginDispatch i c) i (some (i, .entered c)) := by
  have hstation : (m.beginDispatch i c).station i = { m.station i with
      dispatcher := (m.station i).dispatcher.enter c } := station_updateDispatcher_self hi _
  refine standing_of_mild ?_ ⟨nofun, nofun, nofun⟩ ?_ ?_
  · rwa [beginDispatch, length_updateDispatcher]
  · rw [hstation]
    exact ⟨_, _, _, rfl⟩
  · rw [hstation]

theorem standing_close (hi : i < m.stations.length) :
    m.Standing (m.close i) i (some (i, .closed)) := by
  have hstation : (m.close i).station i = { m.station i with
      dispatcher := (m.station i).dispatcher.close } := station_updateDispatcher_self hi _
  refine ⟨?_, by rw [hstation]; rfl, ?_, ?_, ?_, by rw [hstation]⟩
  · rwa [close, length_updateDispatcher]
  · rw [hstation]
    exact ⟨fun _ => Or.inr rfl, fun _ => rfl⟩
  · rw [hstation]
    exact ⟨Or.inl, fun h => h.resolve_right (by simp)⟩
  · rw [hstation]
    exact ⟨Or.inl, fun h => h.resolve_right (by simp)⟩

theorem standing_sever (hi : i < m.stations.length) :
    m.Standing (m.sever i) i (some (i, .severed)) := by
  have hstation : (m.sever i).station i = { m.station i with
      dispatcher := (m.station i).dispatcher.sever } := by
    rw [sever, station_wakeWorker, station_updateDispatcher_self hi]
  refine ⟨?_, by rw [hstation]; rfl, ?_, ?_, ?_, by rw [hstation]⟩
  · rwa [sever, stations_wakeWorker, length_updateDispatcher]
  · rw [hstation]
    exact ⟨Or.inl, fun h => h.resolve_right (by simp)⟩
  · rw [hstation]
    exact ⟨fun _ => Or.inr rfl, fun _ => rfl⟩
  · rw [hstation]
    exact ⟨Or.inl, fun h => h.resolve_right (by simp)⟩

theorem standing_loseWorker (hi : i < m.stations.length) (t : Nat) :
    m.Standing (m.loseWorker i t) i (some (i, .failed)) := by
  have hstation : (m.loseWorker i t).station i =
      { m.station i with dispatcher := { (m.station i).dispatcher with workerGone := true } } := by
    rw [loseWorker, station_finish, station_updateDispatcher_self hi]
  have hlength : (m.loseWorker i t).stations.length = m.stations.length :=
    length_updateDispatcher m i fun d => { d with workerGone := true }
  refine ⟨by rwa [hlength], by rw [hstation], ?_, ?_, ?_, by rw [hstation]⟩
  · rw [hstation]
    exact ⟨Or.inl, fun h => h.resolve_right (by simp)⟩
  · rw [hstation]
    exact ⟨Or.inl, fun h => h.resolve_right (by simp)⟩
  · rw [hstation]
    exact ⟨fun _ => Or.inr rfl, fun _ => rfl⟩

theorem beside_addStation (h : i < m.stations.length) (s : Station) :
    m.Beside (m.addStation s).1 i := by
  have hstation := station_addStation m s i
  rw [if_neg (Nat.ne_of_lt h)] at hstation
  have htask : ∀ {u : Nat} {a : Activity} {aborted : Bool},
      (m.addStation s).1.tasks[u]? = some ⟨i, a, aborted⟩ ↔
        m.tasks[u]? = some ⟨i, a, aborted⟩ := by
    intro u a aborted
    rw [tasks_addStation]
    split
    · next hu =>
      rw [hu.2, List.getElem?_eq_none (Nat.le_refl _)]
      constructor
      · intro heq
        cases Option.some.inj heq
        exact absurd h (Nat.lt_irrefl _)
      · exact nofun
    · rfl
  refine ⟨?_, ?_, by rw [hstation], by rw [hstation], ?_, fun _ => htask, ?_, ?_⟩
  · simp only [addStation]
    split <;> rfl
  · rw [stations_addStation]
    exact Nat.le_succ _
  · simp only [addStation]
    split
    · exact Nat.le_refl _
    · simp [updateStation, spawn]
  · intro u a aborted _ _ hready
    simp only [addStation]
    split
    · exact hready
    · have hspawn := isReady_spawn { m with stations := m.stations ++ [s] } u m.stations.length
        (.working none)
      exact hspawn.mpr (Or.inl hready)
  · intro u due a aborted _ _ halarm
    simp only [addStation]
    split <;> exact halarm

/-- Every step leaves a dispatcher its pool, and closes it or costs it its queue or its worker only
where that is noticed. -/
theorem Duty.standing (hd : m.Duty e m') (hl : m.Looped) (hi : i < m.stations.length) :
    m.Standing m' i e := by
  cases hd.sight hl i with
  | aside beside silent => exact beside.standing hi (isMild_of_silent silent)
  | ring instant later =>
    exact standing_of_mild hi ⟨nofun, nofun, nofun⟩ ⟨_, _, _, rfl⟩ rfl
  | found fresh => exact (beside_addStation hi _).standing hi ⟨nofun, nofun, nofun⟩
  | given beside placed disposes origin =>
    exact beside.trans_standing (standing_deliver placed disposes _)
  | entered beside placed c => exact beside.trans_standing (standing_beginDispatch placed c)
  | closed placed => exact standing_close hi
  | severed placed => exact standing_sever hi
  | @failed t => exact standing_loseWorker hi t
  | @worked t a a' notice m' hw =>
    have hlabour := hw.labour
    have hstation := (hlabour.station i).trans (if_pos ⟨rfl, hi⟩)
    obtain ⟨queue, stats, heq⟩ := (m.station i).dispatcher.noting_frame notice
    refine standing_of_mild ?_ (hw.isMild i) ?_ ?_
    · rwa [hlabour.stations]
    · rw [hstation, heq]
      exact ⟨_, _, _, rfl⟩
    · rw [hstation]

/-- A worker that has not failed is not gone. -/
theorem Duty.workerGone (hd : m.Duty e m') (hl : m.Looped) (he : e ≠ some (i, .failed))
    (h : (m.station i).dispatcher.workerGone = false) :
    (m'.station i).dispatcher.workerGone = false := by
  rcases Nat.lt_or_ge i m.stations.length with hi | hi
  · have hgone := (hd.standing hl hi).gone
    simpa [h, he] using hgone
  cases hd.sight hl i with
  | aside beside silent => rwa [beside.dispatcher]
  | ring instant later => exact h
  | @found s fresh =>
    obtain ⟨interval, timeout, pool, hdispatcher⟩ := fresh.dispatcher
    rw [station_addStation]
    split
    · split <;> rw [hdispatcher] <;> rfl
    · exact h
  | @given before message after beside placed disposes origin =>
    obtain ⟨entering, queue, stats, heq⟩ := disposes.frame
    rw [station_deliver, if_pos ⟨rfl, placed⟩, heq]
    rwa [← beside.dispatcher] at h
  | @entered before beside placed c =>
    rw [beginDispatch, station_updateDispatcher_self placed]
    rwa [← beside.dispatcher] at h
  | closed placed | severed placed => exact absurd placed (Nat.not_lt.mpr hi)
  | failed task => exact absurd rfl he
  | worked hw =>
    rw [hw.labour.station, if_neg fun hij => Nat.not_lt.mpr hi hij.2]
    exact h

theorem Duty.failed (hd : m.Duty (some (i, .failed)) m') :
    (m.station i).dispatcher.pool = .single ∧
      ∃ (t : Nat) (job : Option Job) (aborted : Bool),
        m.tasks[t]? = some ⟨i, .working job, aborted⟩ := by
  generalize he : some (i, Notice.failed) = e at hd
  cases hd with
  | @fail t j job aborted single worker task =>
    cases he
    exact ⟨single, t, job, aborted, task⟩
  | receive message task placed =>
    unfold arrival at he
    split at he <;> cases he
  | @work t j a a' notice m' hw => exact absurd he.symm (hw.isMild i).failed
  | _ => cases he

theorem Duty.closed (hd : m.Duty (some (i, .closed)) m') : i < m.stations.length := by
  generalize he : some (i, Notice.closed) = e at hd
  cases hd with
  | close placed =>
    cases he
    exact placed
  | receive message task placed =>
    unfold arrival at he
    split at he <;> cases he
  | @work t j a a' notice m' hw => exact absurd he.symm (hw.isMild i).closed
  | _ => cases he

end ClusterMesh.Mesh

namespace ClusterMesh.Service

variable (h : Service) {i n k : Nat}

theorem standing (hi : i < (h.state n).stations.length) :
    (h.state n).Standing (h.state (n + 1)) i (h.event n) :=
  (h.step n).standing (h.looped n) hi

theorem placed_of_le (hi : i < (h.state n).stations.length) (hk : n ≤ k) :
    i < (h.state k).stations.length ∧ ((h.state k).station i).dispatcher.pool =
      ((h.state n).station i).dispatcher.pool := by
  induction hk with
  | refl => exact ⟨hi, rfl⟩
  | step _ ih =>
    have hstep := h.standing ih.1
    exact ⟨hstep.placed, hstep.pool.trans ih.2⟩

theorem worker_of_le (hi : i < (h.state n).stations.length) (hk : n ≤ k) :
    ((h.state k).station i).worker = ((h.state n).station i).worker := by
  induction hk with
  | refl => rfl
  | step hk ih => exact (h.standing (h.placed_of_le hi hk).1).worker.trans ih

theorem closed_of_le (hi : i < (h.state n).stations.length)
    (hclosed : ((h.state n).station i).dispatcher.closed = true) (hk : n ≤ k) :
    ((h.state k).station i).dispatcher.closed = true := by
  induction hk with
  | refl => exact hclosed
  | @step k hk ih => exact (h.standing (h.placed_of_le hi hk).1).closed.mpr (Or.inl ih)

end ClusterMesh.Service
