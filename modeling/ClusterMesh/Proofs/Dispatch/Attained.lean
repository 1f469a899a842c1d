import ClusterMesh.Proofs.Dispatch.Gates
import ClusterMesh.Proofs.Dispatch.Rounds
import ClusterMesh.Proofs.Dispatch.Tending
import ClusterMesh.Proofs.Mesh.Reached

/-!
# Meshes that are attained

A mesh that is set up, whose tasks take their turns and whose clock goes on is in a state of a run
of steps. No worker is lost on the way, and where no message is given to a dispatcher directly,
messages travel over the bus.
-/

namespace ClusterMesh

/-- No worker is lost, and a message that does not come from the bus is given to a dispatcher only
if that is allowed. -/
structure IsOrdinary (direct : Prop) (e : Option (Nat × Notice)) : Prop where
  keeps : ∀ i, e ≠ some (i, .failed)
  allowed : ∀ i x, e = some (i, .called x) → x.origin = none → direct

theorem IsTravel.isOrdinary {e : Option (Nat × Notice)} (h : IsTravel e) (direct : Prop) :
    IsOrdinary direct e :=
  ⟨h.keeps, fun i x he hnone => absurd hnone (h.travels i x he)⟩

namespace Service

/-- A run up to a state, one more step, and then nothing. -/
def followedBy (h : Service) (k : Nat) {e : Option (Nat × Notice)} {m : Mesh}
    (hd : (h.state k).Duty e m) : Service where
  state n := if n ≤ k then h.state n else m
  event n := if n < k then h.event n else if n = k then e else none
  start := h.start
  step := steps_followedBy h.step hd (.apart (.refl m))

end Service

namespace Mesh

variable {m m' : Mesh} {t i : Nat} {direct : Prop}

/-- What becomes of a mesh when stations are added and changed, receive messages and stop to, send
messages, are shut down, and execute commands, which may be cancelled, and the machine runs.
Messages may be given to dispatchers directly where that is allowed. -/
inductive Attained (direct : Prop) : Mesh → Prop
  | start (capacity : Nat) : Attained direct (ofCapacity capacity)
  | addStation {m : Mesh} {s : Station} (attained : Attained direct m) (fresh : s.IsFresh)
      (empty : s.store = PendingStore.empty) : Attained direct (m.addStation s).1
  | change {m : Mesh} {i : Nat} {f : Station → Station} (attained : Attained direct m)
      (desk : (f (m.station i)).desk = (m.station i).desk)
      (kept : (f (m.station i)).store = m.store i) : Attained direct (m.updateStation i f)
  | startConsumer {m : Mesh} {i : Nat} (attained : Attained direct m) (busIsGone : Bool)
      (placed : i < m.stations.length) : Attained direct (m.startConsumer i busIsGone)
  | stopConsumer {m : Mesh} (attained : Attained direct m) (i : Nat) :
      Attained direct (m.stopConsumer i)
  | produce {m : Mesh} {i : Nat} (attained : Attained direct m) (message : Message)
      (placed : i < m.stations.length) : Attained direct (m.produce i message).1
  | dispatch {m : Mesh} {i : Nat} (attained : Attained direct m) (message : Message)
      (placed : i < m.stations.length) (allowed : direct) : Attained direct (m.dispatch i message)
  | shutdown {m : Mesh} {i : Nat} (attained : Attained direct m)
      (placed : i < m.stations.length) : Attained direct (m.shutdown i)
  | execute {m : Mesh} {i : Nat} (attained : Attained direct m) (c : Command)
      (placed : i < m.stations.length) : Attained direct (m.execute i c).1
  | cancel {m : Mesh} {t i : Nat} {c : Command} {stage : CallStage} {aborted : Bool}
      (attained : Attained direct m)
      (task : m.tasks[t]? = some ⟨i, .executing c stage, aborted⟩) : Attained direct (m.abort t)
  | turn {m : Mesh} {t : Nat} (attained : Attained direct m) (ready : m.IsReady t) :
      Attained direct ((m.taken t).run t)
  | pass {m : Mesh} {instant : Nat} (attained : Attained direct m) (idle : ∀ t, ¬m.IsReady t)
      (later : m.now ≤ instant)
      (first : ∀ due t, m.HasAlarm due t → instant ≤ max m.now due) :
      Attained direct (machine.ring m instant)

/-! ### Trails and runs -/

theorem Trail.service {capacity : Nat} {es : List (Option (Nat × Notice))}
    (h : (ofCapacity capacity).Trail es m) : ∃ H : Service, H.state es.length = m ∧
      ∀ n, H.event n = none ∨ H.event n ∈ es := by
  induction h with
  | stay =>
    let H : Service := {
      state := fun _ => ofCapacity capacity
      event := fun _ => none
      start := ⟨capacity, rfl⟩
      step := fun _ => .apart (.refl _) }
    exact ⟨H, rfl, fun _ => Or.inl rfl⟩
  | @step es e m' m'' _ hduty ih =>
    obtain ⟨H, hstate, hevent⟩ := ih
    subst hstate
    refine ⟨H.followedBy es.length hduty, ?_, fun n => ?_⟩
    · rw [List.length_append]
      exact if_neg (Nat.not_succ_le_self es.length)
    · show (if n < es.length then H.event n else if n = es.length then e else none) = none ∨
        (if n < es.length then H.event n else if n = es.length then e else none) ∈ es ++ [e]
      split
      · rcases hevent n with hnone | hmem
        · exact Or.inl hnone
        · exact Or.inr (List.mem_append_left _ hmem)
      · split
        · exact Or.inr (List.mem_append_right _ (List.mem_singleton_self e))
        · exact Or.inl rfl

/-- A mesh that is on its way: by a trail of ordinary steps, on which its calls are registered. -/
structure OnItsWay (direct : Prop) (m : Mesh) : Prop where
  trail : ∃ capacity es, (ofCapacity capacity).Trail es m ∧ ∀ e ∈ es, IsOrdinary direct e
  leads : ∃ capacity, (ofCapacity capacity).Leads m

theorem OnItsWay.service (h : OnItsWay direct m) :
    ∃ (H : Service) (n : Nat), H.state n = m ∧ ∀ k, IsOrdinary direct (H.event k) := by
  obtain ⟨capacity, es, htrail, hordinary⟩ := h.trail
  obtain ⟨H, hstate, hevent⟩ := htrail.service
  refine ⟨H, es.length, hstate, fun k => ?_⟩
  rcases hevent k with hnone | hmem
  · rw [hnone]
    exact isTravel_none.isOrdinary direct
  · exact hordinary _ hmem

theorem OnItsWay.step (h : OnItsWay direct m) {e : Option (Nat × Notice)} (hd : m.Duty e m')
    (he : IsOrdinary direct e) (hleads : m.Leads m') : OnItsWay direct m' where
  trail := by
    obtain ⟨capacity, es, htrail, hordinary⟩ := h.trail
    refine ⟨capacity, es ++ [e], htrail.step hd, fun e' he' => ?_⟩
    rcases List.mem_append.mp he' with hold | hnew
    · exact hordinary e' hold
    · rw [List.mem_singleton.mp hnew]
      exact he
  leads := by
    obtain ⟨capacity, hway⟩ := h.leads
    exact ⟨capacity, hway.trans hleads⟩

theorem OnItsWay.runs (h : OnItsWay direct m) (hr : m.Runs m') (hleads : m.Leads m') :
    OnItsWay direct m' where
  trail := by
    obtain ⟨capacity, es, htrail, hordinary⟩ := h.trail
    obtain ⟨es', htrail', htravel⟩ := hr
    refine ⟨capacity, es ++ es', htrail.trans htrail', fun e he => ?_⟩
    rcases List.mem_append.mp he with hold | hnew
    · exact hordinary e hold
    · exact (htravel e hnew).isOrdinary direct
  leads := by
    obtain ⟨capacity, hway⟩ := h.leads
    exact ⟨capacity, hway.trans hleads⟩

theorem serves_close (m : Mesh) (i : Nat) : m.Serves (m.close i) :=
  serves_updateDispatcher m i Dispatcher.close

theorem serves_sever (m : Mesh) (i : Nat) : m.Serves (m.sever i) :=
  (serves_updateDispatcher m i Dispatcher.sever).trans (serves_wakeWorker _ i)

/-- A shutdown goes on after it has closed the dispatcher. -/
theorem duty_sever_close (hi : i < m.stations.length) :
    (m.close i).Duty (some (i, .severed)) (m.shutdown i) := by
  refine .sever ?_ ?_
  · exact Nat.lt_of_lt_of_eq hi (length_updateDispatcher m i Dispatcher.close).symm
  · rw [Mesh.close, station_updateDispatcher_self hi]
    rfl

/-- What a call aborts in the end is its reaper. -/
theorem isUnbound_reaper {L : List Registration} (h : Ledger m L) {c : Command}
    {stage : CallStage} {aborted : Bool} {reaper : Nat}
    (htask : m.tasks[t]? = some ⟨i, .executing c stage, aborted⟩)
    (hreaper : stage.reaper? = some reaper) : m.IsUnbound reaper := by
  have hown : ∃ r p caller task, Tracks m r p caller task ∧ reaper = r.reaper := by
    cases stage with
    | submitted => cases hreaper
    | sending ticket timeout reaper' =>
      obtain rfl := Option.some.inj hreaper
      obtain ⟨r, -, p, task, -, htracks⟩ := h.caller_of htask trivial
      exact ⟨r, p, _, task, htracks, htracks.caller_stands.of_sending.2.2.2.2.1⟩
    | waiting ticket due reaper' =>
      obtain rfl := Option.some.inj hreaper
      obtain ⟨r, -, p, task, -, htracks⟩ := h.caller_of htask trivial
      exact ⟨r, p, _, task, htracks, htracks.caller_stands.of_waiting.2.2.2.1⟩
  obtain ⟨r, p, caller, task, htracks, rfl⟩ := hown
  intro task' htask' hbound
  rw [← Option.some.inj (htracks.reaper_at.symm.trans htask')] at hbound
  cases hstands : htracks.reaper_stands <;> exact hbound.elim id id

theorem OnItsWay.orderly (h : OnItsWay direct m) : m.Orderly where
  placed := by
    obtain ⟨capacity, hleads⟩ := h.leads
    exact hleads.placed fun _ => List.not_mem_nil.elim
  spared := by
    intro t i a aborted htask hduty
    obtain ⟨H, n, rfl, hordinary⟩ := h.service
    exact ((H.tended i n fun q _ => (hordinary q).keeps i).attentive htask hduty).1
  reapers := by
    intro t i c stage aborted reaper htask hreaper
    obtain ⟨capacity, hleads⟩ := h.leads
    obtain ⟨es, hpath⟩ := hleads.path
    obtain ⟨H, rfl⟩ := hpath.history
    exact isUnbound_reaper (H.ledger es.length) htask hreaper

theorem leads_stopConsumer (hlooped : m.Looped) (i : Nat) : m.Leads (m.stopConsumer i) := by
  unfold stopConsumer
  split
  · next t hloop =>
    obtain ⟨task, htask, hknown⟩ := hlooped.known hloop
    have hupdate : m.Serves (m.updateStation i
        fun s => { s with consumer := { s.consumer with loop := none } }) :=
      serves_updateStation rfl
    refine (hupdate.works t).toLeads.trans (leads_abort ?_)
    intro task' ticket delay due htask' hreaping
    rw [← Option.some.inj ((hupdate.task htask).symm.trans htask')] at hreaping
    rw [hreaping] at hknown
    exact hknown.elim id id
  · exact .refl m

theorem Attained.onItsWay (h : Attained direct m) : OnItsWay direct m := by
  induction h with
  | start capacity =>
    exact ⟨⟨capacity, [], .stay, fun _ => List.not_mem_nil.elim⟩, ⟨capacity, .refl _⟩⟩
  | addStation _ fresh empty ih =>
    exact ih.step (.found fresh) (isTravel_none.isOrdinary _) (leads_addStation empty)
  | change _ desk kept ih =>
    exact ih.runs (apart_updateStation desk).runs ((serves_updateStation kept).works 0).toLeads
  | startConsumer _ busIsGone placed ih =>
    exact ih.step (.start busIsGone placed) (isTravel_none.isOrdinary _)
      (leads_startConsumer placed busIsGone)
  | stopConsumer _ i ih =>
    obtain ⟨H, n, hstate, -⟩ := ih.service
    have hlooped := H.looped n
    rw [hstate] at hlooped
    exact ih.step (.stop i) (isTravel_none.isOrdinary _) (leads_stopConsumer hlooped i)
  | @produce m i _ message placed ih =>
    exact ih.step (.send message placed) ((isTravel_sent _ _ _).isOrdinary _)
      ((serves_produce m i message).works 0).toLeads
  | @dispatch m i _ message placed allowed ih =>
    exact ih.step (.call message placed) ⟨by simp, fun _ _ _ _ => allowed⟩
      ((serves_dispatch placed message).works 0).toLeads
  | @shutdown m i _ placed ih =>
    have hafter := ih.step (.close placed) ⟨by simp, by simp⟩ ((serves_close m i).works 0).toLeads
    exact hafter.step (duty_sever_close placed) ⟨by simp, by simp⟩
      ((serves_sever (m.close i) i).works 0).toLeads
  | @execute m i _ c placed ih =>
    have hcall : ¬(Activity.executing c .submitted).IsBound := fun h => h.elim id id
    exact ih.runs (apart_spawn m i hcall).runs (leads_execute placed c)
  | @cancel m t i c stage aborted _ task ih =>
    have hcall : ∀ {task'}, m.tasks[t]? = some task' →
        task' = ⟨i, .executing c stage, aborted⟩ := fun h => Option.some.inj (h.symm.trans task)
    have ht : m.IsUnbound t := by
      intro task' htask'
      rw [hcall htask']
      exact fun h => h.elim id id
    refine ih.runs (apart_abort ht).runs (leads_abort ?_)
    intro task' ticket delay due htask' hreaping
    rw [hcall htask'] at hreaping
    cases hreaping
  | @turn m t _ ready ih =>
    have horderly := ih.orderly
    exact ih.runs (runs_turn horderly t) (leads_run horderly.placed ready)
  | @pass m instant _ idle later first ih =>
    exact ih.step (.pass instant later) (isTravel_none.isOrdinary _)
      ((Step.pass instant idle later first).leads rfl)

/-- A mesh that is attained is a state of a run in which no worker is lost. -/
theorem Attained.service (h : Attained direct m) :
    ∃ (H : Service) (n : Nat), H.state n = m ∧ ∀ k i, H.event k ≠ some (i, .failed) := by
  obtain ⟨H, n, hstate, hordinary⟩ := h.onItsWay.service
  exact ⟨H, n, hstate, fun k => (hordinary k).keeps⟩

/-- In a mesh that is attained a docket accounts for every dispatcher, and all that is not over in
it is looked after. -/
theorem Attained.kept (h : Attained direct m) (i : Nat) :
    ∃ d : Docket, m.Kept i d ∧ m.Tended i d := by
  obtain ⟨H, n, rfl, hthere⟩ := h.service
  exact ⟨H.docket i n, H.kept i n, H.tended i n fun q _ => hthere q i⟩

theorem Attained.passage (h : Attained False m) : ∃ (H : Passage) (n : Nat), H.state n = m := by
  obtain ⟨H, n, hstate, hordinary⟩ := h.onItsWay.service
  exact ⟨⟨H, fun he hnone => (hordinary _).allowed _ _ he hnone⟩, n, hstate⟩

theorem Attained.startNode (h : Attained direct m) (c : MeshConfig) :
    Attained direct (m.startNode c) := by
  let s := (Station.start c.node.toNode c.properties true c.dispatch c.commands).installControl
  have hfresh : s.IsFresh := ⟨⟨_, _, _, rfl⟩, rfl, rfl⟩
  have hplace : (m.addStation s).2 = m.stations.length := by
    simp only [Mesh.addStation]
    split <;> rfl
  refine (h.addStation hfresh rfl).startConsumer false ?_
  rw [stations_addStation, hplace]
  exact Nat.lt_succ_self _

theorem Attained.stopNode (h : Attained direct m) (placed : i < m.stations.length) :
    Attained direct (m.stopNode i) := by
  have hlength : (m.stopConsumer i).stations.length = m.stations.length := by
    unfold Mesh.stopConsumer
    split
    · rw [stations_abort, length_updateStation]
    · rfl
  refine (h.stopConsumer i).shutdown ?_
  rwa [hlength]

theorem Attained.settle (h : Attained direct m) : Attained direct m.settle := by
  refine Machine.settle_preserves (fun m t rest hfirst h => ?_) h
  obtain ⟨hready, rfl⟩ := ready_of_takeFirst? hfirst
  exact h.turn hready

end Mesh

end ClusterMesh
