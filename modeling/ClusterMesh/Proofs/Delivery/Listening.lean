import ClusterMesh.Proofs.Delivery.Sparing
import ClusterMesh.Proofs.Dispatch.Frames
import ClusterMesh.Proofs.Mesh.Reached

/-!
# Loops that listen

In every mesh that is reached a loop that takes messages off the bus has a subscriber of its own,
and it can run unless it has read all there is and waits for the next message. When it runs, each
message that its station takes is in the hands of a task of the station.
-/

namespace ClusterMesh

/-- A station takes a message and lets a task of its own work on it at once. -/
structure Station.Accepts (s : Station) (message : Message) : Prop where
  takes : s.takes message = true
  cached : s.dispatcher.pool = .cached
  running : s.dispatcher.closed = false

namespace Mesh

variable {m m' : Mesh} {t u s i : Nat} {σ : Option Nat}

structure Attends (m : Mesh) (u s : Nat) : Prop where
  seats : m.bus.Seats s
  issued : s < m.bus.nextSubscriber
  alert : m.IsReady u ∨ u ∈ m.bus.waiting.keys ∧ m.bus.unread s = 0

/-- Every loop attends to its subscriber, and no two loops to one. -/
structure Wired (m : Mesh) : Prop where
  attends : ∀ {u i s : Nat} {aborted : Bool},
    m.tasks[u]? = some ⟨i, .receiving (some s), aborted⟩ → m.Attends u s
  alone : ∀ {u u' i i' s : Nat} {aborted aborted' : Bool},
    m.tasks[u]? = some ⟨i, .receiving (some s), aborted⟩ →
      m.tasks[u']? = some ⟨i', .receiving (some s), aborted'⟩ → u = u'

theorem Attends.passes (h : m.Attends u s) (hp : Passes m m' u s) : m'.Attends u s where
  seats := hp.bus.seats h.seats
  issued := Nat.lt_of_lt_of_le h.issued hp.bus.next
  alert := by
    rcases h.alert with hready | ⟨hwaits, hzero⟩
    · exact Or.inl (hp.ready hready)
    · exact hp.quiet h.seats hwaits hzero

theorem Spares.loop (h : m.Spares t σ m') (hu : u ≠ t) {aborted : Bool}
    (htask : m'.tasks[u]? = some ⟨i, .receiving (some s), aborted⟩) :
    ∃ aborted', m.tasks[u]? = some ⟨i, .receiving (some s), aborted'⟩ := by
  cases hold : m.tasks[u]? with
  | none => exact (h.fresh hu hold htask).elim
  | some task =>
    obtain ⟨aborted', hafter, -⟩ := h.task hu hold
    have heq := Option.some.inj (hafter.symm.trans htask)
    obtain ⟨j, a, aborted''⟩ := task
    cases heq
    exact ⟨aborted'', rfl⟩

theorem Spares.wired (h : m.Spares t σ m') (hw : m.Wired)
    (hothers : ∀ {u i s : Nat} {aborted : Bool}, u ≠ t →
      m.tasks[u]? = some ⟨i, .receiving (some s), aborted⟩ → σ ≠ some s)
    (hown : ∀ {i s : Nat} {aborted : Bool},
      m'.tasks[t]? = some ⟨i, .receiving (some s), aborted⟩ → m'.Attends t s ∧ σ = some s) :
    m'.Wired where
  attends := by
    intro u i s aborted htask
    by_cases hu : u = t
    · subst hu
      exact (hown htask).1
    · obtain ⟨aborted', hold⟩ := h.loop hu htask
      exact (hw.attends hold).passes (h.passes hu (hothers hu hold))
  alone := by
    -- the turn's own subscriber is not that of any other loop
    have hapart : ∀ {u i i' s : Nat} {aborted aborted' : Bool}, u ≠ t →
        m'.tasks[u]? = some ⟨i, .receiving (some s), aborted⟩ →
          m'.tasks[t]? ≠ some ⟨i', .receiving (some s), aborted'⟩ := by
      intro u i i' s aborted aborted' hu htask hself
      obtain ⟨aborted'', hold⟩ := h.loop hu htask
      exact hothers hu hold (hown hself).2
    intro u u' i i' s aborted aborted' htask htask'
    by_cases hu : u = t
    · subst hu
      by_contra hne
      exact hapart (Ne.symm hne) htask' htask
    · by_cases hu' : u' = t
      · subst hu'
        exact absurd htask' (hapart hu htask)
      · obtain ⟨_, hold⟩ := h.loop hu htask
        obtain ⟨_, hold'⟩ := h.loop hu' htask'
        exact hw.alone hold hold'

theorem Spares.wired_of_none (h : m.Spares m'.tasks.length none m') (hw : m.Wired) : m'.Wired := by
  refine h.wired hw (fun _ _ heq => by cases heq) ?_
  intro i s aborted htask
  rw [List.getElem?_eq_none (Nat.le_refl _)] at htask
  cases htask

theorem Wired.of_loops (h : m.Wired) (hloops : ∀ {u i s : Nat} {aborted : Bool},
      m'.tasks[u]? = some ⟨i, .receiving (some s), aborted⟩ →
        ∃ aborted', m.tasks[u]? = some ⟨i, .receiving (some s), aborted'⟩)
    (hbus : m'.bus = m.bus) (hready : ∀ {u}, m.IsReady u → m'.IsReady u) : m'.Wired where
  attends := by
    intro u i s aborted htask
    obtain ⟨aborted', hold⟩ := hloops htask
    obtain ⟨hseats, hissued, halert⟩ := h.attends hold
    refine ⟨hbus ▸ hseats, hbus ▸ hissued, ?_⟩
    rw [hbus]
    exact halert.imp_left hready
  alone := by
    intro u u' i i' s aborted aborted' htask htask'
    obtain ⟨_, hold⟩ := hloops htask
    obtain ⟨_, hold'⟩ := hloops htask'
    exact h.alone hold hold'

theorem Wired.of_eq (h : m.Wired) (htasks : m'.tasks = m.tasks) (hbus : m'.bus = m.bus)
    (hready : ∀ {u}, m.IsReady u → m'.IsReady u) : m'.Wired :=
  h.of_loops (fun htask => ⟨_, htasks ▸ htask⟩) hbus hready

theorem Wired.abort (h : m.Wired) (t : Nat) : (m.abort t).Wired := by
  refine h.of_loops ?_ ?_ fun hready => (isReady_abort m t _).mp (Or.inl hready)
  · intro u i s aborted htask
    by_cases hu : u = t
    · subst hu
      cases hold : m.tasks[u]? with
      | none =>
        cases hended : m.hasEnded u with
        | true =>
          rw [abort_of_ended m u hended, hold] at htask
          cases htask
        | false =>
          rw [tasks_abort m u u hended, if_pos rfl, hold] at htask
          cases htask
      | some task =>
        obtain ⟨aborted', hafter⟩ := tasks_abort_self hold
        obtain ⟨j, a, aborted''⟩ := task
        cases hafter.symm.trans htask
        exact ⟨aborted'', rfl⟩
    · rw [tasks_abort_of_ne m t u hu] at htask
      exact ⟨aborted, htask⟩
  · unfold Mesh.abort
    split <;> rfl

/-! ### The turn of a loop -/

theorem bus_consume (m : Mesh) (i : Nat) (message : Message) :
    (m.consume i message).1.bus = m.bus := by
  unfold consume
  split
  · exact m.bus_deliver i message _
  · rfl

/-- A loop that has run has read everything and waits. -/
structure Drained (m m' : Mesh) (t s : Nat) : Prop where
  seats : m'.bus.Seats s
  next : m.bus.nextSubscriber ≤ m'.bus.nextSubscriber
  waits : t ∈ m'.bus.waiting.keys
  unread : m'.bus.unread s = 0

theorem drained_of_current {fuel : Nat} (hseats : m.bus.Seats s) (hlags : ¬m.bus.Lags s)
    (hfuel : m.bus.unread s < fuel) : Drained m (m.drainBus t i s fuel) t s := by
  induction fuel generalizing m with
  | zero => exact absurd hfuel (Nat.not_lt_zero _)
  | succ fuel ih =>
    simp only [drainBus]
    obtain ⟨hempty, hreceive⟩ | ⟨message, rest, bus, hinbox, hreceive, hseats', hlags', hrest⟩ :=
      Bus.receive_cases hlags
    · rw [hreceive]
      refine ⟨hseats, Nat.le_refl _, Bus.mem_waiting_await.mpr (Or.inr rfl), ?_⟩
      show m.bus.unread s = 0
      rw [← Bus.length_inbox hlags, hempty, List.length_nil]
    · have hbus := bus_consume { m with bus := bus } i message
      have hnext : m.bus.nextSubscriber = bus.nextSubscriber := by
        rw [← (m.bus.receive_fields s).2.2.1, hreceive]
      have hshort : bus.unread s < fuel := Nat.lt_of_lt_of_le
        (Bus.unread_lt hlags hlags' hinbox hrest) (Nat.lt_succ_iff.mp hfuel)
      rw [hreceive]
      have hdrained := ih (m := (({ m with bus := bus } : Mesh).consume i message).1)
        (by rw [hbus]; exact hseats') (by rw [hbus]; exact hlags') (by rw [hbus]; exact hshort)
      refine ⟨hdrained.seats, ?_, hdrained.waits, hdrained.unread⟩
      have hle := hdrained.next
      rw [hbus] at hle
      exact hnext ▸ hle

theorem drained_runLoop (hseats : m.bus.Seats s) : Drained m (m.runLoop t i (some s)) t s := by
  by_cases hlags : m.bus.Lags s
  · obtain ⟨bus, missed, hreceive, hseats', hlags', hlt⟩ := Bus.receive_of_lags hlags
    have hnext : m.bus.nextSubscriber = bus.nextSubscriber := by
      rw [← (m.bus.receive_fields s).2.2.1, hreceive]
    have hdrained := drained_of_current (m := { m with bus := bus }) (t := t) (i := i) hseats' hlags'
      (Nat.lt_succ_of_lt hlt)
    simp only [runLoop, drainBus, hreceive]
    exact ⟨hdrained.seats, hnext ▸ hdrained.next, hdrained.waits, hdrained.unread⟩
  · exact drained_of_current hseats hlags (by omega)

/-- A task of a station is about to begin the work on a message. -/
structure Begins (m : Mesh) (v i : Nat) (message : Message) : Prop where
  task : m.tasks[v]? = some ⟨i, .dispatching ⟨message, .arrived⟩, false⟩
  ready : m.IsReady v

theorem Begins.serves {v : Nat} {message : Message} (h : m.Begins v i message)
    (hserves : m.Serves m') : m'.Begins v i message :=
  ⟨hserves.task h.task, hserves.ready h.ready⟩

theorem accepts_consume {other : Message} (message : Message)
    (h : (m.station i).Accepts other) : (((m.consume i message).1).station i).Accepts other := by
  unfold consume
  split
  · obtain ⟨entering, queue, stats, heq⟩ :=
      (Dispatcher.disposes_accept (m.station i).dispatcher message).frame
    rw [dispatch, station_deliver, heq]
    split
    · exact ⟨h.takes, h.cached, h.running⟩
    · exact h
  · exact h

theorem begins_consume {message : Message} (h : (m.station i).Accepts message) :
    ∃ v, (m.consume i message).1.Begins v i message := by
  have haccept : ((m.station i).dispatcher.accept message).2 = .started := by
    simp [Dispatcher.accept, Dispatcher.place, Dispatcher.enlist, Dispatcher.hasSender, h.cached,
      h.running]
  rw [consume, if_pos h.takes, dispatch]
  exact ⟨m.tasks.length, (m.tasks_deliver ..).trans (if_pos ⟨haccept, rfl⟩),
    m.isReady_deliver_of_started i message _ haccept⟩

/-- A loop that reads all there is brings each message to a task that works on it. -/
theorem begins_drainBus {message : Message} {fuel : Nat} (hi : i < m.stations.length)
    (hlags : ¬m.bus.Lags s) (hfuel : m.bus.unread s < fuel) (hmem : message ∈ m.bus.inbox s)
    (haccepts : (m.station i).Accepts message) :
    ∃ v, (m.drainBus t i s fuel).Begins v i message := by
  induction fuel generalizing m with
  | zero => exact absurd hfuel (Nat.not_lt_zero _)
  | succ fuel ih =>
    simp only [drainBus]
    obtain ⟨hempty, -⟩ | ⟨first, rest, bus, hinbox, hreceive, -, hlags', hrest⟩ :=
      Bus.receive_cases hlags
    · rw [hempty] at hmem
      cases hmem
    · have hbus := bus_consume { m with bus := bus } i first
      have hserves := serves_consume (m := { m with bus := bus }) hi first
      have hi' : i < (({ m with bus := bus } : Mesh).consume i first).1.stations.length := by
        rw [hserves.stations]
        exact hi
      have hshort : bus.unread s < fuel := Nat.lt_of_lt_of_le
        (Bus.unread_lt hlags hlags' hinbox hrest) (Nat.lt_succ_iff.mp hfuel)
      rw [hreceive]
      rw [hinbox] at hmem
      rcases List.mem_cons.mp hmem with rfl | hlater
      · obtain ⟨v, hbegins⟩ := begins_consume (m := { m with bus := bus }) haccepts
        exact ⟨v, hbegins.serves (serves_drainBus hi' s fuel)⟩
      · refine ih hi' (by rw [hbus]; exact hlags') (by rw [hbus]; exact hshort) ?_ ?_
        · rw [hbus, hrest]
          exact hlater
        · exact accepts_consume (m := { m with bus := bus }) first haccepts

theorem run_of_receiving (htask : m.tasks[t]? = some ⟨i, .receiving (some s), false⟩) :
    (m.taken t).run t = (m.taken t).runLoop t i (some s) := by
  simp only [run, tasks_taken, htask, Bool.false_eq_true, if_false]

theorem begins_run {message : Message} (hi : i < m.stations.length)
    (htask : m.tasks[t]? = some ⟨i, .receiving (some s), false⟩) (hlags : ¬m.bus.Lags s)
    (hmem : message ∈ m.bus.inbox s) (haccepts : (m.station i).Accepts message) :
    ∃ v, ((m.taken t).run t).Begins v i message := by
  rw [run_of_receiving htask]
  exact begins_drainBus (m := m.taken t) hi hlags (Nat.lt_add_of_pos_right (by omega)) hmem haccepts

/-- Every turn leaves the loops alert. -/
theorem Wired.turn (h : m.Wired) {L : List Registration} (hledger : Ledger m L) (t : Nat) :
    ((m.taken t).run t).Wired := by
  have hspares := spares_run hledger t
  have hbefore : ∀ {i s : Nat} {aborted : Bool},
      ((m.taken t).run t).tasks[t]? = some ⟨i, .receiving (some s), aborted⟩ →
        ∃ aborted', m.tasks[t]? = some ⟨i, .receiving (some s), aborted'⟩ := by
    intro i s aborted htask
    cases hold : m.tasks[t]? with
    | none =>
      rw [run_of_missing (m := m.taken t) hold, tasks_taken, hold] at htask
      cases htask
    | some task =>
      obtain ⟨task', hafter, hstation, hfollows⟩ := hspares.own hold
      obtain rfl := Option.some.inj (hafter.symm.trans htask)
      obtain ⟨j, a, aborted'⟩ := task
      obtain rfl : i = j := hstation
      obtain rfl : a = .receiving (some s) := hfollows.loop rfl
      exact ⟨aborted', rfl⟩
  refine hspares.wired h ?_ ?_
  · intro u i s aborted hu htask hσ
    unfold subscriberOf at hσ
    split at hσ
    · next hself =>
      subst hσ
      exact hu (h.alone htask hself)
    · cases hσ
  · intro i s aborted htask
    obtain ⟨aborted', hold⟩ := hbefore htask
    refine ⟨?_, by simp only [subscriberOf, hold]⟩
    have hattends := h.attends hold
    cases aborted' with
    | true =>
      rw [run_of_aborted (m := m.taken t) hold not_false] at htask
      unfold drop at htask
      rw [tasks_finish, tasks_setActivity, if_pos rfl] at htask
      obtain ⟨task, -, heq⟩ := Option.map_eq_some_iff.mp htask
      cases heq
    | false =>
      have hseats : (m.taken t).bus.Seats s := hattends.seats
      have hdrained := drained_runLoop (t := t) (i := i) hseats
      rw [run_of_receiving hold]
      exact ⟨hdrained.seats, Nat.lt_of_lt_of_le hattends.issued hdrained.next,
        Or.inr ⟨hdrained.waits, hdrained.unread⟩⟩

/-! ### Every mesh that is reached -/

theorem Wired.subscribes (h : m.Wired) (i : Nat) :
    ({ m with bus := m.bus.subscribe.1 }.beginLoop i (some m.bus.subscribe.2)).Wired := by
  let m₁ : Mesh := { m with bus := m.bus.subscribe.1 }
  have hnew : ∀ {u i s : Nat} {aborted : Bool},
      m.tasks[u]? = some ⟨i, .receiving (some s), aborted⟩ → s < m.bus.nextSubscriber :=
    fun htask => (h.attends htask).issued
  have hsubscribed : m₁.Wired := by
    refine ⟨?_, h.alone⟩
    intro u i s aborted htask
    have hattends := h.attends htask
    have hne : s ≠ m.bus.nextSubscriber := Nat.ne_of_lt hattends.issued
    refine hattends.passes ⟨Bus.keeps_subscribe _ hattends.issued, id, fun _ hw hzero => ?_⟩
    refine Or.inr ⟨hw, ?_⟩
    have hget : Table.get? m.bus.subscribe.1.positions s = Table.get? m.bus.positions s :=
      (Table.get?_set ..).trans (if_neg hne)
    rw [← hzero, Bus.unread, Bus.unread, hget]
    rfl
  have hspawned : (m₁.spawn i (.receiving (some m.bus.subscribe.2))).1.Wired := by
    refine (spares_spawn_self (σ := some m.bus.subscribe.2) m₁ i _).wired hsubscribed ?_ ?_
    · intro u j s aborted _ htask heq
      obtain rfl := Option.some.inj heq
      exact Nat.lt_irrefl _ (hnew htask)
    · intro j s aborted htask
      have hself := (tasks_spawn ..).symm.trans htask
      rw [if_pos rfl] at hself
      cases hself
      exact ⟨⟨Bus.seats_subscribe m.bus, Nat.lt_succ_self _,
        Or.inl ((isReady_spawn m₁ _ i _).mpr (Or.inr rfl))⟩, rfl⟩
  exact hspawned.of_eq rfl rfl id

theorem Wired.spawn (h : m.Wired) (i : Nat) {a : Activity} (ha : ∀ s, a ≠ .receiving (some s)) :
    (m.spawn i a).1.Wired := by
  refine (spares_spawn_self (σ := none) m i a).wired h (fun _ _ heq => by cases heq) ?_
  intro j s aborted htask
  have hself := (tasks_spawn ..).symm.trans htask
  rw [if_pos rfl] at hself
  cases hself
  exact absurd rfl (ha s)

theorem Reached.wired (h : Reached m) : m.Wired := by
  induction h with
  | start capacity =>
    refine ⟨?_, ?_⟩
    · intro u i s aborted htask
      cases htask
    · intro u u' i i' s aborted aborted' htask
      cases htask
  | @addStation m s _ _ ih =>
    have hadd : ({ m with stations := m.stations ++ [s] } : Mesh).Wired := ih.of_eq rfl rfl id
    simp only [Mesh.addStation]
    split
    · exact hadd
    · exact (hadd.spawn _ fun _ heq => by cases heq).of_eq rfl rfl id
  | change _ _ ih => exact ih.of_eq rfl rfl id
  | @startConsumer m i _ busIsGone _ ih =>
    unfold Mesh.startConsumer
    split
    · exact ih
    · split
      · exact (ih.spawn _ fun _ heq => by cases heq).of_eq rfl rfl id
      · exact ih.subscribes i
  | publish _ message ih => exact (spares_publish _ message).wired_of_none ih
  | consume _ message _ ih => exact (spares_consume _ _ message).wired_of_none ih
  | correlate _ result _ ih => exact (spares_correlate _ _ result).wired_of_none ih
  | execute _ c _ ih => exact ih.spawn _ fun _ heq => by cases heq
  | abort _ _ ih => exact ih.abort _
  | turn hreached _ ih =>
    obtain ⟨H, n, rfl⟩ := hreached.history
    exact ih.turn (H.ledger n) _
  | ring _ _ _ _ ih =>
    exact ih.of_eq rfl rfl fun hready => (isReady_ring _ _ _).mpr (Or.inl hready)

end Mesh

end ClusterMesh
