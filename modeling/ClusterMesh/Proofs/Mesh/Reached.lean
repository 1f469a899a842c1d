import ClusterMesh.Proofs.Mesh.Preservation
import ClusterMesh.Proofs.Mesh.Turns

/-!
# Meshes that are reached

A mesh that is set up, whose tasks take their turns and whose clock goes from alarm to alarm is in
a state of a history.
-/

namespace ClusterMesh.Mesh

/-- What becomes of a mesh when stations are added and changed, messages are published and taken
in, calls are submitted and cancelled, and the machine runs. Nothing else touches the stores. -/
inductive Reached : Mesh → Prop
  | start (capacity : Nat) : Reached (ofCapacity capacity)
  | addStation {m : Mesh} {s : Station} (reached : Reached m)
      (empty : s.store = PendingStore.empty) : Reached (m.addStation s).1
  | change {m : Mesh} {i : Nat} {f : Station → Station} (reached : Reached m)
      (kept : (f (m.station i)).store = m.store i) : Reached (m.updateStation i f)
  | startConsumer {m : Mesh} {i : Nat} (reached : Reached m) (busIsGone : Bool)
      (placed : i < m.stations.length) : Reached (m.startConsumer i busIsGone)
  | publish {m : Mesh} (reached : Reached m) (message : Message) : Reached (m.publish message)
  | consume {m : Mesh} {i : Nat} (reached : Reached m) (message : Message)
      (placed : i < m.stations.length) : Reached (m.consume i message).1
  | correlate {m : Mesh} {i : Nat} (reached : Reached m) (result : CommandResult)
      (placed : i < m.stations.length) : Reached (m.correlate i result).1
  | execute {m : Mesh} {i : Nat} (reached : Reached m) (c : Command)
      (placed : i < m.stations.length) : Reached (m.execute i c).1
  | abort {m : Mesh} {t : Nat} (reached : Reached m)
      (spared : ∀ {task ticket delay due}, m.tasks[t]? = some task →
        task.activity ≠ .reaping ticket delay due) : Reached (m.abort t)
  | turn {m : Mesh} {t : Nat} (reached : Reached m) (ready : m.IsReady t) :
      Reached ((m.taken t).run t)
  | ring {m : Mesh} {instant : Nat} (reached : Reached m) (idle : ∀ t, ¬m.IsReady t)
      (later : m.now ≤ instant) (next : m.agenda.nextAlarm? = some instant) :
      Reached (machine.ring m instant)

variable {m m' : Mesh} {t i : Nat}

/-! ### Ways that are not turns -/

theorem aside_addStation {s : Station} (hempty : s.store = PendingStore.empty) :
    m.Aside { m with stations := m.stations ++ [s] } where
  now := rfl
  stations := by simp
  store := by
    intro j
    simp only [store, station, List.getD_eq_getElem?_getD]
    rcases Nat.lt_trichotomy j m.stations.length with hlt | rfl | hgt
    · rw [List.getElem?_append_left hlt]
    · rw [List.getElem?_concat_length, List.getElem?_eq_none (Nat.le_refl _)]
      exact hempty
    · rw [List.getElem?_eq_none (Nat.le_of_lt hgt), List.getElem?_eq_none (by simp; omega)]
  keeps := fun htask _ => htask
  brings := fun htask _ => htask
  ready := fun _ _ hready => hready
  alarm := fun _ _ halarm => halarm

theorem leads_addStation {s : Station} (hempty : s.store = PendingStore.empty) :
    m.Leads (m.addStation s).1 := by
  have hadd : m.Leads { m with stations := m.stations ++ [s] } := by
    refine ⟨⟨_, Path.stay.step (.aside (aside_addStation hempty))⟩, ?_⟩
    intro hplaced j hj
    have hlt := hplaced j hj
    simp only [placement, List.length_append] at hlt ⊢
    omega
  have hi : m.stations.length < (m.stations ++ [s]).length := by simp
  simp only [addStation]
  split
  · exact hadd
  · have hspawn := serves_spawn (m := { m with stations := m.stations ++ [s] }) hi
      (a := .working none) not_false
    exact hadd.trans ((hspawn.trans (serves_updateStation rfl)).works 0).toLeads

theorem leads_startConsumer (hi : i < m.stations.length) (busIsGone : Bool) :
    m.Leads (m.startConsumer i busIsGone) := by
  have hbegin : ∀ {m : Mesh} (subscriber : Option Nat), i < m.stations.length →
      m.Serves (m.beginLoop i subscriber) := by
    intro m subscriber hi
    have hspawn := serves_spawn hi (a := .receiving subscriber) not_false
    exact hspawn.trans (serves_updateStation rfl)
  unfold startConsumer
  split
  · exact .refl m
  · split
    · exact ((hbegin none hi).works 0).toLeads
    · have hsubscribe := serves_bus m m.bus.subscribe.1
      exact ((hsubscribe.trans (hbegin (some m.bus.subscribe.2) hi)).works 0).toLeads

theorem leads_execute (hi : i < m.stations.length) (c : Command) :
    m.Leads (m.execute i c).1 :=
  ((serves_spawn hi (a := .executing c .submitted) not_false).works 0).toLeads

theorem aside_abort (hfree : ∀ {task}, m.tasks[t]? = some task →
    ¬task.activity.IsEngaged ∧ ¬task.activity.IsEnded) : m.Aside (m.abort t) where
  now := now_abort m t
  stations := Nat.le_of_eq (congrArg List.length (stations_abort m t)).symm
  store := fun i => store_abort m t i
  keeps := by
    intro u task htask hstands
    have hne : u ≠ t := by
      intro heq
      subst heq
      exact hstands.elim (hfree htask).1 (hfree htask).2
    rw [tasks_abort_of_ne m t u hne, htask]
  brings := by
    intro u task htask hengaged
    by_cases hut : u = t
    · subst hut
      cases hended : m.hasEnded u with
      | true => rwa [abort_of_ended m u hended] at htask
      | false =>
        rw [tasks_abort m u u hended, if_pos rfl] at htask
        obtain ⟨old, hold, rfl⟩ := Option.map_eq_some_iff.mp htask
        exact absurd hengaged (hfree hold).1
    · rwa [tasks_abort_of_ne m t u hut] at htask
  ready := fun _ _ hready => (isReady_abort m t _).mp (Or.inl hready)
  alarm := by
    intro u due task _ _ halarm
    rwa [HasAlarm, alarms_abort]

theorem leads_abort (hspared : ∀ {task ticket delay due}, m.tasks[t]? = some task →
    task.activity ≠ .reaping ticket delay due) : m.Leads (m.abort t) := by
  have hplacement := placement_abort m t
  by_cases hfree : ∀ {task}, m.tasks[t]? = some task →
      ¬task.activity.IsEngaged ∧ ¬task.activity.IsEnded
  · exact (aside_abort hfree).leads hplacement
  obtain ⟨⟨i, a, aborted⟩, htask, hstands⟩ : ∃ task, m.tasks[t]? = some task ∧
      (task.activity.IsEngaged ∨ task.activity.IsEnded) := by
    by_contra hnone
    refine hfree fun htask => ⟨?_, ?_⟩
    · exact fun h => hnone ⟨_, htask, Or.inl h⟩
    · exact fun h => hnone ⟨_, htask, Or.inr h⟩
  rcases hstands with hengaged | hended
  · cases a with
    | reaping ticket delay due => exact absurd rfl (hspared htask)
    | executing c stage => exact (Step.cancel htask hengaged).leads hplacement
    | _ => exact hengaged.elim
  · have hgone : m.hasEnded t = true := by
      cases a with
      | ended e => simp [hasEnded, taskEnd?, htask, Task.end?]
      | _ => exact hended.elim
    rw [abort_of_ended m t hgone]
    exact .refl m

theorem leads_ring {instant : Nat} (hidle : ∀ t, ¬m.IsReady t) (hlater : m.now ≤ instant)
    (hnext : m.agenda.nextAlarm? = some instant) : m.Leads (machine.ring m instant) := by
  have hfirst : ∀ due t, m.HasAlarm due t → instant ≤ max m.now due := by
    intro due t halarm
    have hleast := (List.min?_eq_some_iff.mp hnext).2
    exact Nat.le_trans (hleast due (List.mem_map_of_mem halarm)) (Nat.le_max_right _ _)
  exact (Step.pass instant hidle hlater hfirst).leads rfl

theorem Reached.leads (h : Reached m) : ∃ capacity, (ofCapacity capacity).Leads m := by
  have hempty : ∀ capacity, (ofCapacity capacity).Placed := fun _ => placed_of_nil rfl
  induction h with
  | start capacity => exact ⟨capacity, .refl _⟩
  | addStation _ empty ih =>
    obtain ⟨capacity, hleads⟩ := ih
    exact ⟨capacity, hleads.trans (leads_addStation empty)⟩
  | change _ kept ih =>
    obtain ⟨capacity, hleads⟩ := ih
    exact ⟨capacity, hleads.trans ((serves_updateStation kept).works 0).toLeads⟩
  | startConsumer _ busIsGone placed ih =>
    obtain ⟨capacity, hleads⟩ := ih
    exact ⟨capacity, hleads.trans (leads_startConsumer placed busIsGone)⟩
  | publish _ message ih =>
    obtain ⟨capacity, hleads⟩ := ih
    exact ⟨capacity, hleads.trans ((serves_publish _ message).works 0).toLeads⟩
  | consume _ message placed ih =>
    obtain ⟨capacity, hleads⟩ := ih
    exact ⟨capacity, hleads.trans ((serves_consume placed message).works 0).toLeads⟩
  | correlate _ result placed ih =>
    obtain ⟨capacity, hleads⟩ := ih
    exact ⟨capacity, hleads.trans (works_correlate placed result 0).toLeads⟩
  | execute _ c placed ih =>
    obtain ⟨capacity, hleads⟩ := ih
    exact ⟨capacity, hleads.trans (leads_execute placed c)⟩
  | abort _ spared ih =>
    obtain ⟨capacity, hleads⟩ := ih
    exact ⟨capacity, hleads.trans (leads_abort spared)⟩
  | turn _ ready ih =>
    obtain ⟨capacity, hleads⟩ := ih
    exact ⟨capacity, hleads.trans (leads_run (hleads.placed (hempty capacity)) ready)⟩
  | ring _ idle later next ih =>
    obtain ⟨capacity, hleads⟩ := ih
    exact ⟨capacity, hleads.trans (leads_ring idle later next)⟩

theorem ready_of_takeFirst? {rest : Agenda} (h : m.agenda.takeFirst? = some (t, rest)) :
    m.IsReady t ∧ rest = (m.taken t).agenda := by
  unfold Agenda.takeFirst? at h
  split at h
  · cases h
  · next first others hready =>
    obtain ⟨rfl, rfl⟩ := Prod.mk.inj (Option.some.inj h)
    refine ⟨?_, rfl⟩
    show first ∈ m.agenda.ready.toList.map fun task => task
    rw [hready]
    exact List.mem_cons_self

theorem Reached.settle (h : Reached m) : Reached m.settle := by
  refine Machine.settle_preserves (fun m t rest hfirst h => ?_) h
  obtain ⟨hready, rfl⟩ := ready_of_takeFirst? hfirst
  exact h.turn hready

end ClusterMesh.Mesh

namespace ClusterMesh.History

open Mesh

/-- A history up to a state, one more step, and then nothing. -/
def followedBy (h : History) (k : Nat) {e : Happening} {m : Mesh} (hs : (h.state k).Step e m) :
    History where
  state n := if n ≤ k then h.state n else m
  event n := if n < k then h.event n else if n = k then e else .other
  start := h.start
  step := steps_followedBy h.step hs (.aside (.refl m))

end ClusterMesh.History

namespace ClusterMesh.Mesh

variable {m : Mesh}

theorem Path.history {capacity : Nat} {es : List Happening}
    (h : (ofCapacity capacity).Path es m) : ∃ H : History, H.state es.length = m := by
  induction h with
  | stay =>
    let H : History := {
      state := fun _ => ofCapacity capacity
      event := fun _ => .other
      start := ⟨capacity, rfl⟩
      step := fun _ => .aside (.refl _) }
    exact ⟨H, rfl⟩
  | @step es e m' m'' _ hstep ih =>
    obtain ⟨H, hstate⟩ := ih
    subst hstate
    refine ⟨H.followedBy es.length hstep, ?_⟩
    rw [List.length_append]
    exact if_neg (Nat.not_succ_le_self es.length)

/-- A mesh that is reached is a state of a history. -/
theorem Reached.history (h : Reached m) : ∃ (H : History) (n : Nat), H.state n = m := by
  obtain ⟨capacity, hleads⟩ := h.leads
  obtain ⟨es, hpath⟩ := hleads.path
  obtain ⟨H, hstate⟩ := hpath.history
  exact ⟨H, es.length, hstate⟩

theorem Reached.sound (h : Reached m) (i : Nat) : (m.store i).Sound := by
  obtain ⟨H, n, rfl⟩ := h.history
  exact (H.ledger n).sound i

end ClusterMesh.Mesh
