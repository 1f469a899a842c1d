import ClusterMesh.Proofs.Delivery.Sparing
import ClusterMesh.Proofs.Dispatch.Attained
import ClusterMesh.Proofs.Dispatch.Seeking

/-!
# Meshes go on in time

Whatever a mesh does, it does at one instant: the clock goes on only when no task can run, and never
past an alarm. So a mesh that is attained is a state of a run in which time passes as it should.
-/

namespace ClusterMesh

namespace Mesh

variable {m m' : Mesh} {es : List (Option (Nat × Notice))}

theorem Trail.looped (h : m.Trail es m') (hl : m.Looped) : m'.Looped := by
  induction h with
  | stay => exact hl
  | step _ hduty ih => exact ih.step hduty

theorem Trail.now_le (h : m.Trail es m') (hl : m.Looped) : m.now ≤ m'.now := by
  induction h with
  | stay => exact Nat.le_refl _
  | step htrail hduty ih => exact Nat.le_trans ih (hduty.now_le (htrail.looped hl))

theorem OnTime.of_now (h : m'.now ≤ m.now) : m.OnTime m' :=
  fun hlt => absurd hlt (Nat.not_lt.mpr h)

end Mesh

namespace Service

variable {h : Service} {k : Nat} {m : Mesh} {e : Option (Nat × Notice)}

theorem Timely.followedBy (ht : h.Timely) (hd : (h.state k).Duty e m)
    (honTime : (h.state k).OnTime m) : (h.followedBy k hd).Timely := by
  intro n
  show (if n ≤ k then h.state n else m).OnTime (if n + 1 ≤ k then h.state (n + 1) else m)
  rcases Nat.lt_trichotomy n k with hlt | rfl | hgt
  · rw [if_pos (Nat.le_of_lt hlt), if_pos (Nat.succ_le_of_lt hlt)]
    exact ht n
  · rw [if_pos (Nat.le_refl n), if_neg (Nat.not_succ_le_self n)]
    exact honTime
  · rw [if_neg (Nat.not_le.mpr hgt), if_neg (Nat.not_le.mpr (Nat.lt_succ_of_lt hgt))]
    exact .of_now (Nat.le_refl _)

end Service

namespace Mesh

variable {m m' : Mesh} {direct : Prop} {es : List (Option (Nat × Notice))}
variable {e : Option (Nat × Notice)}

/-- There is a run up to a mesh in which no worker is lost and time passes as it should. -/
def IsTimed (m : Mesh) : Prop :=
  ∃ (H : Service) (n : Nat), H.state n = m ∧ H.Timely ∧ ∀ i, H.Keeps i

theorem IsTimed.looped (h : m.IsTimed) : m.Looped := by
  obtain ⟨H, n, rfl, -⟩ := h
  exact H.looped n

theorem IsTimed.step (h : m.IsTimed) (hd : m.Duty e m') (honTime : m.OnTime m')
    (he : ∀ i, e ≠ some (i, .failed)) : m'.IsTimed := by
  obtain ⟨H, n, rfl, ht, hs⟩ := h
  refine ⟨H.followedBy n hd, n + 1, if_neg (Nat.not_succ_le_self n), ht.followedBy hd honTime, ?_⟩
  intro i q
  show (if q < n then H.event q else if q = n then e else none) ≠ some (i, .failed)
  split
  · exact hs i q
  · split
    · exact he i
    · exact isTravel_none.keeps i

theorem IsTimed.trail (h : m.IsTimed) (htrail : m.Trail es m') (hnow : m'.now ≤ m.now)
    (hes : ∀ e ∈ es, IsTravel e) : m'.IsTimed := by
  have hlooped := h.looped
  induction htrail with
  | stay => exact h
  | @step es e m' m'' htrail hduty ih =>
    have hback := hduty.now_le (htrail.looped hlooped)
    have hthere := htrail.now_le hlooped
    have hbefore := ih (Nat.le_trans hback hnow) fun e he => hes e (List.mem_append_left _ he)
    refine hbefore.step hduty (.of_now (Nat.le_trans hnow hthere)) ?_
    exact (hes e (List.mem_append_right _ (List.mem_singleton_self e))).keeps

theorem IsTimed.runs (h : m.IsTimed) (hr : m.Runs m') (hnow : m'.now = m.now) : m'.IsTimed := by
  obtain ⟨es, htrail, htravel⟩ := hr
  exact h.trail htrail (Nat.le_of_eq hnow) htravel

theorem IsTimed.act (h : m.IsTimed) (hd : m.Duty e m') (hnow : m'.now = m.now)
    (he : ∀ i, e ≠ some (i, .failed)) : m'.IsTimed :=
  h.step hd (.of_now (Nat.le_of_eq hnow)) he

theorem OnItsWay.ledger (h : OnItsWay direct m) : ∃ L, Ledger m L := by
  obtain ⟨capacity, hleads⟩ := h.leads
  obtain ⟨es, hpath⟩ := hleads.path
  obtain ⟨H, rfl⟩ := hpath.history
  exact ⟨_, H.ledger es.length⟩

/-- A mesh that is attained is a state of a run in which time passes as it should. -/
theorem Attained.isTimed (h : Attained direct m) : m.IsTimed := by
  induction h with
  | start capacity =>
    let H : Service := {
      state := fun _ => ofCapacity capacity
      event := fun _ => none
      start := ⟨capacity, rfl⟩
      step := fun _ => .apart (.refl _) }
    exact ⟨H, 0, rfl, fun _ => .of_now (Nat.le_refl _), fun i _ => isTravel_none.keeps i⟩
  | addStation _ fresh empty ih =>
    refine ih.act (.found fresh) ?_ isTravel_none.keeps
    simp only [Mesh.addStation]
    split <;> rfl
  | change _ desk kept ih => exact ih.runs (apart_updateStation desk).runs rfl
  | @startConsumer m i _ busIsGone placed ih =>
    exact ih.act (.start busIsGone placed) (beside_startConsumer m i busIsGone i).now
      isTravel_none.keeps
  | @stopConsumer m _ i ih =>
    exact ih.act (.stop i) (beside_stopConsumer ih.looped i i).now isTravel_none.keeps
  | @produce m i _ message placed ih =>
    exact ih.act (.send message placed) (beside_produce m i message i).now
      (isTravel_sent _ _ _).keeps
  | @dispatch m i _ message placed allowed ih =>
    exact ih.act (.call message placed) (serves_dispatch placed message).now (by simp)
  | @shutdown m i _ placed ih =>
    have hafter := ih.act (.close placed) (serves_close m i).now (by simp)
    exact hafter.act (duty_sever_close placed) (serves_sever (m.close i) i).now (by simp)
  | @execute m i _ c placed ih =>
    have hcall : ¬(Activity.executing c .submitted).IsBound := fun h => h.elim id id
    exact ih.runs (apart_spawn m i hcall).runs rfl
  | @cancel m t i c stage aborted _ task ih =>
    have ht : m.IsUnbound t := by
      intro task' htask'
      rw [Option.some.inj (htask'.symm.trans task)]
      exact fun h => h.elim id id
    exact ih.runs (apart_abort ht).runs (now_abort m t)
  | @turn m t attained ready ih =>
    have hway := attained.onItsWay
    obtain ⟨L, hledger⟩ := hway.ledger
    exact ih.runs (runs_turn hway.orderly t) (spares_run hledger t).now
  | @pass m instant _ idle later first ih =>
    refine ih.step (.pass instant later) (fun _ => ⟨idle, fun due t halarm => ?_⟩)
      isTravel_none.keeps
    rw [now_ring]
    exact Nat.max_le.mpr ⟨Nat.le_max_left _ _, first due t halarm⟩

end Mesh

end ClusterMesh
