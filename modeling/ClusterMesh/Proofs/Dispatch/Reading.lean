import ClusterMesh.Proofs.Delivery.Inbox
import ClusterMesh.Proofs.Dispatch.Loops

/-!
# Where messages lie on the bus

Messages are numbered in the order in which they were published. A subscriber reads each place once
and goes on; nothing but a producer puts a message on the bus.
-/

namespace ClusterMesh

namespace Bus

variable {μ : Type} {b b' b'' : Bus μ} {s s' : Nat} {message : μ}

/-- Nothing was published, and no subscriber goes back. -/
structure Quiet (b b' : Bus μ) : Prop where
  published : b'.published = b.published
  kept : b'.kept = b.kept
  place : ∀ s, b.place s ≤ b'.place s

theorem Quiet.refl (b : Bus μ) : b.Quiet b := ⟨rfl, rfl, fun _ => Nat.le_refl _⟩

theorem place_le (b : Bus μ) (s : Nat) : b.place s ≤ b.published := Nat.sub_le _ _

theorem place_of_position {position : Nat} (h : Table.get? b.positions s = some position)
    (hle : position ≤ b.published) : b.place s = position := by
  rw [place, unread, h, Option.getD_some]
  omega

theorem place_of_none (h : Table.get? b.positions s = none) : b.place s = b.published := by
  rw [place, unread, h, Option.getD_none, Nat.sub_self, Nat.sub_zero]

theorem quiet_of_content (h : b'.content = b.content) : b.Quiet b' := by
  obtain ⟨hpublished, hrest⟩ := Prod.mk.inj h
  obtain ⟨hkept, hpositions⟩ := Prod.mk.inj hrest
  refine ⟨hpublished, hkept, fun s => Nat.le_of_eq ?_⟩
  rw [place, place, unread, unread, hpositions, hpublished]

theorem quiet_set (b b' : Bus μ) (hpublished : b'.published = b.published)
    (hkept : b'.kept = b.kept) {position : Nat}
    (hpositions : b'.positions = Table.set b.positions s position)
    (hle : b.place s ≤ position) (hmax : position ≤ b.published) :
    b.Quiet b' ∧ b'.place s = position := by
  have hself : b'.place s = position := by
    apply place_of_position
    · rw [hpositions, Table.get?_set, if_pos rfl]
    · rwa [hpublished]
  refine ⟨⟨hpublished, hkept, fun s' => ?_⟩, hself⟩
  by_cases hs : s' = s
  · subst hs
    rwa [hself]
  · have hget : Table.get? b'.positions s' = Table.get? b.positions s' := by
      rw [hpositions, Table.get?_set, if_neg hs]
    apply Nat.le_of_eq
    rw [place, place, unread, unread, hget, hpublished]

theorem quiet_subscribe (b : Bus μ) :
    b.Quiet b.subscribe.1 ∧ b.subscribe.1.place b.subscribe.2 = b.published :=
  quiet_set b b.subscribe.1 rfl rfl rfl (b.place_le _) (Nat.le_refl _)

theorem quiet_unsubscribe (b : Bus μ) (s : Nat) : b.Quiet (b.unsubscribe s) := by
  refine ⟨rfl, rfl, fun s' => ?_⟩
  by_cases hs : s' = s
  · subst hs
    have hnone : Table.get? (b.unsubscribe s').positions s' = none := by
      rw [unsubscribe, Table.get?_erase, if_pos rfl]
    rw [place_of_none hnone]
    exact b.place_le s'
  · have hget : Table.get? (b.unsubscribe s).positions s' = Table.get? b.positions s' := by
      rw [unsubscribe, Table.get?_erase, if_neg hs]
    rw [place, place, unread, unread, hget]
    exact Nat.le_refl _

theorem quiet_lagged {missed : Nat} (h : b.receive s = (b', .lagged missed)) : b.Quiet b' := by
  unfold receive at h
  dsimp only at h
  split at h
  · next hlags =>
    cases h
    have hle : b.place s ≤ b.published - b.kept.length := by
      rw [place]
      omega
    exact (quiet_set b { b with
      positions := Table.set b.positions s (b.published - b.kept.length) } rfl rfl rfl hle
        (Nat.sub_le _ _)).1
  · split at h <;> cases h

theorem receive_place (h : b.receive s = (b', .message message)) :
    b.Quiet b' ∧ b'.place s = b.place s + 1 ∧ b.place s < b.published ∧
      ∃ j : Nat, b.kept[j]? = some message ∧
        (b.kept.length ≤ b.published → b.published - b.kept.length + j = b.place s) := by
  unfold receive at h
  dsimp only at h
  split at h
  · cases h
  · next hfits =>
    split at h
    · cases h
    · next m rest hdrop =>
      cases h
      have hlength := congrArg List.length hdrop
      rw [List.length_drop, List.length_cons] at hlength
      have hle : b.unread s ≤ b.published := Nat.sub_le _ _
      have hplace : b.place s = b.published - b.unread s := rfl
      obtain ⟨hquiet, hself⟩ := quiet_set b { b with
        positions := Table.set b.positions s (b.published - b.unread s + 1) } rfl rfl rfl
        (by omega) (by omega)
      have hat : b.kept[b.kept.length - b.unread s]? = some message := by
        rw [← List.head?_drop, hdrop]
        rfl
      exact ⟨hquiet, by rw [hself, hplace], by omega, _, hat, by omega⟩

end Bus

namespace Mesh

variable {m m' : Mesh} {t i j : Nat} {e : Option (Nat × Notice)}

theorem bus_abort (m : Mesh) (t : Nat) : (m.abort t).bus = m.bus := by
  unfold abort
  split <;> rfl

theorem bus_produce_cases (m : Mesh) (i : Nat) (message : Message) :
    ((m.station i).sends message = true ∧ (m.produce i message).2 = .ok true ∧
      (m.produce i message).1.bus =
        (m.bus.publish (message.stamped (m.station i).node)).1) ∨
    (m.produce i message).2 ≠ .ok true ∧ (m.produce i message).1.bus = m.bus := by
  simp only [produce]
  cases hsends : (m.station i).sends message with
  | false => exact Or.inr ⟨by simp, rfl⟩
  | true =>
    cases (m.station i).producer.refusal with
    | none => exact Or.inl ⟨rfl, rfl, rfl⟩
    | some reason => exact Or.inr ⟨by simp, rfl⟩

/-- Nothing but what a producer has sent is published. -/
theorem Duty.bus_cases (hd : m.Duty e m') : m.bus.Quiet m'.bus ∨
    ∃ j message, e = some (j, .sent message (.ok true)) ∧ (m.station j).sends message = true ∧
      m'.bus = (m.bus.publish (message.stamped (m.station j).node)).1 := by
  cases hd with
  | apart ha => exact Or.inl (Bus.quiet_of_content ha.content)
  | pass instant later => exact Or.inl (.refl _)
  | @found s fresh =>
    refine Or.inl ?_
    simp only [addStation]
    split <;> exact .refl _
  | @start j gone placed =>
    refine Or.inl ?_
    unfold startConsumer
    split
    · exact .refl _
    · split
      · exact .refl _
      · exact m.bus.quiet_subscribe.1
  | stop j =>
    refine Or.inl ?_
    unfold stopConsumer
    split
    · rw [bus_abort]
      exact .refl _
    · exact .refl _
  | @leave t j σ aborted e task quits =>
    cases σ with
    | none => exact Or.inl (.refl _)
    | some s =>
      refine Or.inl ?_
      have hquiet := m.bus.quiet_unsubscribe s
      exact ⟨hquiet.published, hquiet.kept, hquiet.place⟩
  | @send j message placed =>
    obtain ⟨hsends, hresult, hbus⟩ | ⟨-, hbus⟩ := bus_produce_cases m j message
    · exact Or.inr ⟨j, message, by rw [hresult], hsends, hbus⟩
    · rw [hbus]
      exact Or.inl (.refl _)
  | @receive t j s bus message task placed next =>
    obtain ⟨-, -, heq⟩ | ⟨-, -, heq⟩ := consume_cases m bus j message (m.bus.place s)
    · rw [heq, dispatch, bus_deliver]
      exact Or.inl (Bus.receive_place next).1
    · rw [heq]
      exact Or.inl (Bus.receive_place next).1
  | lag task next => exact Or.inl (Bus.quiet_lagged next)
  | call message placed =>
    rw [dispatch, bus_deliver]
    exact Or.inl (.refl _)
  | enter message placed opened => exact Or.inl (.refl _)
  | read task placed next takes opened => exact Or.inl (Bus.receive_place next).1
  | resume placed underWay =>
    rw [endDispatch, bus_deliver]
    exact Or.inl (.refl _)
  | close placed => exact Or.inl (.refl _)
  | sever placed closed =>
    rw [Mesh.sever, bus_wakeWorker]
    exact Or.inl (.refl _)
  | fail single worker task => exact Or.inl (.refl _)
  | work hw =>
    rw [hw.labour.bus]
    exact Or.inl (.refl _)

theorem receiving_of_deliver {σ : Option Nat} {message : Message} {after : Dispatcher × Admission}
    (h : (m.deliver i message after).tasks[t]? = some ⟨j, .receiving σ, false⟩) :
    m.tasks[t]? = some ⟨j, .receiving σ, false⟩ := by
  rw [tasks_deliver] at h
  split at h
  · cases h
  · exact h

theorem Duty.receiving_cases (hd : m.Duty e m') {s : Nat}
    (h : m'.tasks[t]? = some ⟨j, .receiving (some s), false⟩) :
    m.tasks[t]? = some ⟨j, .receiving (some s), false⟩ ∨ m'.bus.place s = m.bus.published := by
  cases hd with
  | apart ha =>
    have hlistens : (Activity.receiving (some s)).IsListening := trivial
    exact Or.inl ((ha.task (Or.inr hlistens)).mp h)
  | pass instant later => exact Or.inl h
  | found fresh =>
    rw [tasks_addStation] at h
    split at h
    · cases h
    · exact Or.inl h
  | @start i gone placed =>
    unfold startConsumer at h ⊢
    split at h
    · exact Or.inl h
    · split at h
      · next hgone =>
        rw [tasks_beginLoop] at h
        split at h
        · cases h
        · exact Or.inl h
      · next hconsuming hgone =>
        rw [tasks_beginLoop] at h
        split at h
        · cases h
          rw [if_neg hconsuming, if_neg hgone]
          exact Or.inr m.bus.quiet_subscribe.2
        · exact Or.inl h
  | stop i =>
    unfold stopConsumer at h
    split at h
    · exact Or.inl (tasks_abort_receiving h).2
    · exact Or.inl h
  | @leave u i σ aborted e task quits =>
    obtain ⟨-, hbefore⟩ := task_of_finish h id
    cases σ <;> exact Or.inl hbefore
  | @send i message placed =>
    rw [(produce_keeps m i message).1] at h
    exact Or.inl h
  | @receive u i s' bus message task placed next =>
    obtain ⟨-, -, heq⟩ | ⟨-, -, heq⟩ := consume_cases m bus i message (m.bus.place s')
    · rw [heq] at h
      exact Or.inl (receiving_of_deliver (m := { m with bus := bus }) h)
    · rw [heq] at h
      exact Or.inl h
  | lag task next => exact Or.inl h
  | call message placed => exact Or.inl (receiving_of_deliver h)
  | enter message placed opened => exact Or.inl h
  | read task placed next takes opened => exact Or.inl h
  | resume placed underWay => exact Or.inl (receiving_of_deliver h)
  | close placed => exact Or.inl h
  | sever placed closed =>
    rw [Mesh.sever, tasks_wakeWorker] at h
    exact Or.inl h
  | fail single worker task => exact Or.inl (task_of_finish h id).2
  | work hw =>
    rw [hw.labour.task] at h
    split at h
    · have hnot := hw.not_listening
      cases Option.some.inj h
      exact absurd trivial hnot
    · exact Or.inl h

end Mesh

end ClusterMesh
