import ClusterMesh.Proofs.Dispatch.Custody

/-!
# The fate of each message

What happens at a station moves the fate of at most one message on. A message keeps its place in the
docket, and one that is over stays as it is.
-/

namespace ClusterMesh

namespace Docket

variable {d d' d₁ d₂ : Docket} {t p : Nat} {x : Intake} {notice : Notice} {f : Fate}

theorem turn_move (hheld : d.held t = [x]) (h : x.fate.Advances notice f) :
    d.Turn notice (d.move t f) := by
  obtain ⟨d₁, d₂, rfl, h₁, h₂⟩ := split_of_held hheld
  rw [move_split (holder_of_held hheld) h₁ h₂]
  exact .change h

theorem turn_take (t : Nat) (h : d.queued ≠ []) : d.Turn (.took t) (d.take t) := by
  cases hqueued : d.queued with
  | nil => exact absurd hqueued h
  | cons x rest =>
    obtain ⟨d₁, d₂, rfl, hx, -, -, htake⟩ := take_split t hqueued
    rw [htake]
    refine .change ?_
    rw [hx]
    exact .take t

theorem getElem?_move (d : Docket) (t : Nat) (f : Fate) (p : Nat) : (d.move t f)[p]? =
    d[p]?.map (fun x => if x.fate.holder? = some t then { x with fate := f } else x) :=
  List.getElem?_map

theorem Turn.getElem? (h : d.Turn notice d') (hx : d[p]? = some x) :
    ∃ f, d'[p]? = some { x with fate := f } ∧ (f = x.fate ∨ x.fate.Advances notice f) := by
  cases h with
  | call _ =>
    obtain ⟨hlt, -⟩ := List.getElem?_eq_some_iff.mp hx
    exact ⟨x.fate, (List.getElem?_append_left hlt).trans hx, Or.inl rfl⟩
  | @change d₁ d₂ y _ f hadvances =>
    rcases Nat.lt_trichotomy p d₁.length with hlt | heq | hgt
    · rw [List.getElem?_append_left hlt] at hx
      exact ⟨x.fate, (List.getElem?_append_left hlt).trans hx, Or.inl rfl⟩
    · subst heq
      rw [List.getElem?_append_right (Nat.le_refl _), Nat.sub_self] at hx ⊢
      obtain rfl := Option.some.inj hx
      exact ⟨f, rfl, Or.inr hadvances⟩
    · obtain ⟨q, rfl⟩ : ∃ q, p = d₁.length + q + 1 := ⟨p - d₁.length - 1, by omega⟩
      have hindex : d₁.length + q + 1 - d₁.length = q + 1 := by omega
      rw [List.getElem?_append_right (by omega), hindex, List.getElem?_cons_succ] at hx ⊢
      exact ⟨x.fate, hx, Or.inl rfl⟩
  | still _ => exact ⟨x.fate, hx, Or.inl rfl⟩

end Docket

theorem Fate.Advances.not_isOver {f f' : Fate} {notice : Notice} (h : f.Advances notice f') :
    ¬f.IsOver := by
  cases h <;> exact not_false

theorem Fate.Advances.ended {f : Fate} {notice : Notice} {e : DispatchEnd}
    (h : f.Advances notice (.ended e)) : ∃ t, notice = .ended t e := by
  cases h with
  | giveUp t => exact ⟨t, rfl⟩
  | finish t ran => exact ⟨t, rfl⟩

namespace Mesh

variable {m m' : Mesh} {t i : Nat} {a a' : Activity} {d : Docket} {notice : Notice}

theorem fateFor_cases (m : Mesh) (admission : Admission) :
    m.fateFor admission = .refused ∨ m.fateFor admission = .queued ∨
      ∃ t, m.fateFor admission = .taken t := by
  cases admission with
  | refused => exact Or.inl rfl
  | queued => exact Or.inr (Or.inl rfl)
  | started => exact Or.inr (Or.inr ⟨_, rfl⟩)

theorem Kept.hand (h : m.Kept i d) {job : Job} (hand : m.InHand t i a job) :
    ∃ x, d.held t = [x] ∧ x.message = job.message ∧ x.fate = job.stage.fate t :=
  (Docket.bears_iff_of_job hand.job).mp (h.duty hand.task (Activity.isOnDuty_of_job hand.job)).2

theorem Kept.turn_work (h : m.Kept i d) (hw : m.Work t i a (some notice) a' m') :
    d.Turn notice (d.after notice) := by
  cases hw with
  | take ready task next =>
    apply Docket.turn_take t
    intro hnil
    obtain ⟨hqueue, -⟩ := Dispatcher.takeQueued?_eq_some next
    rw [h.queue, hnil] at hqueue
    cases hqueue
  | window hand timeout => exact .still trivial
  | @invoke _ message deadline next id hand due found wait =>
    obtain ⟨x, hx, -, hfate⟩ := h.hand hand
    refine Docket.turn_move hx ?_
    rw [hfate]
    exact .invoke t id
  | giveUp hand due missing never =>
    obtain ⟨x, hx, -, hfate⟩ := h.hand hand
    refine Docket.turn_move hx ?_
    rw [hfate]
    exact .giveUp t
  | finish hand ready e =>
    obtain ⟨x, hx, -, hfate⟩ := h.hand hand
    refine Docket.turn_move hx ?_
    rw [hfate]
    refine .finish t ?_
    cases e <;> exact nofun

theorem Kept.turn (h : m.Kept i d) (hd : m.Duty (some (i, notice)) m') :
    d.Turn notice (d.after notice) := by
  generalize he : some (i, notice) = e at hd
  cases hd with
  | apart _ | pass _ _ | found _ | start _ _ | stop _ | leave _ _ _ | lag _ _ => cases he
  | send message placed =>
    cases he
    exact .still trivial
  | @receive _ j _ _ message task placed next =>
    cases he
    unfold arrival
    split
    · exact .call (m.fateFor_cases _)
    · exact .still trivial
  | call message placed =>
    cases he
    exact .call (m.fateFor_cases _)
  | resume placed underWay =>
    cases he
    exact .call (m.fateFor_cases _)
  | enter message placed opened =>
    cases he
    exact .still trivial
  | read task placed next takes opened =>
    cases he
    exact .still trivial
  | close placed =>
    cases he
    exact .still trivial
  | sever placed closed =>
    cases he
    exact .still trivial
  | fail single worker task =>
    cases he
    exact .still trivial
  | @work t j a a' notice' _ hw =>
    cases notice' with
    | none => cases he
    | some notice' =>
      cases he
      exact h.turn_work hw

end Mesh

namespace Service

variable (h : Service) {i n k p : Nat} {x : Intake} {notice : Notice}

/-- The docket moves with what happens at its station, and stays as it is otherwise. -/
theorem docket_succ (i n : Nat) :
    (∃ notice, h.event n = some (i, notice) ∧ (h.docket i n).Turn notice (h.docket i (n + 1))) ∨
      (∀ notice, h.event n ≠ some (i, notice)) ∧ h.docket i (n + 1) = h.docket i n := by
  have hfollow : h.docket i (n + 1) = (h.docket i n).follow i (h.event n) := rfl
  cases hevent : h.event n with
  | none =>
    rw [hfollow, hevent]
    refine Or.inr ⟨?_, rfl⟩
    intro notice heq
    cases heq
  | some e =>
    obtain ⟨j, notice⟩ := e
    rw [hfollow, hevent]
    by_cases hj : j = i
    · subst hj
      have hstep := h.step n
      rw [hevent] at hstep
      refine Or.inl ⟨notice, rfl, ?_⟩
      rw [Docket.follow_own]
      exact (h.kept j n).turn hstep
    · refine Or.inr ⟨?_, Docket.follow_of_ne _ hj notice⟩
      intro notice' heq
      cases heq
      exact hj rfl

theorem docket_of_event (he : h.event n = some (i, notice)) :
    h.docket i (n + 1) = (h.docket i n).after notice := by
  have hfollow : h.docket i (n + 1) = (h.docket i n).follow i (h.event n) := rfl
  rw [hfollow, he, Docket.follow_own]

theorem docket_of_move {t : Nat} {f : Fate} (he : h.event n = some (i, notice))
    (hmove : (h.docket i n).after notice = (h.docket i n).move t f)
    (hx : (h.docket i n)[p]? = some x) (hholder : x.fate.holder? = some t) :
    (h.docket i (n + 1))[p]? = some { x with fate := f } := by
  rw [h.docket_of_event he, hmove, Docket.getElem?_move, hx, Option.map_some, if_pos hholder]

theorem docket_invoked {t : Nat} {id : HandlerId} (he : h.event n = some (i, .invoked t id))
    (hx : (h.docket i n)[p]? = some x) (hholder : x.fate.holder? = some t) :
    (h.docket i (n + 1))[p]? = some { x with fate := .invoked t } :=
  h.docket_of_move he rfl hx hholder

theorem docket_ended {t : Nat} {e : DispatchEnd} (he : h.event n = some (i, .ended t e))
    (hx : (h.docket i n)[p]? = some x) (hholder : x.fate.holder? = some t) :
    (h.docket i (n + 1))[p]? = some { x with fate := .ended e } :=
  h.docket_of_move he rfl hx hholder

/-- What a step does to one message. -/
theorem fate_succ (hx : (h.docket i n)[p]? = some x) :
    (h.docket i (n + 1))[p]? = some x ∨ ∃ notice f, h.event n = some (i, notice) ∧
      x.fate.Advances notice f ∧ (h.docket i (n + 1))[p]? = some { x with fate := f } := by
  obtain ⟨notice, hevent, hturn⟩ | ⟨-, heq⟩ := h.docket_succ i n
  · obtain ⟨f, hf, rfl | hadvances⟩ := hturn.getElem? hx
    · exact Or.inl hf
    · exact Or.inr ⟨notice, f, hevent, hadvances, hf⟩
  · rw [heq]
    exact Or.inl hx

theorem docket_getElem? (hx : (h.docket i n)[p]? = some x) (hk : n ≤ k) :
    ∃ f, (h.docket i k)[p]? = some { x with fate := f } := by
  induction hk with
  | refl => exact ⟨x.fate, hx⟩
  | step _ ih =>
    obtain ⟨f, hf⟩ := ih
    rcases h.fate_succ hf with hsame | ⟨-, f', -, -, hf'⟩
    · exact ⟨f, hsame⟩
    · exact ⟨f', hf'⟩

theorem docket_of_isOver (hx : (h.docket i n)[p]? = some x) (hover : x.fate.IsOver) (hk : n ≤ k) :
    (h.docket i k)[p]? = some x := by
  induction hk with
  | refl => exact hx
  | step _ ih =>
    rcases h.fate_succ ih with hsame | ⟨_, _, -, hadvances, -⟩
    · exact hsame
    · exact absurd hover hadvances.not_isOver

end Service

end ClusterMesh
