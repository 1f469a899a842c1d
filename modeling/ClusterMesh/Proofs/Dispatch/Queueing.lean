import ClusterMesh.Proofs.Dispatch.Ending

/-!
# The queue moves on

A message in the hands of a task ends when the work of the task does. A message in the queue comes
to its turn: the worker ends its work on each earlier message and takes the next one.
-/

namespace ClusterMesh

namespace Docket

variable {d d₁ d₂ : Docket} {t p : Nat} {x : Intake} {f : Fate} {notice : Notice}

/-- How many messages wait before a place in the docket. -/
def ahead (d : Docket) (p : Nat) : Nat := (queued (List.take p d)).length

theorem ahead_move (hf : f.isQueued = false) (d : Docket) (t p : Nat) :
    (d.move t f).ahead p = d.ahead p := by
  have htake : List.take p (d.move t f) = move (List.take p d) t f := List.map_take.symm
  rw [ahead, htake, queued_move hf, ahead]

theorem ahead_split (hx : x.fate = .queued) (hf : f.isQueued = false) (hp : d₁.length < p) :
    ahead (d₁ ++ { x with fate := f } :: d₂) p < ahead (d₁ ++ x :: d₂) p := by
  obtain ⟨q, rfl⟩ : ∃ q, p = d₁.length + (q + 1) := ⟨p - d₁.length - 1, by omega⟩
  have hqueued : x.fate.isQueued = true := by rw [hx]; rfl
  simp only [ahead, List.take_length_add_append, List.take_succ_cons, queued_append, queued_cons,
    hqueued, hf, if_true, List.length_append, List.length_cons]
  simp

theorem ahead_take (hx : d[p]? = some x) (hqueued : x.fate = .queued)
    (hstill : (d.take t)[p]? = some x) : (d.take t).ahead p < d.ahead p := by
  cases hd : d.queued with
  | nil =>
    have hnot := List.filter_eq_nil_iff.mp hd x (List.mem_of_getElem? hx)
    rw [hqueued] at hnot
    exact absurd rfl hnot
  | cons y rest =>
    obtain ⟨d₁, d₂, rfl, hy, hd₁, -, htake⟩ := take_split t hd
    rw [htake] at hstill ⊢
    refine ahead_split hy rfl ?_
    rcases Nat.lt_trichotomy p d₁.length with hlt | heq | hgt
    · rw [List.getElem?_append_left hlt] at hx
      have hnot := List.filter_eq_nil_iff.mp hd₁ x (List.mem_of_getElem? hx)
      rw [hqueued] at hnot
      exact absurd rfl hnot
    · subst heq
      rw [List.getElem?_append_right (Nat.le_refl _), Nat.sub_self] at hstill
      cases Option.some.inj hstill
      cases hqueued
    · exact hgt

theorem ahead_after (hx : d[p]? = some x) (hqueued : x.fate = .queued)
    (hstill : (d.after notice)[p]? = some x) : (d.after notice).ahead p ≤ d.ahead p := by
  cases notice with
  | called y =>
    obtain ⟨hlt, -⟩ := List.getElem?_eq_some_iff.mp hx
    simp [after, ahead, List.take_append_of_le_length (Nat.le_of_lt hlt)]
  | took t => exact Nat.le_of_lt (ahead_take hx hqueued hstill)
  | invoked t id => exact Nat.le_of_eq (ahead_move rfl d t p)
  | ended t e => exact Nat.le_of_eq (ahead_move rfl d t p)
  | _ => exact Nat.le_refl _

end Docket

namespace Service

variable {h : Service} {i n k p t : Nat} {x : Intake}

theorem held_or_ended (h : Service) (hx : (h.docket i n)[p]? = some x)
    (hholder : x.fate.holder? = some t) (hk : n ≤ k) :
    (∃ q e, n ≤ q ∧ (h.docket i q)[p]? = some { x with fate := .ended e }) ∨
      ∃ f, (h.docket i k)[p]? = some { x with fate := f } ∧ f.holder? = some t := by
  induction hk with
  | refl => exact Or.inr ⟨x.fate, hx, hholder⟩
  | @step k hk ih =>
    rcases ih with hended | ⟨f, hf, hft⟩
    · exact Or.inl hended
    · rcases h.fate_succ hf with hsame | ⟨notice, f', -, hadvances, hf'⟩
      · exact Or.inr ⟨f, hsame, hft⟩
      · cases hadvances with
        | take u => cases hft
        | invoke u id => exact Or.inr ⟨.invoked u, hf', hft⟩
        | giveUp u => exact Or.inl ⟨k + 1, _, Nat.le_succ_of_le hk, hf'⟩
        | finish u ran => exact Or.inl ⟨k + 1, _, Nat.le_succ_of_le hk, hf'⟩

theorem Fair.ends_of_held (hf : h.Fair i) (hs : h.Keeps i) (hx : (h.docket i n)[p]? = some x)
    (hholder : x.fate.holder? = some t) :
    ∃ q e, n ≤ q ∧ (h.docket i q)[p]? = some { x with fate := .ended e } := by
  have hheld : (h.docket i n).held t ≠ [] := by
    intro hnil
    exact Docket.held_eq_nil.mp hnil x (List.mem_of_getElem? hx) hholder
  obtain ⟨a, job, htask, hjob⟩ := (hs.tended n).held hheld
  obtain ⟨k, e, hk, hevent⟩ := hf.ends_of_job hs htask hjob
  rcases h.held_or_ended hx hholder hk with hended | ⟨f, hf', hft⟩
  · exact hended
  · have hended := h.docket_ended hevent hf' hft
    exact ⟨k + 1, e, Nat.le_succ_of_le hk, hended⟩

/-! ### Messages that wait -/

theorem Keeps.worker_of_queued (hs : h.Keeps i) (hx : (h.docket i n)[p]? = some x)
    (hqueued : x.fate = .queued) : ((h.state n).station i).dispatcher.queue ≠ [] ∧
      ∃ (w : Nat) (job : Option Job), ((h.state n).station i).worker = some w ∧
        (h.state n).tasks[w]? = some ⟨i, .working job, false⟩ := by
  have hkept := h.kept i n
  have hmem : x ∈ (h.docket i n).queued :=
    List.mem_filter.mpr ⟨List.mem_of_getElem? hx, by rw [hqueued]; rfl⟩
  have hqueue : ((h.state n).station i).dispatcher.queue ≠ [] := by
    rw [hkept.queue]
    intro hnil
    rw [List.map_eq_nil_iff.mp hnil] at hmem
    cases hmem
  refine ⟨hqueue, ?_⟩
  cases hpool : ((h.state n).station i).dispatcher.pool with
  | cached =>
    rw [hkept.cached hpool] at hmem
    cases hmem
  | single =>
    exact ((hs.tended n).worker hpool).resolve_left fun hdone => hqueue hdone.2

theorem Fair.takes_of_free (hf : h.Fair i) (hs : h.Keeps i)
    (htask : (h.state n).tasks[t]? = some ⟨i, .working none, false⟩)
    (hqueue : ∀ k, n ≤ k → ((h.state k).station i).dispatcher.queue ≠ []) :
    ∃ k, n ≤ k ∧ h.event k = some (i, .took t) := by
  obtain ⟨k, notice, a', hk, hevent, hw, hne⟩ :=
    hf.works hs htask trivial fun k hk _ => hqueue k hk
  generalize h.state (k + 1) = m' at hw
  cases hw with
  | take ready task next => exact ⟨k, hk, hevent⟩
  | window hand _ | invoke hand _ _ _ | search hand _ _ _ | giveUp hand _ _ _ | finish hand _ _
  | rest hand _ => cases hand.job
  | idle _ _ => exact absurd rfl hne
  | quit task empty severed => exact absurd empty (hqueue k hk)

/-- As long as a message waits, the worker takes another one sooner or later. -/
theorem Fair.takes (hf : h.Fair i) (hs : h.Keeps i)
    (hwaits : ∀ k, n ≤ k → (h.docket i k)[p]? = some x) (hqueued : x.fate = .queued) (hk : n ≤ k) :
    ∃ q t, k ≤ q ∧ h.event q = some (i, .took t) := by
  have hqueue : ∀ q, n ≤ q → ((h.state q).station i).dispatcher.queue ≠ [] := fun q hq =>
    (hs.worker_of_queued (hwaits q hq) hqueued).1
  obtain ⟨-, w, job, hworker, htask⟩ := hs.worker_of_queued (hwaits k hk) hqueued
  cases job with
  | none =>
    obtain ⟨q, hq, hevent⟩ := hf.takes_of_free hs htask fun q hq => hqueue q (Nat.le_trans hk hq)
    exact ⟨q, w, hq, hevent⟩
  | some job =>
    obtain ⟨q, e, hq, hevent⟩ := hf.ends_of_job hs htask rfl
    have hstep := h.step q
    rw [hevent] at hstep
    obtain ⟨a, hbefore, hlaid⟩ := hstep.ended
    obtain ⟨-, w', job', hworker', htask'⟩ :=
      hs.worker_of_queued (hwaits q (Nat.le_trans hk hq)) hqueued
    have hi := ((h.kept i k).duty htask trivial).1
    rw [h.worker_of_le hi hq, hworker] at hworker'
    obtain rfl := Option.some.inj hworker'
    obtain rfl : a = .working job' :=
      congrArg Task.activity (Option.some.inj (hbefore.symm.trans htask'))
    obtain ⟨r, hr, hevent'⟩ := hf.takes_of_free hs hlaid fun r hr => hqueue r (by omega)
    exact ⟨r, w, by omega, hevent'⟩

theorem ahead_le (hwaits : ∀ k, n ≤ k → (h.docket i k)[p]? = some x) (hqueued : x.fate = .queued)
    {q : Nat} (hk : n ≤ k) (hq : k ≤ q) : (h.docket i q).ahead p ≤ (h.docket i k).ahead p := by
  induction hq with
  | refl => exact Nat.le_refl _
  | @step q hq ih =>
    refine Nat.le_trans ?_ ih
    have hnow := hwaits q (Nat.le_trans hk hq)
    have hthen := hwaits (q + 1) (Nat.le_succ_of_le (Nat.le_trans hk hq))
    have hfollow : h.docket i (q + 1) = (h.docket i q).follow i (h.event q) := rfl
    rw [hfollow] at hthen ⊢
    cases hevent : h.event q with
    | none => exact Nat.le_refl _
    | some e =>
      obtain ⟨j, notice⟩ := e
      rw [hevent] at hthen
      by_cases hj : j = i
      · subst hj
        rw [Docket.follow_own] at hthen ⊢
        exact Docket.ahead_after hnow hqueued hthen
      · apply Nat.le_of_eq
        rw [Docket.follow_of_ne _ hj]

/-- No message waits for ever: fewer and fewer messages wait before it. -/
theorem Fair.not_waits (hf : h.Fair i) (hs : h.Keeps i)
    (hwaits : ∀ k, n ≤ k → (h.docket i k)[p]? = some x) (hqueued : x.fate = .queued) (c : Nat)
    (hk : n ≤ k) (hc : (h.docket i k).ahead p = c) : False := by
  induction c using Nat.strongRecOn generalizing k with
  | ind c ih =>
    obtain ⟨q, t, hq, hevent⟩ := hf.takes hs hwaits hqueued hk
    have hpast : n ≤ q := Nat.le_trans hk hq
    have hthen := hwaits (q + 1) (Nat.le_succ_of_le hpast)
    have hafter := h.docket_of_event hevent
    rw [hafter] at hthen
    have hlt : (h.docket i (q + 1)).ahead p < (h.docket i q).ahead p := by
      rw [hafter]
      exact Docket.ahead_take (hwaits q hpast) hqueued hthen
    have hle := ahead_le hwaits hqueued hk hq
    rw [hc] at hle
    exact ih _ (Nat.lt_of_lt_of_le hlt hle) (Nat.le_succ_of_le hpast) rfl

theorem Fair.leaves_queue (hf : h.Fair i) (hs : h.Keeps i) (hx : (h.docket i n)[p]? = some x)
    (hqueued : x.fate = .queued) :
    ∃ k t, n ≤ k ∧ (h.docket i k)[p]? = some { x with fate := .taken t } := by
  by_contra hnever
  have hwaits : ∀ k, n ≤ k → (h.docket i k)[p]? = some x := by
    intro k hk
    induction hk with
    | refl => exact hx
    | @step k hk ih =>
      rcases h.fate_succ ih with hsame | ⟨notice, f, -, hadvances, hf'⟩
      · exact hsame
      · rw [hqueued] at hadvances
        cases hadvances with
        | take t => exact absurd ⟨k + 1, t, Nat.le_succ_of_le hk, hf'⟩ hnever
  exact hf.not_waits hs hwaits hqueued _ (Nat.le_refl n) rfl

/-- The work on every message that was accepted ends. -/
theorem Fair.ends_of_open (hf : h.Fair i) (hs : h.Keeps i) (hx : (h.docket i n)[p]? = some x)
    (hopen : x.fate.isOpen = true) :
    ∃ q e, n ≤ q ∧ (h.docket i q)[p]? = some { x with fate := .ended e } := by
  cases hholder : x.fate.holder? with
  | some t => exact hf.ends_of_held hs hx hholder
  | none =>
    have hqueued : x.fate = .queued := by
      cases hfate : x.fate <;> simp_all [Fate.holder?, Fate.isOpen]
    obtain ⟨k, t, hk, htaken⟩ := hf.leaves_queue hs hx hqueued
    obtain ⟨q, e, hq, hended⟩ := hf.ends_of_held hs htaken rfl
    exact ⟨q, e, Nat.le_trans hk hq, hended⟩

end Service

end ClusterMesh
