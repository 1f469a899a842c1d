import ClusterMesh.Proofs.Dispatch.Fates

/-!
# Counting what happens

What was noticed at a station, and how its docket counts it: each call is a message in the docket,
and each message that has ended did so once.
-/

namespace ClusterMesh

namespace Notice

def isCall : Notice → Bool
  | called _ => true
  | _ => false

def isRefusal : Notice → Bool
  | called x => x.fate == .refused
  | _ => false

/-- A message is handed to a handler. -/
def isInvocation : Notice → Bool
  | invoked _ _ => true
  | _ => false

def isEnd (e : DispatchEnd) : Notice → Bool
  | ended _ e' => e' == e
  | _ => false

end Notice

/-- A handler has the message. -/
def Fate.isInvoked : Fate → Bool
  | invoked _ => true
  | _ => false

namespace Docket

variable {d d' : Docket} {l : List Notice} {notice : Notice}

/-- How many messages have met a fate. -/
def count (d : Docket) (p : Fate → Bool) : Nat := d.countP (fun x => p x.fate)

/-- A docket counts what was noticed. -/
structure Counts (d : Docket) (l : List Notice) : Prop where
  calls : l.countP Notice.isCall = d.length
  refusals : l.countP Notice.isRefusal = d.count (· == .refused)
  ends : ∀ e, l.countP (Notice.isEnd e) = d.count (· == .ended e)
  invocations : l.countP Notice.isInvocation = d.count Fate.isInvoked +
    (d.count (· == .ended .handled) + d.count (· == .ended .failed) +
      d.count (· == .ended .panicked))

theorem count_append (d d' : Docket) (p : Fate → Bool) :
    (d ++ d').count p = d.count p + d'.count p :=
  List.countP_append ..

theorem count_cons (x : Intake) (d : Docket) (p : Fate → Bool) :
    count (x :: d) p = d.count p + if p x.fate then 1 else 0 :=
  List.countP_cons ..

theorem count_nil (p : Fate → Bool) : count [] p = 0 := rfl

theorem countP_snoc (p : Notice → Bool) (l : List Notice) (notice : Notice) :
    (l ++ [notice]).countP p = l.countP p + if p notice then 1 else 0 := by
  rw [List.countP_append, List.countP_singleton]

theorem Counts.quiet (h : d.Counts l) (hquiet : notice.IsQuiet) : d.Counts (l ++ [notice]) := by
  refine ⟨?_, ?_, fun e => ?_, ?_⟩
  · rw [countP_snoc, h.calls]
    cases notice <;> first | rfl | exact hquiet.elim
  · rw [countP_snoc, h.refusals]
    cases notice <;> first | rfl | exact hquiet.elim
  · rw [countP_snoc, h.ends]
    cases notice <;> first | rfl | exact hquiet.elim
  · rw [countP_snoc, h.invocations]
    cases notice <;> first | rfl | exact hquiet.elim

theorem Counts.call (h : d.Counts l) {x : Intake}
    (hx : x.fate = .refused ∨ x.fate = .queued ∨ ∃ t, x.fate = .taken t) :
    (d ++ [x]).Counts (l ++ [.called x]) := by
  have hended : ∀ e, (x.fate == .ended e) = false := by
    intro e
    obtain hx | hx | ⟨t, hx⟩ := hx <;> rw [hx] <;> rfl
  have hinvoked : x.fate.isInvoked = false := by
    obtain hx | hx | ⟨t, hx⟩ := hx <;> rw [hx] <;> rfl
  refine ⟨?_, ?_, fun e => ?_, ?_⟩
  · rw [countP_snoc, h.calls, List.length_append]
    rfl
  · rw [countP_snoc, h.refusals, count_append, count_cons, count_nil, Nat.zero_add]
    rfl
  · rw [countP_snoc, h.ends, count_append, count_cons, hended]
    rfl
  · simp only [countP_snoc, h.invocations, count_append, count_cons, count_nil, hended, hinvoked]
    rfl

theorem Counts.change {d₁ d₂ : Docket} {x : Intake} {f : Fate} (h : Counts (d₁ ++ x :: d₂) l)
    (hf : x.fate.Advances notice f) :
    Counts (d₁ ++ { x with fate := f } :: d₂) (l ++ [notice]) := by
  obtain ⟨message, origin, f₀⟩ := x
  obtain ⟨hcalls, hrefusals, hends, hinvocations⟩ := h
  simp only [List.length_append, List.length_cons, count_append, count_cons] at *
  refine ⟨?_, ?_, fun e => ?_, ?_⟩
  · rw [countP_snoc, hcalls, List.length_append, List.length_cons]
    cases hf <;> rfl
  · rw [countP_snoc, hrefusals, count_append, count_cons]
    cases hf <;> rfl
  · rw [countP_snoc, hends, count_append, count_cons]
    cases hf with
    | take t | invoke t id => rfl
    | giveUp t | finish t ran =>
      simp [Notice.isEnd]
      omega
  · simp only [countP_snoc, hinvocations, count_append, count_cons]
    cases hf with
    | take t | giveUp t => rfl
    | invoke t id =>
      simp [Notice.isInvocation, Fate.isInvoked]
      omega
    | @finish t e ran =>
      cases e with
      | unhandled => exact absurd rfl ran
      | _ =>
        simp [Notice.isInvocation, Fate.isInvoked]
        omega

theorem Counts.turn (h : d.Counts l) (ht : d.Turn notice d') : d'.Counts (l ++ [notice]) := by
  cases ht with
  | call new => exact h.call new
  | change advances => exact h.change advances
  | still quiet => exact h.quiet quiet

theorem length_eq (d : Docket) :
    d.length = d.count (· == .refused) + d.count Fate.isOpen +
      (d.count (· == .ended .handled) + d.count (· == .ended .failed) +
        d.count (· == .ended .panicked) + d.count (· == .ended .unhandled)) := by
  induction d with
  | nil => rfl
  | cons x d ih =>
    simp only [List.length_cons, count_cons, ih]
    cases x.fate with
    | ended e => cases e <;> simp [Fate.isOpen] <;> omega
    | _ =>
      simp [Fate.isOpen]
      omega

/-- The counters by the fates of the messages. -/
theorem stats_eq (d : Docket) : d.stats =
    ⟨d.count (· == .ended .handled) + d.count (· == .ended .failed),
      d.count (· == .refused) + d.count (· == .ended .unhandled),
      d.count (· == .ended .failed) + d.count (· == .ended .panicked), d.count Fate.isOpen⟩ := by
  induction d with
  | nil => rfl
  | cons x d ih =>
    have hcons : stats (x :: d) = (stats ([x] ++ d)) := rfl
    rw [hcons, stats_append, ih]
    simp only [count_cons, DispatchStats.mk.injEq]
    cases hx : x.fate with
    | ended e => cases e <;> simp [stats, hx, Fate.isOpen] <;> omega
    | _ =>
      simp [stats, hx, Fate.isOpen]
      omega

theorem count_isOpen_eq_zero (d : Docket) : d.count Fate.isOpen = 0 ↔ ∀ x ∈ d, x.fate.IsOver := by
  simp [count, List.countP_eq_zero, Fate.isOver_iff]

theorem Turn.count_isOpen_pos {t : Nat} {e : DispatchEnd} (h : d.Turn (.ended t e) d') :
    0 < d.count Fate.isOpen := by
  cases h with
  | @change d₁ d₂ x _ f hadvances =>
    have hopen : x.fate.isOpen = true := by
      have hover := hadvances.not_isOver
      rwa [Fate.isOver_iff, Bool.not_eq_false] at hover
    rw [count_append, count_cons, hopen, if_pos rfl]
    omega
  | still hquiet => exact hquiet.elim

end Docket

namespace Service

/-- What was noticed at a station before a step. -/
def notices (h : Service) (i : Nat) : Nat → List Notice
  | 0 => []
  | n + 1 =>
    match h.event n with
    | some (j, notice) => if j = i then notices h i n ++ [notice] else notices h i n
    | none => notices h i n

variable (h : Service) {i n : Nat} {notice : Notice}

theorem notices_succ_of_event (he : h.event n = some (i, notice)) :
    h.notices i (n + 1) = h.notices i n ++ [notice] := by
  simp [notices, he]

theorem notices_succ_of_other (he : ∀ notice, h.event n ≠ some (i, notice)) :
    h.notices i (n + 1) = h.notices i n := by
  simp only [notices]
  split
  · next j notice heq =>
    refine if_neg fun hj => ?_
    rw [hj] at heq
    exact he notice heq
  · rfl

/-- The docket is what the notices make of it. -/
theorem docket_eq_foldl (i n : Nat) :
    h.docket i n = (h.notices i n).foldl Docket.after [] := by
  induction n with
  | zero => rfl
  | succ n ih =>
    have hfollow : h.docket i (n + 1) = (h.docket i n).follow i (h.event n) := rfl
    by_cases hnone : ∀ notice, h.event n ≠ some (i, notice)
    · rw [h.notices_succ_of_other hnone, ← ih, hfollow]
      cases hevent : h.event n with
      | none => rfl
      | some e =>
        obtain ⟨j, notice⟩ := e
        refine Docket.follow_of_ne _ (fun hj => ?_) notice
        rw [hj] at hevent
        exact hnone notice hevent
    · obtain ⟨notice, hevent⟩ := not_forall_not.mp hnone
      rw [h.notices_succ_of_event hevent, List.foldl_append, ← ih, hfollow, hevent,
        Docket.follow_own]
      rfl

/-- The docket counts what was noticed. -/
theorem counts (i n : Nat) : (h.docket i n).Counts (h.notices i n) := by
  induction n with
  | zero => exact ⟨rfl, rfl, fun _ => rfl, rfl⟩
  | succ n ih =>
    obtain ⟨notice, hevent, hturn⟩ | ⟨hnone, heq⟩ := h.docket_succ i n
    · rw [h.notices_succ_of_event hevent]
      exact ih.turn hturn
    · rw [h.notices_succ_of_other hnone, heq]
      exact ih

end Service

end ClusterMesh
