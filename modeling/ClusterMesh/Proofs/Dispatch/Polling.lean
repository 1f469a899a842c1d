import ClusterMesh.Proofs.Dispatch.Seeking
import ClusterMesh.Proofs.Dispatch.Trail

/-!
# How long a handler is sought

When a task begins to seek a handler for its message, a window opens. The handler is looked up at
once, then once in every interval and a last time when the window closes, and at no other instant.
The first look-up that finds a handler hands the message over, once; if the last one fails, the
message is dropped at that instant and no handler ever gets it.
-/

namespace ClusterMesh.Service

variable {h : Service} {i p q n k t : Nat} {x : Intake} {id : HandlerId}

open Classical in
/-- The steps before a step at which a handler was looked up for a message, in their order. -/
noncomputable def lookups (h : Service) (i p : Nat) : Nat → List Nat
  | 0 => []
  | n + 1 => if h.LooksUp i p n then lookups h i p n ++ [n] else lookups h i p n

/-- When the window that opens at a step closes. -/
def closing (h : Service) (i q : Nat) : Nat :=
  (h.state q).now + ((h.state q).station i).dispatcher.timeout

/-- When a handler is looked up for a message whose window opens at a step. -/
def lookupInstant (h : Service) (i q k : Nat) : Nat :=
  (h.state q).now + min (k * ((h.state q).station i).dispatcher.interval)
    ((h.state q).station i).dispatcher.timeout

/-- A handler is still sought. All look-ups were made at their instants, before the window closes,
and failed; the next one is not overdue and at most an interval away. -/
structure Sought (h : Service) (i p q n : Nat) (x : Intake) (t : Nat) : Prop where
  searches : h.Searches i p n x t (h.closing i q) (h.lookupInstant i q (h.lookups i p n).length)
  instants : (h.lookups i p n).map (fun s => (h.state s).now) =
    (List.range (h.lookups i p n).length).map (h.lookupInstant i q)
  missed : ∀ s ∈ h.lookups i p n, h.handlerFor? i s x = none
  before : ∀ k < (h.lookups i p n).length, h.lookupInstant i q k < h.closing i q
  punctual : (h.state n).now ≤ h.lookupInstant i q (h.lookups i p n).length
  near : h.lookupInstant i q (h.lookups i p n).length ≤
    (h.state n).now + ((h.state q).station i).dispatcher.interval

/-- The last look-up found a handler, which gets the message in that step and in no other. -/
structure Delivered (h : Service) (i p q n : Nat) (x : Intake) (t s : Nat) (id : HandlerId) :
    Prop where
  sought : h.Sought i p q s x t
  last : h.lookups i p n = h.lookups i p s ++ [s]
  instant : (h.state s).now = h.lookupInstant i q (h.lookups i p s).length
  found : h.handlerFor? i s x = some id
  event : h.event s = some (i, .invoked t id)
  once : ∀ r id', h.HandsOver i p r id' ↔ r = s ∧ id' = id

/-- The look-up at the end of the window failed. The message is dropped in that step, and no handler
gets it in any. -/
structure Dropped (h : Service) (i p q n : Nat) (x : Intake) (t s : Nat) : Prop where
  sought : h.Sought i p q s x t
  last : h.lookups i p n = h.lookups i p s ++ [s]
  instant : (h.state s).now = h.lookupInstant i q (h.lookups i p s).length
  closed : (h.state s).now = h.closing i q
  missed : h.handlerFor? i s x = none
  event : h.event s = some (i, .ended t .unhandled)
  never : ∀ r id, ¬h.HandsOver i p r id

/-- The look-ups for a message whose window opens at a step, and what they lead to. -/
structure Polls (h : Service) (i p q : Nat) (x : Intake) (t : Nat) : Prop where
  instants : ∀ n, (h.lookups i p n).map (fun s => (h.state s).now) =
    (List.range (h.lookups i p n).length).map (h.lookupInstant i q)
  bounded : ∀ n, (h.lookups i p n).length ≤ (((h.state q).station i).dispatcher.timeout +
    ((h.state q).station i).dispatcher.interval - 1) /
      ((h.state q).station i).dispatcher.interval + 1
  course : ∀ n, q < n → h.Sought i p q n x t ∨ (∃ s id, h.Delivered i p q n x t s id) ∨
    ∃ s, h.Dropped i p q n x t s
  ends : ∀ n, h.closing i q < (h.state n).now →
    (∃ s id, h.Delivered i p q n x t s id) ∨ ∃ s, h.Dropped i p q n x t s
  comes : (∀ instant, ∃ n, instant ≤ (h.state n).now) →
    ∃ n, (∃ s id, h.Delivered i p q n x t s id) ∨ ∃ s, h.Dropped i p q n x t s
  finds : ∀ b id, q < b → (h.docket i b)[p]? = some x →
    (∀ s, b ≤ s → (h.state s).now ≤ h.closing i q → h.handlerFor? i s x = some id) →
    ∀ n, min ((h.state b).now + ((h.state q).station i).dispatcher.interval) (h.closing i q) <
        (h.state n).now →
      ∃ s, b ≤ s ∧ s < n ∧ h.HandsOver i p s id ∧
        (h.state s).now ≤ (h.state b).now + ((h.state q).station i).dispatcher.interval

/-! ### The steps of the look-ups -/

theorem lookups_succ_of_looksUp (hlook : h.LooksUp i p n) :
    h.lookups i p (n + 1) = h.lookups i p n ++ [n] := if_pos hlook

theorem lookups_succ_of_not (hlook : ¬h.LooksUp i p n) :
    h.lookups i p (n + 1) = h.lookups i p n := if_neg hlook

theorem mem_lookups {s : Nat} : s ∈ h.lookups i p n ↔ s < n ∧ h.LooksUp i p s := by
  induction n with
  | zero => simp [lookups]
  | succ n ih =>
    rw [Nat.lt_succ_iff_lt_or_eq]
    by_cases hlook : h.LooksUp i p n
    · rw [lookups_succ_of_looksUp hlook, List.mem_append, List.mem_singleton, ih, or_and_right]
      refine or_congr_right ⟨?_, And.left⟩
      rintro rfl
      exact ⟨rfl, hlook⟩
    · rw [lookups_succ_of_not hlook, ih, or_and_right]
      refine ⟨Or.inl, fun hor => hor.elim id ?_⟩
      rintro ⟨rfl, hs⟩
      exact absurd hs hlook

theorem lookups_eq_of_le (hk : n ≤ k) (hnone : ∀ s, n ≤ s → s < k → ¬h.LooksUp i p s) :
    h.lookups i p k = h.lookups i p n := by
  induction hk with
  | refl => rfl
  | @step k hk ih =>
    rw [lookups_succ_of_not (hnone k hk (Nat.lt_succ_self k))]
    exact ih fun s hle hlt => hnone s hle (Nat.lt_succ_of_lt hlt)

/-! ### The instants of the look-ups -/

theorem lookupInstant_zero (h : Service) (i q : Nat) : h.lookupInstant i q 0 = (h.state q).now := by
  rw [lookupInstant, Nat.zero_mul, Nat.zero_min, Nat.add_zero]

theorem lookupInstant_le_closing (h : Service) (i q k : Nat) :
    h.lookupInstant i q k ≤ h.closing i q :=
  Nat.add_le_add_left (Nat.min_le_right _ _) _

theorem mul_lt_of_lookupInstant_lt (hlt : h.lookupInstant i q k < h.closing i q) :
    k * ((h.state q).station i).dispatcher.interval <
      ((h.state q).station i).dispatcher.timeout := by
  rw [lookupInstant, closing] at hlt
  omega

/-- The next look-up is an interval later, but not after the window closes. -/
theorem lookupInstant_succ (hlt : h.lookupInstant i q k < h.closing i q) :
    min (h.lookupInstant i q k + ((h.state q).station i).dispatcher.interval) (h.closing i q) =
      h.lookupInstant i q (k + 1) := by
  have hmul := mul_lt_of_lookupInstant_lt hlt
  rw [lookupInstant, lookupInstant, closing, Nat.succ_mul]
  omega

/-! ### Before the window opens, and after the search -/

theorem rank_le_one_of_taken {y : Intake} (hx : (h.docket i n)[p]? = some x)
    (hy : (h.docket i k)[p]? = some y) (hfate : y.fate = .taken t) (hk : n ≤ k) :
    x.fate.rank ≤ 1 := by
  obtain ⟨f, hf, hle⟩ := h.rank_le_of_le hx hk
  obtain rfl : y = { x with fate := f } := Option.some.inj (hy.symm.trans hf)
  obtain rfl : f = .taken t := hfate
  exact hle

theorem not_looksUp_of_rank (hx : (h.docket i n)[p]? = some x) (hrank : 2 ≤ x.fate.rank)
    (hk : n ≤ k) : ¬h.LooksUp i p k := by
  intro hlook
  obtain ⟨y, t, deadline, next, hsearches⟩ := hlook.searches
  exact absurd (rank_le_one_of_taken hx hsearches.entry hsearches.fate hk) (Nat.not_le.mpr hrank)

theorem not_handsOver_of_rank (hx : (h.docket i n)[p]? = some x) (hrank : 2 ≤ x.fate.rank)
    (hk : n ≤ k) : ¬h.HandsOver i p k id := by
  intro hover
  obtain ⟨t, y, -, hy, hfate⟩ := hover.taken
  exact absurd (rank_le_one_of_taken hx hy hfate hk) (Nat.not_le.mpr hrank)

theorem not_handsOver_of_taken (hx : (h.docket i n)[p]? = some x) (hfate : x.fate = .taken t)
    (hk : k < n) : ¬h.HandsOver i p k id := by
  rintro ⟨u, y, hevent, hy, hheld⟩
  have hrank := rank_le_one_of_taken (h.docket_invoked hevent hy hheld) hx hfate hk
  exact absurd hrank (by simp [Fate.rank])

/-- A window opens: the task has the message in hand, and looks its handler up at once. -/
structure Opens (h : Service) (i p q : Nat) (x : Intake) (t : Nat) : Prop where
  placed : i < (h.state q).stations.length
  held : (h.docket i q).held t = [x]
  entry : (h.docket i q)[p]? = some x
  fresh : ∀ y u deadline next, ¬h.Searches i p q y u deadline next
  now : (h.state (q + 1)).now = (h.state q).now
  searches : h.Searches i p (q + 1) x t (h.closing i q) (h.state q).now

theorem opens (h : Service) {deadline : Nat} (hopened : h.event q = some (i, .opened t deadline)) :
    ∃ p x, h.Opens i p q x t := by
  have hstep := h.step q
  rw [hopened] at hstep
  obtain ⟨a, message, hand, rfl, hnow, hafter⟩ := hstep.opened
  obtain ⟨x, hx, hmessage, hfate⟩ := (h.kept i q).hand hand
  obtain rfl : x.message = message := hmessage
  have hduty := Activity.isOnDuty_of_job hand.job
  obtain ⟨p, hp⟩ := List.mem_iff_getElem?.mp (List.mem_filter.mp (hx ▸ List.mem_cons_self)).1
  refine ⟨p, x, ((h.kept i q).duty hand.task hduty).1, hx, hp, ?_, hnow, ?_⟩
  · intro y u deadline next hsearches
    obtain rfl : y = x := Option.some.inj (hsearches.entry.symm.trans hp)
    obtain rfl : u = t :=
      Option.some.inj (hsearches.holder.symm.trans (Docket.holder_of_held hx))
    obtain ⟨b, htask, hjob⟩ := hsearches.task
    obtain rfl : b = a := congrArg Task.activity (Option.some.inj (htask.symm.trans hand.task))
    rw [hand.job] at hjob
    cases hjob
  · refine ⟨?_, hfate, _, hafter, a.job?_goOn _⟩
    rw [h.docket_of_event hopened]
    exact hp

namespace Opens

theorem not_looksUp (ho : h.Opens i p q x t) (hs : h.Keeps i)
    (hinterval : 0 < ((h.state q).station i).dispatcher.interval) (hk : n ≤ q) :
    ¬h.LooksUp i p n := by
  intro hlook
  obtain ⟨y, u, deadline, next, hsearches⟩ := hlook.searches
  have hplaced : i < (h.state n).stations.length := by
    obtain ⟨a, htask, hjob⟩ := hsearches.task
    exact ((h.kept i n).duty htask (Activity.isOnDuty_of_job hjob)).1
  have hwindow : ((h.state q).station i).dispatcher.interval =
      ((h.state n).station i).dispatcher.interval := congrArg Prod.fst (h.window_of_le hplaced hk)
  rcases hsearches.until_of_le hs (hwindow ▸ hinterval) hplaced hk with ⟨next', hthen⟩ |
    ⟨z, hz, hrank⟩
  · exact ho.fresh _ _ _ _ hthen
  · obtain rfl : z = x := Option.some.inj (hz.symm.trans ho.entry)
    rw [ho.searches.fate] at hrank
    exact absurd hrank (by simp [Fate.rank])

theorem lookups_eq_nil (ho : h.Opens i p q x t) (hs : h.Keeps i)
    (hinterval : 0 < ((h.state q).station i).dispatcher.interval) (hk : n ≤ q + 1) :
    h.lookups i p n = [] :=
  lookups_eq_of_le (Nat.zero_le n) fun _ _ hlt =>
    ho.not_looksUp hs hinterval (by omega)

/-- When the window has opened the handler is sought. -/
theorem sought (ho : h.Opens i p q x t) (hs : h.Keeps i)
    (hinterval : 0 < ((h.state q).station i).dispatcher.interval) :
    h.Sought i p q (q + 1) x t := by
  have hnil := ho.lookups_eq_nil hs hinterval (Nat.le_refl (q + 1))
  refine ⟨?_, ?_, ?_, ?_, ?_, ?_⟩ <;> rw [hnil]
  · rw [List.length_nil, lookupInstant_zero]
    exact ho.searches
  · rfl
  · exact fun _ hs => (List.not_mem_nil hs).elim
  · exact fun k hk => absurd hk (Nat.not_lt_zero k)
  · rw [List.length_nil, lookupInstant_zero]
    exact Nat.le_of_eq ho.now
  · rw [List.length_nil, lookupInstant_zero, ho.now]
    exact Nat.le_add_right _ _

end Opens

/-! ### How the search goes on -/

theorem Sought.instants_snoc (hq : h.Sought i p q n x t)
    (hdue : h.lookupInstant i q (h.lookups i p n).length = (h.state n).now) :
    (h.lookups i p n ++ [n]).map (fun s => (h.state s).now) =
      (List.range (h.lookups i p n ++ [n]).length).map (h.lookupInstant i q) := by
  rw [List.length_append, List.length_singleton, List.range_succ, List.map_append, List.map_append,
    hq.instants, List.map_singleton, List.map_singleton, hdue]

namespace Sought

/-- The clock does not pass the next look-up. -/
theorem punctual_succ (hq : h.Sought i p q n x t) (hs : h.Keeps i) (ht : h.Timely) :
    (h.state (n + 1)).now ≤ h.lookupInstant i q (h.lookups i p n).length := by
  obtain ⟨a, htask, hjob⟩ := hq.searches.task
  obtain ⟨-, hattentive⟩ := (hs.tended n).attentive htask (Activity.isOnDuty_of_job hjob)
  exact (ht n).le_due (h.now_le_of_le (Nat.le_succ n)) ((Mesh.attentive_of_job hjob).mp hattentive)
    hq.punctual

theorem succ_of_not (hq : h.Sought i p q n x t) (hs : h.Keeps i) (ht : h.Timely)
    (hlook : ¬h.LooksUp i p n)
    (hsearches : h.Searches i p (n + 1) x t (h.closing i q)
      (h.lookupInstant i q (h.lookups i p n).length)) : h.Sought i p q (n + 1) x t := by
  have hsame := lookups_succ_of_not hlook
  have hnow := h.now_le_of_le (Nat.le_succ n)
  refine ⟨?_, ?_, ?_, ?_, ?_, ?_⟩ <;> rw [hsame]
  · exact hsearches
  · exact hq.instants
  · exact hq.missed
  · exact hq.before
  · exact hq.punctual_succ hs ht
  · exact Nat.le_trans hq.near (Nat.add_le_add_right hnow _)

theorem succ_of_missed (hq : h.Sought i p q n x t) (hlook : h.LooksUp i p n)
    (hdue : h.lookupInstant i q (h.lookups i p n).length = (h.state n).now)
    (hnow : (h.state (n + 1)).now = (h.state n).now) (hmissing : h.handlerFor? i n x = none)
    (hbefore : (h.state n).now < h.closing i q)
    (hsearches : h.Searches i p (n + 1) x t (h.closing i q) (min
      ((h.state n).now + ((h.state q).station i).dispatcher.interval) (h.closing i q))) :
    h.Sought i p q (n + 1) x t := by
  have hone := lookups_succ_of_looksUp hlook
  have hlength : (h.lookups i p n ++ [n]).length = (h.lookups i p n).length + 1 := by
    rw [List.length_append, List.length_singleton]
  have hnext : min ((h.state n).now + ((h.state q).station i).dispatcher.interval)
      (h.closing i q) = h.lookupInstant i q ((h.lookups i p n).length + 1) := by
    rw [← hdue] at hbefore ⊢
    exact lookupInstant_succ hbefore
  refine ⟨?_, ?_, ?_, ?_, ?_, ?_⟩ <;> rw [hone]
  · rw [hlength, ← hnext]
    exact hsearches
  · exact hq.instants_snoc hdue
  · intro s hs
    rcases List.mem_append.mp hs with hold | hnew
    · exact hq.missed s hold
    · rw [List.mem_singleton.mp hnew]
      exact hmissing
  · intro k hk
    rw [hlength] at hk
    rcases Nat.lt_succ_iff_lt_or_eq.mp hk with hlt | rfl
    · exact hq.before k hlt
    · rw [hdue]
      exact hbefore
  · rw [hlength, ← hnext, hnow]
    exact Nat.le_min.mpr ⟨Nat.le_add_right _ _, Nat.le_of_lt hbefore⟩
  · rw [hlength, ← hnext, hnow]
    exact Nat.min_le_left _ _

theorem not_handsOver (hq : h.Sought i p q n x t) (hk : k < n) : ¬h.HandsOver i p k id :=
  not_handsOver_of_taken hq.searches.entry hq.searches.fate hk

theorem delivered (hq : h.Sought i p q n x t) (hlook : h.LooksUp i p n)
    (hdue : h.lookupInstant i q (h.lookups i p n).length = (h.state n).now)
    (hfound : h.handlerFor? i n x = some id) (hevent : h.event n = some (i, .invoked t id))
    (hentry : (h.docket i (n + 1))[p]? = some { x with fate := .invoked t }) (hk : n < k) :
    h.Delivered i p q k x t n id where
  sought := hq
  last := by
    rw [← lookups_succ_of_looksUp hlook]
    exact lookups_eq_of_le hk fun _ hle _ => not_looksUp_of_rank hentry (Nat.le_refl 2) hle
  instant := hdue.symm
  found := hfound
  event := hevent
  once := by
    intro r id'
    constructor
    · intro hover
      rcases Nat.lt_trichotomy r n with hlt | rfl | hgt
      · exact absurd hover (hq.not_handsOver hlt)
      · obtain ⟨-, hevent'⟩ := hq.searches.answer_of_handsOver hover
        rw [hevent] at hevent'
        cases hevent'
        exact ⟨rfl, rfl⟩
      · exact absurd hover (not_handsOver_of_rank hentry (Nat.le_refl 2) hgt)
    · rintro ⟨rfl, rfl⟩
      exact ⟨t, x, hevent, hq.searches.entry, hq.searches.holder⟩

theorem dropped (hq : h.Sought i p q n x t) (hlook : h.LooksUp i p n)
    (hdue : h.lookupInstant i q (h.lookups i p n).length = (h.state n).now)
    (hmissing : h.handlerFor? i n x = none) (hafter : h.closing i q ≤ (h.state n).now)
    (hevent : h.event n = some (i, .ended t .unhandled))
    (hentry : (h.docket i (n + 1))[p]? = some { x with fate := .ended .unhandled }) (hk : n < k) :
    h.Dropped i p q k x t n where
  sought := hq
  last := by
    rw [← lookups_succ_of_looksUp hlook]
    exact lookups_eq_of_le hk fun _ hle _ => not_looksUp_of_rank hentry (Nat.le_succ 2) hle
  instant := hdue.symm
  closed := by
    refine Nat.le_antisymm ?_ hafter
    rw [← hdue]
    exact h.lookupInstant_le_closing i q _
  missed := hmissing
  event := hevent
  never := by
    intro r id hover
    rcases Nat.lt_trichotomy r n with hlt | rfl | hgt
    · exact hq.not_handsOver hlt hover
    · obtain ⟨-, hevent'⟩ := hq.searches.answer_of_handsOver hover
      rw [hevent] at hevent'
      cases hevent'
    · exact not_handsOver_of_rank hentry (Nat.le_succ 2) hgt hover

/-- In a step the search goes on, or it comes to its end for good. -/
theorem succ (hq : h.Sought i p q n x t) (hs : h.Keeps i) (ht : h.Timely)
    (hwindow : ((h.state n).station i).dispatcher.window =
      ((h.state q).station i).dispatcher.window)
    (hinterval : 0 < ((h.state q).station i).dispatcher.interval) :
    h.Sought i p q (n + 1) x t ∨ (∃ id, ∀ k, n < k → h.Delivered i p q k x t n id) ∨
      ∀ k, n < k → h.Dropped i p q k x t n := by
  have hsame : ((h.state n).station i).dispatcher.interval =
      ((h.state q).station i).dispatcher.interval := congrArg Prod.fst hwindow
  rcases hq.searches.succ hs (hsame ▸ hinterval) with ⟨hnot, hsearches⟩ | ⟨hlook, hle, hanswer⟩
  · exact .inl (hq.succ_of_not hs ht hnot hsearches)
  · have hdue := Nat.le_antisymm hle hq.punctual
    cases hanswer with
    | missed hmissing hbefore again =>
      rw [hsame] at again
      exact .inl (hq.succ_of_missed hlook hdue hlook.now hmissing hbefore again)
    | found id hfound hevent hentry =>
      exact .inr (.inl ⟨id, fun k hk => hq.delivered hlook hdue hfound hevent hentry hk⟩)
    | late hmissing hafter hevent hentry =>
      exact .inr (.inr fun k hk => hq.dropped hlook hdue hmissing hafter hevent hentry hk)

theorem length_le (hq : h.Sought i p q n x t)
    (hinterval : 0 < ((h.state q).station i).dispatcher.interval) :
    (h.lookups i p n).length ≤ (((h.state q).station i).dispatcher.timeout +
      ((h.state q).station i).dispatcher.interval - 1) /
        ((h.state q).station i).dispatcher.interval := by
  rw [Nat.le_div_iff_mul_le hinterval]
  cases hlength : (h.lookups i p n).length with
  | zero =>
    rw [Nat.zero_mul]
    exact Nat.zero_le _
  | succ k =>
    have hmul := mul_lt_of_lookupInstant_lt (hq.before k (by omega))
    rw [Nat.succ_mul]
    omega

theorem lookups_eq {b : Nat} (hq : h.Sought i p q n x t) (hb : b ≤ n)
    (hfinds : ∀ s, b ≤ s → (h.state s).now ≤ h.closing i q → h.handlerFor? i s x = some id) :
    h.lookups i p n = h.lookups i p b := by
  refine lookups_eq_of_le hb fun s hle hlt hlook => ?_
  have hmissed := hq.missed s (mem_lookups.mpr ⟨hlt, hlook⟩)
  have hopen : (h.state s).now ≤ h.closing i q := by
    refine Nat.le_trans (h.now_le_of_le (Nat.le_of_lt hlt)) ?_
    exact Nat.le_trans hq.punctual (h.lookupInstant_le_closing i q _)
  rw [hfinds s hle hopen] at hmissed
  cases hmissed

end Sought

/-! ### How the search ends -/

section

variable {s : Nat}

theorem Delivered.lt (hd : h.Delivered i p q n x t s id) : s < n :=
  (mem_lookups.mp (hd.last ▸ List.mem_append_right _ (List.mem_singleton_self s))).1

theorem Dropped.lt (hd : h.Dropped i p q n x t s) : s < n :=
  (mem_lookups.mp (hd.last ▸ List.mem_append_right _ (List.mem_singleton_self s))).1

theorem Delivered.le (hd : h.Delivered i p q n x t s id) {b : Nat}
    (hx : (h.docket i b)[p]? = some x) : b ≤ s := by
  by_contra hlt
  have hover : h.HandsOver i p s id := (hd.once s id).mpr ⟨rfl, rfl⟩
  exact not_handsOver_of_taken hx hd.sought.searches.fate (by omega) hover

theorem Dropped.le (hd : h.Dropped i p q n x t s) {b : Nat} (hx : (h.docket i b)[p]? = some x) :
    b ≤ s := by
  by_contra hlt
  have hentry := h.docket_ended hd.event hd.sought.searches.entry hd.sought.searches.holder
  have hrank := rank_le_one_of_taken hentry hx hd.sought.searches.fate (by omega)
  exact absurd hrank (by simp [Fate.rank])

end

namespace Opens

variable (ho : h.Opens i p q x t) (hs : h.Keeps i) (ht : h.Timely)
variable (hinterval : 0 < ((h.state q).station i).dispatcher.interval)

include ho hs ht hinterval

/-- After the window has opened the search goes on step by step up to its end. -/
theorem course (hn : q < n) : h.Sought i p q n x t ∨
    (∃ s id, s < n ∧ ∀ k, s < k → h.Delivered i p q k x t s id) ∨
      ∃ s, s < n ∧ ∀ k, s < k → h.Dropped i p q k x t s := by
  induction hn with
  | refl => exact .inl (ho.sought hs hinterval)
  | @step n hn ih =>
    rcases ih with hsought | ⟨s, id, hlt, hdelivered⟩ | ⟨s, hlt, hdropped⟩
    · have hwindow := h.window_of_le ho.placed (Nat.le_of_succ_le hn)
      rcases hsought.succ hs ht hwindow hinterval with hnext | ⟨id, hdelivered⟩ | hdropped
      · exact .inl hnext
      · exact .inr (.inl ⟨n, id, Nat.lt_succ_self n, hdelivered⟩)
      · exact .inr (.inr ⟨n, Nat.lt_succ_self n, hdropped⟩)
    · exact .inr (.inl ⟨s, id, Nat.lt_succ_of_lt hlt, hdelivered⟩)
    · exact .inr (.inr ⟨s, Nat.lt_succ_of_lt hlt, hdropped⟩)

theorem outcome (hn : q < n) : h.Sought i p q n x t ∨
    (∃ s id, h.Delivered i p q n x t s id) ∨ ∃ s, h.Dropped i p q n x t s := by
  rcases ho.course hs ht hinterval hn with hsought | ⟨s, id, hlt, hdelivered⟩ | ⟨s, hlt, hdropped⟩
  · exact .inl hsought
  · exact .inr (.inl ⟨s, id, hdelivered n hlt⟩)
  · exact .inr (.inr ⟨s, hdropped n hlt⟩)

/-- The look-ups that were made are those of a search that goes on, and perhaps a last one. -/
theorem lookups_cases (n : Nat) : h.lookups i p n = [] ∨ h.Sought i p q n x t ∨
    ∃ s, h.Sought i p q s x t ∧ h.lookups i p n = h.lookups i p s ++ [s] ∧
      (h.state s).now = h.lookupInstant i q (h.lookups i p s).length := by
  by_cases hn : q < n
  · rcases ho.outcome hs ht hinterval hn with hsought | ⟨s, id, hdelivered⟩ | ⟨s, hdropped⟩
    · exact .inr (.inl hsought)
    · exact .inr (.inr ⟨s, hdelivered.sought, hdelivered.last, hdelivered.instant⟩)
    · exact .inr (.inr ⟨s, hdropped.sought, hdropped.last, hdropped.instant⟩)
  · exact .inl (ho.lookups_eq_nil hs hinterval (by omega))

theorem instants (n : Nat) : (h.lookups i p n).map (fun s => (h.state s).now) =
    (List.range (h.lookups i p n).length).map (h.lookupInstant i q) := by
  rcases ho.lookups_cases hs ht hinterval n with hnil | hsought | ⟨s, hsought, hlast, hinstant⟩
  · rw [hnil]
    rfl
  · exact hsought.instants
  · rw [hlast]
    exact hsought.instants_snoc hinstant.symm

theorem bounded (n : Nat) : (h.lookups i p n).length ≤
    (((h.state q).station i).dispatcher.timeout +
      ((h.state q).station i).dispatcher.interval - 1) /
        ((h.state q).station i).dispatcher.interval + 1 := by
  rcases ho.lookups_cases hs ht hinterval n with hnil | hsought | ⟨s, hsought, hlast, -⟩
  · rw [hnil]
    exact Nat.zero_le _
  · exact Nat.le_succ_of_le (hsought.length_le hinterval)
  · rw [hlast, List.length_append, List.length_singleton]
    exact Nat.succ_le_succ (hsought.length_le hinterval)

theorem ends (hlate : h.closing i q < (h.state n).now) :
    (∃ s id, h.Delivered i p q n x t s id) ∨ ∃ s, h.Dropped i p q n x t s := by
  have hn : q < n := by
    by_contra hle
    have hnow := h.now_le_of_le (Nat.le_of_not_lt hle)
    rw [closing] at hlate
    omega
  rcases ho.outcome hs ht hinterval hn with hsought | hended
  · have hopen := Nat.le_trans hsought.punctual (h.lookupInstant_le_closing i q _)
    exact absurd hlate (Nat.not_lt.mpr hopen)
  · exact hended

/-- A handler that can be found from some step on gets the message at the next look-up. -/
theorem finds {b : Nat} (hb : q < b) (hx : (h.docket i b)[p]? = some x)
    (hfinds : ∀ s, b ≤ s → (h.state s).now ≤ h.closing i q → h.handlerFor? i s x = some id)
    (hlate : min ((h.state b).now + ((h.state q).station i).dispatcher.interval)
      (h.closing i q) < (h.state n).now) :
    ∃ s, b ≤ s ∧ s < n ∧ h.HandsOver i p s id ∧
      (h.state s).now ≤ (h.state b).now + ((h.state q).station i).dispatcher.interval := by
  have hsought : h.Sought i p q b x t := by
    rcases ho.outcome hs ht hinterval hb with hsought | ⟨s, id', hdelivered⟩ | ⟨s, hdropped⟩
    · exact hsought
    · exact absurd hdelivered.lt (Nat.not_lt.mpr (hdelivered.le hx))
    · exact absurd hdropped.lt (Nat.not_lt.mpr (hdropped.le hx))
  have hnear := hsought.near
  have hnext := h.lookupInstant_le_closing i q (h.lookups i p b).length
  have hn : b ≤ n := by
    by_contra hlt
    have hnow := h.now_le_of_le (Nat.le_of_not_le hlt)
    have hpunctual := hsought.punctual
    omega
  rcases ho.outcome hs ht hinterval (Nat.lt_of_lt_of_le hb hn) with hstill | ⟨s, id', hdelivered⟩ |
    ⟨s, hdropped⟩
  · have hpunctual := hstill.punctual
    rw [hstill.lookups_eq hn hfinds] at hpunctual
    omega
  · have hle := hdelivered.le hx
    have hinstant := hdelivered.instant
    have hopen := h.lookupInstant_le_closing i q (h.lookups i p s).length
    rw [← hinstant] at hopen
    have hfound := hfinds s hle hopen
    rw [hdelivered.found] at hfound
    obtain rfl := Option.some.inj hfound
    rw [hdelivered.sought.lookups_eq hle hfinds] at hinstant
    refine ⟨s, hle, hdelivered.lt, (hdelivered.once s id').mpr ⟨rfl, rfl⟩, ?_⟩
    rw [hinstant]
    exact hnear
  · have hfound := hfinds s (hdropped.le hx) (Nat.le_of_eq hdropped.closed)
    rw [hdropped.missed] at hfound
    cases hfound

end Opens

/-- The handler of a message is sought at the instants of its window and at no others, until it is
found or the window closes. -/
theorem sought_until_found (h : Service) (i q t deadline : Nat) (hs : h.Keeps i) (ht : h.Timely)
    (hinterval : 0 < ((h.state q).station i).dispatcher.interval)
    (hopened : h.event q = some (i, .opened t deadline)) :
    ∃ p x, (h.docket i q).held t = [x] ∧ (h.docket i q)[p]? = some x ∧ h.Polls i p q x t := by
  obtain ⟨p, x, ho⟩ := h.opens hopened
  refine ⟨p, x, ho.held, ho.entry, ?_, ?_, ?_, ?_, ?_, ?_⟩
  · exact ho.instants hs ht hinterval
  · exact ho.bounded hs ht hinterval
  · intro n hn
    exact ho.outcome hs ht hinterval hn
  · intro n hlate
    exact ho.ends hs ht hinterval hlate
  · intro hpasses
    obtain ⟨n, hn⟩ := hpasses (h.closing i q + 1)
    exact ⟨n, ho.ends hs ht hinterval hn⟩
  · intro b id hb hx hfinds n hlate
    exact ho.finds hs ht hinterval hb hx hfinds hlate

/-! ### A run in which the handler comes late -/

def seekingMessage : Message := .event (Event.withId "1" "text")

def seekingStation : Station :=
  Station.start ⟨"a", none, "host", 1⟩ ∅ true ⟨10, 25, .cached⟩ {}

def lateHandler : Handler := ⟨"text", Switch.named "late", .listener ⟨0, .succeeds⟩⟩

/-- A handler is bound between the second look-up and the third one, which finds it. -/
def seekingNext (m : Mesh) : Nat → Mesh
  | 0 => (m.addStation seekingStation).1
  | 1 => m.dispatch 0 seekingMessage
  | 2 => m.setActivity 0 (.dispatching ⟨seekingMessage, .searching 25 0⟩)
  | 3 => (m.restUntil 0 10).setActivity 0 (.dispatching ⟨seekingMessage, .searching 25 10⟩)
  | 4 => Mesh.machine.ring m 10
  | 5 => (m.restUntil 0 20).setActivity 0 (.dispatching ⟨seekingMessage, .searching 25 20⟩)
  | 6 => Mesh.machine.ring m 12
  | 7 => m.updateStation 0 fun s => { s with registry := s.registry.install lateHandler }
  | 8 => Mesh.machine.ring m 20
  | 9 => m.handOver 0 (.dispatching ⟨seekingMessage, .searching 25 20⟩) seekingMessage 0 0
  | 10 => m.conclude 0 0 (.dispatching ⟨seekingMessage, .handling 0 20⟩) .handled
  | 11 => m.taken 0
  | 12 => Mesh.machine.ring m 30
  | _ => m

def seekingState : Nat → Mesh
  | 0 => Mesh.ofCapacity 1
  | n + 1 => seekingNext (seekingState n) n

def seekingEvent : Nat → Option (Nat × Notice)
  | 1 => some (0, .called ⟨seekingMessage, none, .taken 0⟩)
  | 2 => some (0, .opened 0 25)
  | 9 => some (0, .invoked 0 0)
  | 10 => some (0, .ended 0 .handled)
  | _ => none

theorem seeking_step (n : Nat) :
    (seekingState n).Duty (seekingEvent n) (seekingState (n + 1)) := by
  have hand : ∀ {n a job}, (seekingState n).IsReady 0 →
      (seekingState n).tasks[0]? = some ⟨0, a, false⟩ → a.job? = some job →
      (seekingState n).InHand 0 0 a job := fun hready htask hjob => ⟨hready, htask, hjob⟩
  match n with
  | 0 => exact .found ⟨⟨10, 25, .cached, rfl⟩, rfl, rfl⟩
  | 1 => exact .call seekingMessage (by decide)
  | 2 => exact .work (Mesh.Work.window (hand (n := 2) (by decide) rfl rfl) rfl)
  | 3 => exact .work (Mesh.Work.search (hand (n := 3) (by decide) rfl rfl) (by decide) rfl rfl)
  | 4 => exact .pass 10 (by decide)
  | 5 => exact .work (Mesh.Work.search (hand (n := 5) (by decide) rfl rfl) (by decide) rfl rfl)
  | 6 => exact .pass 12 (by decide)
  | 7 => exact .apart (Mesh.apart_updateStation rfl)
  | 8 => exact .pass 20 (by decide)
  | 9 => exact .work (Mesh.Work.invoke (hand (n := 9) (by decide) rfl rfl) (by decide) rfl 0)
  | 10 => exact .work (Mesh.Work.finish (hand (n := 10) (by decide) rfl rfl) (by decide) .succeeded)
  | 11 =>
    -- the task that need not run any more has ended
    have hended : ∀ {task}, (seekingState 11).tasks[0]? = some task → ¬task.activity.IsOnDuty := by
      intro task htask
      cases Option.some.inj htask
      exact id
    exact .apart (Mesh.apart_taken hended)
  | 12 => exact .pass 30 (by decide)
  | n + 13 => exact .apart (.refl _)

def seeking : Service := ⟨seekingState, seekingEvent, ⟨1, rfl⟩, seeking_step⟩

theorem seeking_keeps : seeking.Keeps 0 := by
  intro q heq
  have hevent : seekingEvent q = some (0, .failed) := heq
  unfold seekingEvent at hevent
  split at hevent <;> cases hevent

theorem onTime_of_agenda {m m' : Mesh} (hready : m.agenda.ready.keys = [])
    (halarms : ∀ alarm ∈ m.agenda.alarms, m'.now ≤ max m.now alarm.1) : m.OnTime m' := by
  refine fun _ => ⟨fun t => ?_, fun due t halarm => halarms (due, t) halarm⟩
  rw [Mesh.IsReady, hready]
  exact List.not_mem_nil

theorem seeking_timely : seeking.Timely
  | 0 | 1 | 2 | 3 | 5 | 7 | 9 | 10 | 11 => fun hlt => absurd hlt (by decide)
  | 4 | 6 | 8 | 12 => onTime_of_agenda (by decide) (by decide)
  | _ + 13 => fun hlt => absurd hlt (Nat.lt_irrefl _)

/-- A message whose handler is bound after the second look-up. -/
theorem seeking_polls : seeking.Keeps 0 ∧ seeking.Timely ∧
    0 < ((seeking.state 2).station 0).dispatcher.interval ∧
    seeking.event 2 = some (0, .opened 0 25) ∧
    ∃ p x, (seeking.docket 0 2).held 0 = [x] ∧ (seeking.docket 0 2)[p]? = some x ∧
      seeking.Polls 0 p 2 x 0 :=
  ⟨seeking_keeps, seeking_timely, by decide, rfl,
    sought_until_found seeking 0 2 0 25 seeking_keeps seeking_timely (by decide) rfl⟩

end ClusterMesh.Service
