import ClusterMesh.Proofs.Delivery.Awaited

/-!
# An errand hears from its whole destination

The command comes to the loop of each station, which begins a task for it; a station that answers
publishes its answer, which comes to the loop of the origin and is taken in there. None of this
takes time, as whatever can run takes its turn before time passes.
-/

namespace ClusterMesh.Errand

open Mesh

variable {h : Errand} {n k i t v : Nat} {p p' : Pending} {message : Message} {P Q R : Nat → Prop}

/-- Something comes about before time passes, unless the call ends before. -/
def Settles (h : Errand) (n : Nat) (Q : Nat → Prop) : Prop :=
  ∃ k, n ≤ k ∧ (h.state k).now = (h.state n).now ∧ (h.Over k ∨ Q k)

theorem settles_of (hQ : Q n) : h.Settles n Q := ⟨n, Nat.le_refl n, rfl, Or.inr hQ⟩

theorem Settles.andThen (hQ : h.Settles n Q) (hnext : ∀ {k}, n ≤ k →
    (h.state k).now = (h.state n).now → ¬h.Over k → Q k → h.Settles k R) : h.Settles n R := by
  obtain ⟨k, hle, hnow, ho | hk⟩ := hQ
  · exact ⟨k, hle, hnow, Or.inl ho⟩
  · by_cases ho : h.Over k
    · exact ⟨k, hle, hnow, Or.inl ho⟩
    · obtain ⟨l, hle', hnow', hl⟩ := hnext hle hnow ho hk
      exact ⟨l, Nat.le_trans hle hle', hnow'.trans hnow, hl⟩

theorem now_succ (hready : (h.state n).IsReady t) :
    (h.state (n + 1)).now = (h.state n).now := by
  obtain ⟨L, hl⟩ := (h.sound n).ledger
  exact (h.act n).now_eq hl hready

/-- What a task that can run brings about in its turn, if nobody else undoes that it can. -/
theorem settles_of_ready (hP : P n) (hready : ∀ {k}, P k → (h.state k).IsReady t)
    (hkeeps : ∀ {k}, ¬h.Over (k + 1) → P k → h.deed k ≠ .runs t → P (k + 1))
    (hruns : ∀ {k}, n ≤ k → (h.state k).now = (h.state n).now → ¬h.Over (k + 1) → P k →
      h.deed k = .runs t → R (k + 1)) : h.Settles n R := by
  obtain ⟨l, hle, hdeed⟩ := h.fair (hready hP)
  -- the induction is on the number of acts up to that turn
  obtain ⟨d, rfl⟩ := Nat.exists_eq_add_of_le hle
  clear hle
  induction d generalizing n with
  | zero =>
    refine ⟨n + 1, Nat.le_succ n, now_succ (hready hP), ?_⟩
    by_cases ho : h.Over (n + 1)
    · exact Or.inl ho
    · exact Or.inr (hruns (Nat.le_refl n) rfl ho hP hdeed)
  | succ d ih =>
    have hnow := now_succ (hready hP)
    by_cases ho : h.Over (n + 1)
    · exact ⟨n + 1, Nat.le_succ n, hnow, Or.inl ho⟩
    by_cases hfirst : h.deed n = .runs t
    · exact ⟨n + 1, Nat.le_succ n, hnow, Or.inr (hruns (Nat.le_refl n) rfl ho hP hfirst)⟩
    · obtain ⟨k, hle, hsame, hk⟩ := ih (hkeeps ho hP hfirst)
        (fun {k} hle hsame => hruns (Nat.le_of_succ_le hle) (hsame.trans hnow))
        (by rwa [Nat.add_right_comm, Nat.add_assoc])
      exact ⟨k, Nat.le_of_succ_le hle, hsame.trans hnow, hk⟩

/-! ### A message comes to a station -/

/-- A message lies before a loop of a station. -/
def Lies (h : Errand) (n i : Nat) (message : Message) (t s : Nat) : Prop :=
  (h.state n).tasks[t]? = some ⟨i, .receiving (some s), false⟩ ∧
    (h.state n).bus.Offers s message

theorem lies_of_publish (hi : i < h.before.stations.length)
    (hbus : (h.state (n + 1)).bus = ((h.state n).bus.publish message).1) :
    ∃ t s, h.Lies (n + 1) i message t s := by
  have hs := h.sound n
  obtain ⟨t, s, htask⟩ := hs.listening hi
  exact ⟨t, s, listens_succ hs hi htask,
    hbus ▸ (hs.wired.attends htask).seats.offers_publish message⟩

theorem accepts_of_forced (hi : i < h.before.stations.length) (ho : ¬h.Over n)
    (hforced : message.isForced = true)
    (haddressed : message.header.isAddressedTo (h.node i) = true) :
    ((h.state n).station i).Accepts message := by
  have hs := h.sound n
  have harranged := h.arranged_at ho
  have hi' : i < (h.state n).stations.length := hs.stations.symm ▸ hi
  refine ⟨?_, harranged.cached i hi', harranged.running i hi'⟩
  rw [Station.takes, hs.node hi, haddressed, hforced, Bool.or_true]
  rfl

/-- A message that lies before the loop of a station it is addressed to comes into the hands of a
task of the station. -/
theorem settles_lies {s : Nat} (hlies : h.Lies n i message t s) (hi : i < h.before.stations.length)
    (hforced : message.isForced = true)
    (haddressed : message.header.isAddressedTo (h.node i) = true) :
    h.Settles n fun k => ∃ v, (h.state k).Begins v i message := by
  refine settles_of_ready (P := fun k => h.Lies k i message t s) (t := t) hlies ?_ ?_ ?_
  · -- a loop that cannot run has read all there is
    rintro k ⟨htask, hoffers⟩
    refine ((h.sound k).wired.attends htask).alert.resolve_right ?_
    rintro ⟨-, hzero⟩
    rcases hoffers with hlags | hmem
    · rw [Bus.Lags, hzero] at hlags
      exact Nat.not_lt_zero _ hlags
    · rw [Bus.inbox, hzero, Nat.sub_zero, List.drop_length] at hmem
      cases hmem
  · rintro k - ⟨htask, hoffers⟩ hdeed
    have hs := h.sound k
    obtain ⟨L, hl⟩ := hs.ledger
    refine ⟨listens_succ hs hi htask, ?_⟩
    exact ((h.act k).passes hl hs.wired htask hdeed).bus.offers (hs.wired.attends htask).seats
      hoffers
  · rintro k - - ho ⟨htask, hoffers⟩ hdeed
    have hs := h.sound k
    have hopen : ¬h.Over k := fun hover => ho (over_succ hover)
    have hlags := (h.arranged_at hopen).prompt htask
    rw [(turn_of_runs hdeed).2]
    exact begins_run (hs.stations.symm ▸ hi) htask hlags (hoffers.mem_inbox hlags)
      (accepts_of_forced hi hopen hforced haddressed)

theorem begins_succ (hbegins : (h.state n).Begins v i message) (hdeed : h.deed n ≠ .runs v) :
    (h.state (n + 1)).Begins v i message := by
  obtain ⟨L, hl⟩ := (h.sound n).ledger
  have hact := h.act n
  exact ⟨hact.task_of_uncalled hl hbegins.task not_false (fun _ _ heq => by cases heq) hdeed,
    hact.ready hl hdeed hbegins.ready⟩

/-! ### The answer of a station -/

theorem settles_answer (hbegins : (h.state n).Begins v i (.command h.sent)) (ht : h.Target i) :
    h.Settles n fun k => ∃ t s, h.Lies k h.origin (.result (h.reply i)) t s := by
  refine settles_of_ready (P := fun k => (h.state k).Begins v i (.command h.sent)) hbegins
    Begins.ready (fun _ hk hdeed => begins_succ hk hdeed) ?_
  intro k _ _ ho hk hdeed
  have hs := h.sound k
  have harranged := h.arranged_at fun hover => ho (over_succ hover)
  have hi : i < (h.state k).stations.length := hs.stations.symm ▸ ht.placed
  refine lies_of_publish h.placed ?_
  have hreplied := replied_of_begins (c := h.sent) hk (harranged.answers i hi ht.answering)
    (harranged.sends i hi)
  rw [hs.node ht.placed, ← (turn_of_runs hdeed).2] at hreplied
  exact hreplied.bus

/-- The answer of a station has come in. -/
def Heard (h : Errand) (i n : Nat) : Prop := ∃ p, h.Awaits n p ∧ (h.node i).id ∈ p.results.keys

theorem Heard.le (hh : h.Heard i n) (hle : n ≤ k) (ho : ¬h.Over k) : h.Heard i k := by
  obtain ⟨p, hp, hmem⟩ := hh
  obtain ⟨p', hp', hkeys⟩ := hp.le hle ho
  exact ⟨p', hp', hkeys _ hmem⟩

theorem heard_of_full (hp : h.Awaits n p) (hfull : p.IsFull) (ht : h.Target i) : h.Heard i n := by
  obtain ⟨expected, hexpected, -⟩ := id hfull
  rw [hp.expected] at hexpected
  obtain ⟨nodes, hnodes, -⟩ := Option.map_eq_some_iff.mp hexpected
  exact ⟨p, hp, (hp.mem_keys_iff hnodes hfull).mpr (ht.mem_keys hnodes)⟩

theorem settles_heard (hp : h.Awaits n p) (hnow : (h.state n).now = h.before.now)
    (hbegins : (h.state n).Begins v h.origin (.result (h.reply i))) (ht : h.Target i) :
    h.Settles n (h.Heard i) := by
  refine settles_of_ready (P := fun k => (h.state k).Begins v h.origin (.result (h.reply i))) hbegins
    Begins.ready (fun _ hk hdeed => begins_succ hk hdeed) ?_
  intro k hle hsame ho hk hdeed
  have hopen : ¬h.Over k := fun hover => ho (over_succ hover)
  have hs := h.sound k
  have harranged := h.arranged_at hopen
  obtain ⟨q, hq, -⟩ := hp.le hle hopen
  cases hcompleted : q.completed with
  | true =>
    -- before its time is over only the last of the answers completes the command
    have hlater : (h.state k).now < h.before.now + h.timeout := by
      rw [hsame, hnow]
      exact Nat.lt_add_of_pos_right h.positive
    exact (heard_of_full hq (hq.full_of_completed hcompleted hlater) ht).le (Nat.le_succ k) ho
  | false =>
    obtain ⟨r, hr, hpends⟩ := hq
    have hsource : (h.reply i).sourceId = some (h.node i).id := rfl
    obtain ⟨q', hq', -, hmem⟩ := hpends.correlated (hr.station.symm ▸ hk)
      (hr.station.symm ▸ harranged.correlates) (hr.command.symm ▸ rfl) hsource hcompleted
    exact ⟨q', ⟨r, hr, (turn_of_runs hdeed).2 ▸ hq'⟩, hmem⟩

theorem reply_addressed (h : Errand) (i : Nat) :
    (h.reply i).event.isAddressedTo (h.node h.origin) = true := by
  have hdestination : (h.reply i).event.destination =
      some (KeyedList.ofList [h.node h.origin]) := by
    simp only [reply, scriptedResult, CommandResult.setProperty, Event.setProperty,
      CommandResult.replyTo, sent, Command.stamped, Event.sourceNode_stamped, h.sourceless,
      Option.getD_none, Option.map_some]
  rw [Event.isAddressedTo, hdestination]
  simp

theorem settles_target {s : Nat} (hp : h.Awaits n p) (hnow : (h.state n).now = h.before.now)
    (ht : h.Target i) (hlies : h.Lies n i (.command h.sent) t s) : h.Settles n (h.Heard i) := by
  refine (settles_lies hlies ht.placed rfl ht.addressed).andThen fun hk hnow₁ _ hbegins => ?_
  obtain ⟨v, hbegins⟩ := hbegins
  refine (settles_answer hbegins ht).andThen fun hl hnow₂ _ hlies => ?_
  obtain ⟨u, s', hlies⟩ := hlies
  refine (settles_lies hlies h.placed rfl (h.reply_addressed i)).andThen
    fun hq hnow₃ ho hbegins => ?_
  obtain ⟨v', hbegins⟩ := hbegins
  obtain ⟨p', hp', -⟩ := hp.le (Nat.le_trans hk (Nat.le_trans hl hq)) ho
  exact settles_heard hp' (hnow₃.trans (hnow₂.trans (hnow₁.trans hnow))) hbegins ht

theorem Settles.and (hQ : h.Settles n Q) (hR : h.Settles n R)
    (hQ' : ∀ {k l}, k ≤ l → ¬h.Over l → Q k → Q l) (hR' : ∀ {k l}, k ≤ l → ¬h.Over l → R k → R l) :
    h.Settles n fun k => Q k ∧ R k := by
  obtain ⟨k, hle, hnow, hk⟩ := hQ
  obtain ⟨l, hle', hnow', hl⟩ := hR
  rcases Nat.le_total k l with hkl | hlk
  · refine ⟨l, hle', hnow', ?_⟩
    by_cases ho : h.Over l
    · exact Or.inl ho
    · exact Or.inr ⟨hQ' hkl ho (hk.resolve_left fun hover => ho (over_le hover hkl)),
        hl.resolve_left ho⟩
  · refine ⟨k, hle, hnow, ?_⟩
    by_cases ho : h.Over k
    · exact Or.inl ho
    · exact Or.inr ⟨hk.resolve_left ho,
        hR' hlk ho (hl.resolve_left fun hover => ho (over_le hover hlk))⟩

theorem settles_all (hp : h.Awaits n p) (hnow : (h.state n).now = h.before.now)
    (hlies : ∀ i < h.before.stations.length, ∃ t s, h.Lies n i (.command h.sent) t s) (j : Nat) :
    h.Settles n fun k => ∀ i < j, h.Target i → h.Heard i k := by
  induction j with
  | zero => exact settles_of fun i hi => absurd hi (Nat.not_lt_zero i)
  | succ j ih =>
    by_cases ht : h.Target j
    · -- each answer comes in on its own, and those that have come in stay
      obtain ⟨t, s, hlies⟩ := hlies j ht.placed
      refine (ih.and (settles_target hp hnow ht hlies) ?_ fun hle ho hh => hh.le hle ho).andThen
        fun _ _ _ hk => settles_of fun i hi ht' => ?_
      · exact fun hle ho hh i hi ht' => (hh i hi ht').le hle ho
      · rcases Nat.lt_succ_iff_lt_or_eq.mp hi with hlt | rfl
        · exact hk.1 i hlt ht'
        · exact hk.2
    · refine ih.andThen fun _ _ _ hk => settles_of fun i hi ht' => ?_
      rcases Nat.lt_succ_iff_lt_or_eq.mp hi with hlt | rfl
      · exact hk i hlt ht'
      · exact absurd ht' ht

/-- At the instant of the call every station that is to answer has answered. -/
theorem settles_everyone (h : Errand) :
    h.Settles 0 fun k => ∃ p, h.Awaits k p ∧ ∀ i, h.Target i → (h.node i).id ∈ p.results.keys := by
  have hbegins : h.Settles 0 fun k => (∃ p, h.Awaits k p) ∧
      ∀ i < h.before.stations.length, ∃ t s, h.Lies k i (.command h.sent) t s := by
    refine settles_of_ready (P := h.Submitted) h.submitted_zero Submitted.ready
      (fun _ hk hdeed => hk.keeps hdeed) fun _ _ _ hk hdeed => ?_
    obtain ⟨hawaits, hbus⟩ := hk.begins hdeed
    exact ⟨hawaits, fun i hi => lies_of_publish hi hbus⟩
  refine hbegins.andThen fun {k} _ hnow _ hk => ?_
  obtain ⟨⟨p, hp⟩, hlies⟩ := hk
  have hinstant := hnow.trans h.submitted_zero.now
  refine (settles_all hp hinstant hlies h.before.stations.length).andThen
    fun {l} hle _ ho hl => settles_of ?_
  obtain ⟨p', hp', -⟩ := hp.le hle ho
  refine ⟨p', hp', fun i ht => ?_⟩
  obtain ⟨q, hq, hmem⟩ := hl i ht.placed ht
  exact hq.unique hp' ▸ hmem

theorem exists_target (h : Errand) {nodes : NodeSet} (hnodes : h.command.destination = some nodes)
    {id : String} (hid : id ∈ nodes.keys) : ∃ i, h.Target i ∧ (h.node i).id = id := by
  obtain ⟨i, hi, hanswering, rfl⟩ := (h.asked nodes hnodes).2 id hid
  refine ⟨i, ⟨hi, hanswering, ?_⟩, rfl⟩
  have hdestination : h.sent.event.destination = some nodes := hnodes
  rw [Event.isAddressedTo, hdestination]
  exact KeyedList.contains_iff.mpr hid

theorem addressed_of_none (h : Errand) (hnodes : h.command.destination = none) (i : Nat) :
    h.sent.event.isAddressedTo (h.node i) = true := by
  have hdestination : h.sent.event.destination = none := hnodes
  rw [Event.isAddressedTo, hdestination]

/-! ### The call returns -/

/-- Once all nodes of its destination have answered, the call ends before time passes. -/
theorem over_of_full {nodes : NodeSet} (hnodes : h.command.destination = some nodes)
    (hp : h.Awaits n p) (hkeys : ∀ id ∈ nodes.keys, id ∈ p.results.keys) :
    ∃ k, h.Over k ∧ (h.state k).now = (h.state n).now := by
  have hsettles : h.Settles n fun _ => False := by
    refine settles_of_ready (t := h.caller)
      (P := fun k => ∃ p, h.Awaits k p ∧ ∀ id ∈ nodes.keys, id ∈ p.results.keys)
      ⟨p, hp, hkeys⟩ ?_ ?_ ?_
    · rintro k ⟨q, hq, hall⟩
      have hcompleted := hq.completed_of_full (hq.full_of_keys hnodes hall)
      obtain ⟨r, hr, hpends⟩ := hq
      exact hr.caller ▸ hpends.timed.1 hcompleted
    · rintro k ho ⟨q, hq, hall⟩ -
      rcases hq.next with ⟨q', hq', hmore⟩ | hends
      · exact ⟨q', hq', fun id hid => hmore id (hall id hid)⟩
      · exact absurd hends.over ho
    · rintro k - - ho ⟨q, hq, hall⟩ hdeed
      have hcompleted := hq.completed_of_full (hq.full_of_keys hnodes hall)
      exact ho (hq.ends hdeed (Or.inl hcompleted)).over
  obtain ⟨k, -, hnow, ho⟩ := hsettles
  exact ⟨k, ho.resolve_right id, hnow⟩

theorem over_of_late (hlate : h.before.now + h.timeout ≤ (h.state n).now) : ∃ k, h.Over k := by
  by_cases ho : h.Over n
  · exact ⟨n, ho⟩
  have hpositive := h.positive
  have hsettles : h.Settles n fun _ => False := by
    refine settles_of_ready (t := h.caller)
      (P := fun k => (∃ p, h.Awaits k p) ∧ h.before.now + h.timeout ≤ (h.state k).now) ⟨?_, hlate⟩
      ?_ ?_ ?_
    · refine (h.submitted_or_awaits ho).resolve_left fun hsub => ?_
      rw [hsub.now] at hlate
      omega
    · rintro k ⟨⟨q, r, hr, hpends⟩, hlater⟩
      rw [← hr.instant, ← hr.timeout] at hlater
      rw [← hr.caller]
      exact (hpends.timed.2.resolve_left (Nat.not_lt.mpr hlater)).2
    · rintro k ho ⟨⟨q, hq⟩, hlater⟩ -
      obtain ⟨q', hq', -⟩ := hq.le (Nat.le_succ k) ho
      exact ⟨⟨q', hq'⟩, Nat.le_trans hlater (h.now_le (Nat.le_succ k))⟩
    · rintro k - - ho ⟨⟨q, hq⟩, hlater⟩ hdeed
      exact ho (hq.ends hdeed (Or.inr hlater)).over
  obtain ⟨k, -, -, ho⟩ := hsettles
  exact ⟨k, ho.resolve_right id⟩

/-- The call returns at an instant the answers of the nodes with certain ids. -/
def Returns (h : Errand) (instant : Nat) (ids : String → Prop) : Prop :=
  ∃ n results, (h.state n).tasks[h.caller]? = some ⟨h.origin, .ended (.returned instant
      (.ok ⟨h.command.id, h.command.expected, results⟩)), false⟩ ∧
    (∀ id, id ∈ results.keys ↔ ids id) ∧
    ∀ entry ∈ results.toList, ∃ i, h.Target i ∧ entry.1.id = (h.node i).id ∧ entry.2 = h.reply i

theorem Ends.yields (he : h.Ends n p) (hp : h.Awaits n p) {instant : Nat} {ids : String → Prop}
    (hnow : (h.state n).now = instant) (hids : ∀ id, id ∈ p.results.keys ↔ ids id) :
    h.Returns instant ids :=
  ⟨n + 1, p.results, hnow ▸ he.returned, hids, fun _ hentry => hp.entries hentry⟩

theorem returns_at_once (h : Errand) {nodes : NodeSet}
    (hnodes : h.command.destination = some nodes) :
    h.Returns h.before.now fun id => id ∈ nodes.keys := by
  have hpositive := h.positive
  obtain ⟨k, -, hnow, hk⟩ := h.settles_everyone
  rw [h.submitted_zero.now] at hnow
  have hover : ∃ l, h.Over l ∧ (h.state l).now = h.before.now := by
    rcases hk with ho | ⟨p, hp, hall⟩
    · exact ⟨k, ho, hnow⟩
    · obtain ⟨l, ho, hsame⟩ := over_of_full hnodes hp fun id hid => by
        obtain ⟨i, htarget, rfl⟩ := h.exists_target hnodes hid
        exact hall i htarget
      exact ⟨l, ho, hsame.trans hnow⟩
  obtain ⟨l, ho, hinstant⟩ := hover
  obtain ⟨n, hlt, p, hp, hends⟩ := exists_ends ho
  have hsame : (h.state n).now = h.before.now := by
    have hle := h.now_le (Nat.le_of_lt hlt)
    have hge := h.now_le (Nat.zero_le n)
    rw [h.submitted_zero.now] at hge
    omega
  have hfull : p.IsFull := hends.cause.resolve_right (by omega)
  exact hends.yields hp hsame fun id => hp.mem_keys_iff hnodes hfull

theorem returns_at_timeout (h : Errand) (hnodes : h.command.destination = none)
    (hlate : ∃ n, h.before.now + h.timeout ≤ (h.state n).now) :
    h.Returns (h.before.now + h.timeout) fun id =>
      ∃ i < h.before.stations.length, h.answering i ∧ (h.node i).id = id := by
  have hpositive := h.positive
  have hdue : ∀ {n p}, h.Awaits n p → h.Ends n p →
      (h.state n).now = h.before.now + h.timeout := by
    intro n p hp hends
    refine hends.cause.resolve_left ?_
    rintro ⟨expected, hexpected, -⟩
    rw [hp.expected, hnodes] at hexpected
    cases hexpected
  obtain ⟨k, -, hnow, hk⟩ := h.settles_everyone
  rw [h.submitted_zero.now] at hnow
  -- when everyone has answered, the call has not ended
  have hopen : ¬h.Over k := by
    intro ho
    obtain ⟨n, hlt, p, hp, hends⟩ := exists_ends ho
    have hle := h.now_le (Nat.le_of_lt hlt)
    rw [hdue hp hends] at hle
    omega
  obtain ⟨q, hq, hall⟩ := hk.resolve_left hopen
  obtain ⟨m, hlate⟩ := hlate
  obtain ⟨l, ho⟩ := over_of_late hlate
  obtain ⟨n, -, p, hp, hends⟩ := exists_ends ho
  have hkn : k ≤ n := by
    by_contra hlt
    exact hopen (over_le hends.over (Nat.lt_of_not_le hlt))
  obtain ⟨ticket, reaper, htask, -⟩ := hp.task
  obtain ⟨q', hq', hkeys⟩ := hq.le hkn (not_over_of_executing htask)
  obtain rfl := hq'.unique hp
  refine hends.yields hp (hdue hp hends) fun id => ⟨fun hid => ?_, ?_⟩
  · obtain ⟨i, htarget, hkey⟩ := hp.keys hid
    exact ⟨i, htarget.placed, htarget.answering, hkey⟩
  · rintro ⟨i, hi, hanswering, rfl⟩
    exact hkeys _ (hall i ⟨hi, hanswering, h.addressed_of_none hnodes i⟩)

/-- A call for certain nodes returns at once the answer of each of them. A call for every node
returns, when its time is over and not before, the answer of each node that answers. -/
theorem hears (h : Errand) :
    (∀ nodes, h.command.destination = some nodes →
      h.Returns h.before.now fun id => id ∈ nodes.keys) ∧
    (h.command.destination = none → (∃ n, h.before.now + h.timeout ≤ (h.state n).now) →
      h.Returns (h.before.now + h.timeout) fun id =>
        ∃ i < h.before.stations.length, h.answering i ∧ (h.node i).id = id) :=
  ⟨fun _ hnodes => h.returns_at_once hnodes, h.returns_at_timeout⟩

/-! ### Two nodes that both answer -/

def sampleStation (id : String) : Station :=
  { History.sampleStation with
    node := History.sampleNode id
    registry := ((Registry.empty true).install
      ⟨"probe", Switch.named "answerer", .answerer "answer" ⟨0, .succeeds⟩⟩).install
        (Handler.correlator "answer") }

def sampleNodes : NodeSet := KeyedList.ofList [History.sampleNode "a", History.sampleNode "b"]

def sampleBefore : Mesh :=
  let added := ((ofCapacity 4).addStation (sampleStation "a")).1
  ((added.addStation (sampleStation "b")).1.startConsumer 0 false).startConsumer 1 false

/-- A command for the two nodes by their ids, or for every node. -/
def sampleCommand (everyone : Bool) : Command :=
  ⟨{ Event.withId "c" "probe" with
      destination := if everyone then none else some sampleNodes }, some 5⟩

/-- The task that has each turn; where there is none, time passes. -/
def sampleTurns : Bool → List (Option Nat)
  | false => [2, 0, 1, 3, 4, 5, 0, 1, 6, 7, 2, 3].map some
  | true => [2, 0, 1, 3, 4, 5, 0, 1, 6, 7].map some ++ none :: [2, 3, 2].map some

def sampleDeed (everyone : Bool) (n : Nat) : Deed :=
  match (sampleTurns everyone)[n]? with
  | some (some t) => .runs t
  | some none => .passes
  | none => .rests

def sampleState (everyone : Bool) : Nat → Mesh
  | 0 => (sampleBefore.execute 0 (sampleCommand everyone)).1
  | n + 1 =>
    let m := sampleState everyone n
    match (sampleTurns everyone)[n]? with
    | some (some t) => (m.taken t).run t
    | some none => machine.ring m 5
    | none => m

/-- Whether a turn can be had, or time can pass. -/
def CanGo (m : Mesh) : Option Nat → Prop
  | some t => m.IsReady t
  | none => m.agenda.ready.keys = [] ∧ m.now ≤ 5 ∧ ∀ alarm ∈ m.agenda.alarms, 5 ≤ alarm.1

instance (m : Mesh) : ∀ turn, Decidable (CanGo m turn)
  | some t => inferInstanceAs (Decidable (m.IsReady t))
  | none => inferInstanceAs (Decidable (_ ∧ _ ∧ _))

theorem sample_canGo : ∀ everyone, ∀ n < (sampleTurns everyone).length,
    ∀ turn ∈ (sampleTurns everyone)[n]?, CanGo (sampleState everyone n) turn := by
  decide +kernel

theorem sample_fair : ∀ everyone, ∀ n < (sampleTurns everyone).length,
    ∀ t ∈ (sampleState everyone n).agenda.ready.keys,
      ∃ k < (sampleTurns everyone).length, n ≤ k ∧ (sampleTurns everyone)[k]? = some (some t) := by
  decide +kernel

theorem sample_ended : ∀ everyone,
    (sampleState everyone (sampleTurns everyone).length).agenda.ready.keys = [] ∧
      (sampleState everyone (sampleTurns everyone).length).hasEnded 2 = true := by
  decide +kernel

/-- A station as it is set up. -/
def IsSet (c : Command) (s : Station) : Prop :=
  (s.dispatcher.pool = .cached ∧ s.dispatcher.closed = false ∧ s.producer.refusal = none) ∧
    (s.lookup? "probe" = some 0 ∧
      (s.registry.handler? 0).map Handler.role = some (.answerer "answer" ⟨0, .succeeds⟩)) ∧
    (s.lookup? "answer" = some 1 ∧ (s.registry.handler? 1).map Handler.role = some .correlator) ∧
    (refusal? s c).isNone = true ∧ s.timeoutOf c = 5

instance (c : Command) (s : Station) : Decidable (IsSet c s) :=
  inferInstanceAs (Decidable (_ ∧ _))

theorem sample_set : ∀ everyone, ∀ n < (sampleTurns everyone).length,
    (sampleState everyone n).stations.length = 2 ∧
      (sampleState everyone n).bus.published ≤ (sampleState everyone n).bus.kept.length ∧
      ∀ i < 2, IsSet (sampleCommand everyone) ((sampleState everyone n).station i) := by
  decide +kernel

theorem sample_stands (everyone : Bool) {n : Nat} (hle : (sampleTurns everyone).length ≤ n) :
    sampleState everyone n = sampleState everyone (sampleTurns everyone).length := by
  induction hle with
  | refl => rfl
  | @step n hle ih =>
    rw [← ih]
    simp only [sampleState, List.getElem?_eq_none hle]

theorem sample_act (everyone : Bool) (n : Nat) :
    (sampleState everyone n).Act (sampleDeed everyone n) (sampleState everyone (n + 1)) := by
  have hgo := sample_canGo everyone n
  simp only [sampleState, sampleDeed]
  generalize sampleState everyone n = m at hgo ⊢
  cases hturn : (sampleTurns everyone)[n]? with
  | none => exact .rest
  | some turn =>
    obtain ⟨hlt, -⟩ := List.getElem?_eq_some_iff.mp hturn
    have hcan := hgo hlt turn hturn
    cases turn with
    | some t => exact .turn hcan
    | none =>
      obtain ⟨hidle, hlater, hfirst⟩ := hcan
      refine .pass 5 (fun t hready => ?_) hlater fun due t halarm => ?_
      · rw [IsReady, hidle] at hready
        cases hready
      · exact Nat.le_trans (hfirst _ halarm) (Nat.le_max_right _ _)

theorem sample_unended (everyone : Bool) {n : Nat}
    (hopen : (sampleState everyone n).hasEnded 2 = false) : n < (sampleTurns everyone).length := by
  by_contra hle
  rw [sample_stands everyone (Nat.le_of_not_lt hle), (sample_ended everyone).2] at hopen
  cases hopen

theorem arranged_of_set {m : Mesh} {c : Command} (htype : c.commandType = "probe")
    (hlength : m.stations.length = 2) (hkept : m.bus.published ≤ m.bus.kept.length)
    (hset : ∀ i < 2, IsSet c (m.station i)) :
    m.Arranged 0 c "answer" (fun _ => True) 5 := by
  have hat : ∀ i < m.stations.length, IsSet c (m.station i) := fun i hi => hset i (hlength ▸ hi)
  have hrole : ∀ {s : Station} {id : Nat} {role : HandlerRole},
      (s.registry.handler? id).map Handler.role = some role →
        ∃ handler, s.registry.handler? id = some handler ∧ handler.role = role :=
    fun h => Option.map_eq_some_iff.mp h
  refine ⟨fun i hi => (hat i hi).1.1, fun i hi => (hat i hi).1.2.1, fun i hi => (hat i hi).1.2.2,
    ?_, fun i _ hnot => absurd trivial hnot, ?_, ?_, ?_, ?_⟩
  · intro i hi _
    obtain ⟨hlookup, hhandler⟩ := (hat i hi).2.1
    obtain ⟨handler, hhandler, hanswerer⟩ := hrole hhandler
    exact ⟨0, handler, htype ▸ hlookup, hhandler, hanswerer⟩
  · obtain ⟨hlookup, hhandler⟩ := (hset 0 (by decide)).2.2.1
    obtain ⟨handler, hhandler, hcorrelator⟩ := hrole hhandler
    exact ⟨1, handler, hlookup, hhandler, hcorrelator⟩
  · exact Option.isNone_iff_eq_none.mp (hset 0 (by decide)).2.2.2.1
  · exact (hset 0 (by decide)).2.2.2.2
  · intro t i s aborted _ hlags
    have hunread : m.bus.unread s ≤ m.bus.published := Nat.sub_le _ _
    exact Nat.not_lt.mpr (Nat.le_trans hunread hkept) hlags

theorem sample_unused : sampleBefore.Carries
    (.without "c" 0 fun i => (sampleBefore.station i).node) := by
  have htasks : ∀ {t : Nat} {task : Task}, sampleBefore.tasks[t]? = some task →
      ∃ s, task.activity = .receiving (some s) := by
    intro t task htask
    match t with
    | 0 => cases htask; exact ⟨0, rfl⟩
    | 1 => cases htask; exact ⟨1, rfl⟩
    | t + 2 => cases htask
  have hstations : ∀ {i}, i < sampleBefore.stations.length →
      (sampleBefore.station i).dispatcher.waits = [] ∧
        (sampleBefore.store i) = PendingStore.empty := by
    intro i hi
    match i with
    | 0 => exact ⟨rfl, rfl⟩
    | 1 => exact ⟨rfl, rfl⟩
    | i + 2 =>
      have hlength : sampleBefore.stations.length = 2 := rfl
      omega
  refine ⟨fun hm => (by cases hm), ?_, ?_, ?_, ?_⟩
  · rintro i message ⟨hi, ⟨t, task, htask, -, hheld⟩ | hwaits⟩
    · obtain ⟨s, hactivity⟩ := htasks htask
      rw [hactivity] at hheld
      cases hheld
    · rw [(hstations hi).1] at hwaits
      cases hwaits
  · rintro i c ⟨-, t, aborted, htask⟩
    obtain ⟨s, hactivity⟩ := htasks htask
    cases hactivity
  · rintro i c ⟨-, t, stage, aborted, -, htask⟩
    obtain ⟨s, hactivity⟩ := htasks htask
    cases hactivity
  · rintro i r ⟨hi, k, p, node, hp, -⟩
    rw [(hstations hi).2] at hp
    cases hp

theorem sample_reached : Mesh.Reached sampleBefore := by
  have ha : Reached ((ofCapacity 4).addStation (sampleStation "a")).1 :=
    (Reached.start 4).addStation rfl
  exact ((ha.addStation rfl).startConsumer false (by decide)).startConsumer false (by decide)

def sample (everyone : Bool) : Errand where
  before := sampleBefore
  origin := 0
  command := sampleCommand everyone
  resultType := "answer"
  answering := fun _ => True
  timeout := 5
  state := sampleState everyone
  deed := sampleDeed everyone
  reached := sample_reached
  placed := by decide
  distinct := by
    have hids : ∀ i < 2, ∀ j < 2,
        (sampleBefore.station i).node.id = (sampleBefore.station j).node.id → i = j := by
      decide +kernel
    exact fun {i j} hi hj => hids i hi j hj
  listening := by
    intro i hi
    match i with
    | 0 => exact ⟨0, 0, rfl⟩
    | 1 => exact ⟨1, 1, rfl⟩
    | i + 2 =>
      have hlength : sampleBefore.stations.length = 2 := rfl
      omega
  unstaffed := by
    intro t task htask hworker
    match t with
    | 0 => cases htask; exact hworker
    | 1 => cases htask; exact hworker
    | t + 2 => cases htask
  unused := sample_unused
  positive := by decide
  sourceless := rfl
  asked := by
    intro nodes hnodes
    cases everyone with
    | true => cases hnodes
    | false =>
      obtain rfl := Option.some.inj hnodes
      refine ⟨by decide, fun id hid => ?_⟩
      have hids : id = "a" ∨ id = "b" := by
        simpa [sampleNodes, History.sampleNode] using hid
      rcases hids with rfl | rfl
      · exact ⟨0, by decide, trivial, rfl⟩
      · exact ⟨1, by decide, trivial, rfl⟩
  start := rfl
  act := sample_act everyone
  fair := by
    intro n t hready
    have hlt : n < (sampleTurns everyone).length := by
      by_contra hle
      rw [IsReady, sample_stands everyone (Nat.le_of_not_lt hle), (sample_ended everyone).1] at hready
      cases hready
    obtain ⟨k, -, hle, hturn⟩ := sample_fair everyone n hlt t hready
    exact ⟨k, hle, by rw [sampleDeed, hturn]⟩
  arranged := by
    intro n hopen
    obtain ⟨hlength, hkept, hset⟩ := sample_set everyone n (sample_unended everyone hopen)
    exact arranged_of_set rfl hlength hkept hset
  executes := by
    intro n i c hdeed
    simp only [sampleDeed] at hdeed
    split at hdeed <;> cases hdeed
  publishes := by
    intro n message hdeed
    simp only [sampleDeed] at hdeed
    split at hdeed <;> cases hdeed
  uncancelled := by
    intro n hdeed
    simp only [sampleDeed] at hdeed
    split at hdeed <;> cases hdeed

theorem hears_sample : (sample false).Returns 0 (fun id => id ∈ sampleNodes.keys) ∧
    (sample true).Returns 5 fun id =>
      ∃ i < sampleBefore.stations.length, True ∧ (sampleBefore.station i).node.id = id :=
  ⟨(sample false).hears.1 _ rfl, (sample true).hears.2 rfl ⟨14, by decide +kernel⟩⟩

end ClusterMesh.Errand
