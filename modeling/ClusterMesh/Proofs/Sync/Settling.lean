import ClusterMesh.Sync.Round

/-!
# What a round of synchronization does

A round visits every pair of a local group and a synchronizer as they stand when it starts, group after
group. Each pair is decided by its toggle as it stands when the pair's turn comes: it is skipped
without a call, or pulled for and, if that went well, pushed for. Whatever the calls do to the place
of the round and however they end, the round goes on with the next pair, and its report counts what
has become of all of them.
-/

namespace ClusterMesh

/-- What becomes of a pair: its category is not synchronized for the group, or it is and the pull
fails, the push fails, or both go well. -/
inductive Settlement
  | skipped
  | unpulled
  | unpushed
  | synchronized
deriving DecidableEq, Repr

namespace SyncReport

/-- The report after some more pairs. -/
def tally (r : SyncReport) (settled : List Settlement) : SyncReport :=
  ⟨r.synchronized + settled.count .synchronized, r.skipped + settled.count .skipped,
    r.failed + (settled.count .unpulled + settled.count .unpushed)⟩

/-- All pairs that a report counts. -/
def total (r : SyncReport) : Nat := r.synchronized + r.skipped + r.failed

@[simp] theorem tally_nil (r : SyncReport) : r.tally [] = r := rfl

theorem tally_cons (r : SyncReport) (first : Settlement) (settled : List Settlement) :
    r.tally (first :: settled) = (r.tally [first]).tally settled := by
  cases first <;> simp [tally] <;> omega

theorem total_tally (r : SyncReport) (settled : List Settlement) :
    (r.tally settled).total = r.total + settled.length := by
  induction settled generalizing r with
  | nil => rfl
  | cons first settled ih =>
    have hone : (r.tally [first]).total = r.total + 1 := by
      cases first <;> simp [tally, total] <;> omega
    rw [tally_cons, ih, hone, List.length_cons]
    omega

end SyncReport

namespace Surroundings

variable {σ : Type} {w : Surroundings σ} {s s₁ s' : σ} {p : String × Synchronizer}
  {pairs : List (String × Synchronizer)} {settled : List Settlement} {report : SyncReport}
  {round : Round} {succeeded : Bool}

/-! ### One pair after the other -/

/-- A call leads from one state to another, and it succeeds or fails. A call that takes its time may
end either way and in any state, since anything may happen meanwhile. -/
inductive Leads (w : Surroundings σ) (c : SyncCall) (p : String × Synchronizer) (s : σ) :
    Bool → σ → Prop
  | atOnce {succeeded : Bool} {s' : σ} (h : w.call c p.1 p.2 s = (s', some succeeded)) :
      Leads w c p s succeeded s'
  | inTime {s₁ : σ} (h : w.call c p.1 p.2 s = (s₁, none)) (succeeded : Bool) (s' : σ) :
      Leads w c p s succeeded s'

/-- Whether the category of a pair is synchronized for its group, as the properties stand. -/
def enables (w : Surroundings σ) (s : σ) (p : String × Synchronizer) : Bool :=
  (w.properties s).syncEnabled p.1 p.2.category

/-- A pair is settled by no call, by a pull that fails, or by a pull that succeeds and a push. -/
inductive Settles (w : Surroundings σ) (p : String × Synchronizer) (s : σ) : Settlement → σ → Prop
  | skipped (hoff : w.enables s p = false) : Settles w p s .skipped s
  | unpulled {s' : σ} (hon : w.enables s p = true) (hpull : w.Leads .pull p s false s') :
      Settles w p s .unpulled s'
  | unpushed {s₁ s' : σ} (hon : w.enables s p = true) (hpull : w.Leads .pull p s true s₁)
      (hpush : w.Leads .push p s₁ false s') : Settles w p s .unpushed s'
  | synchronized {s₁ s' : σ} (hon : w.enables s p = true) (hpull : w.Leads .pull p s true s₁)
      (hpush : w.Leads .push p s₁ true s') : Settles w p s .synchronized s'

/-- Pairs are settled one after the other, each in the state that the one before has left. -/
inductive Visits (w : Surroundings σ) :
    List (String × Synchronizer) → σ → List Settlement → σ → Prop
  | nil (s : σ) : Visits w [] s [] s
  | cons {p : String × Synchronizer} {pairs : List (String × Synchronizer)} {s s₁ s' : σ}
      {first : Settlement} {settled : List Settlement} (hfirst : w.Settles p s first s₁)
      (hrest : Visits w pairs s₁ settled s') : Visits w (p :: pairs) s (first :: settled) s'

theorem Visits.length_eq (h : w.Visits pairs s settled s') : settled.length = pairs.length := by
  induction h with
  | nil => rfl
  | cons _ _ ih => rw [List.length_cons, List.length_cons, ih]

/-! ### A round with its waits -/

/-- A round goes from one state to another, with a report at its end. Where it waits for a call, it
goes on with any outcome and in any state. -/
inductive Carries (w : Surroundings σ) : Round → σ → SyncReport → σ → Prop
  | ends {round : Round} {s s' : σ} {report : SyncReport}
      (h : w.proceed round s = (s', .inr report)) : Carries w round s report s'
  | resumes {round waiting : Round} {s s₁ s₂ s' : σ} {report : SyncReport} {succeeded : Bool}
      (h : w.proceed round s = (s₁, .inl waiting))
      (hrest : Carries w (waiting.afterCall succeeded) s₂ report s') : Carries w round s report s'

/-- What is left of a round: the push for the pair at hand, if its pull has succeeded, and the pairs
behind. -/
def Finishes (w : Surroundings σ) (round : Round) (s : σ) (report : SyncReport) (s' : σ) : Prop :=
  match round.next, round.remaining with
  | .push, p :: pairs => ∃ succeeded s₁ settled, w.Leads .push p s succeeded s₁ ∧
      w.Visits pairs s₁ settled s' ∧
      report = round.report.tally ((if succeeded then .synchronized else .unpushed) :: settled)
  | _, pairs => ∃ settled, w.Visits pairs s settled s' ∧ report = round.report.tally settled

theorem finishes_pull (h : round.next = .pull) : w.Finishes round s report s' ↔
    ∃ settled, w.Visits round.remaining s settled s' ∧ report = round.report.tally settled := by
  rw [Finishes, h]

theorem finishes_done (h : round.remaining = []) :
    w.Finishes round s report s' ↔ report = round.report ∧ s' = s := by
  have hvisits : (∃ settled, w.Visits [] s settled s' ∧ report = round.report.tally settled) ↔
      report = round.report ∧ s' = s := by
    constructor
    · rintro ⟨settled, hvisits, hreport⟩
      cases hvisits
      exact ⟨hreport, rfl⟩
    · rintro ⟨rfl, rfl⟩
      exact ⟨[], .nil s', rfl⟩
  rw [Finishes, h]
  cases round.next <;> exact hvisits

theorem visits_of_disabled (hoff : w.enables s p = false) :
    w.Visits (p :: pairs) s settled s' ↔
      ∃ rest, settled = .skipped :: rest ∧ w.Visits pairs s rest s' := by
  constructor
  · intro h
    cases h with
    | cons hfirst hrest =>
      cases hfirst with
      | skipped => exact ⟨_, rfl, hrest⟩
      | unpulled hon => exact absurd (hoff.symm.trans hon) (by simp)
      | unpushed hon => exact absurd (hoff.symm.trans hon) (by simp)
      | synchronized hon => exact absurd (hoff.symm.trans hon) (by simp)
  · rintro ⟨rest, rfl, hrest⟩
    exact .cons (.skipped hoff) hrest

/-- Passing over the pairs that are not synchronized changes nothing of what is left. -/
theorem finishes_skipDisabled (hnext : round.next = .pull) :
    w.Finishes (round.skipDisabled (w.properties s)) s report s' ↔ w.Finishes round s report s' := by
  obtain ⟨remaining, next, done⟩ := round
  obtain rfl : next = .pull := hnext
  induction remaining generalizing done with
  | nil => rfl
  | cons p pairs ih =>
    cases henabled : w.enables s p with
    | true =>
      have hsame : (⟨p :: pairs, .pull, done⟩ : Round).skipDisabled (w.properties s) =
          ⟨p :: pairs, .pull, done⟩ := by
        change (w.properties s).syncEnabled p.1 p.2.category = true at henabled
        simp [Round.skipDisabled, henabled]
      rw [hsame]
    | false =>
      have hskip : (⟨p :: pairs, .pull, done⟩ : Round).skipDisabled (w.properties s) =
          (⟨pairs, .pull, done.tally [.skipped]⟩ : Round).skipDisabled (w.properties s) := by
        change (w.properties s).syncEnabled p.1 p.2.category = false at henabled
        simp [Round.skipDisabled, SyncReport.tally, henabled, Nat.add_assoc, Nat.add_comm 1]
      rw [hskip, ih, finishes_pull rfl, finishes_pull rfl]
      simp only [visits_of_disabled henabled]
      constructor
      · rintro ⟨settled, hvisits, rfl⟩
        exact ⟨_, ⟨settled, rfl, hvisits⟩, (done.tally_cons .skipped settled).symm⟩
      · rintro ⟨_, ⟨settled, rfl, hvisits⟩, rfl⟩
        exact ⟨settled, hvisits, done.tally_cons .skipped settled⟩

theorem finishes_push (hnext : round.next = .push) (hhead : round.remaining = p :: pairs) :
    w.Finishes round s report s' ↔ ∃ succeeded s₁ settled, w.Leads .push p s succeeded s₁ ∧
      w.Visits pairs s₁ settled s' ∧
      report = round.report.tally ((if succeeded then .synchronized else .unpushed) :: settled) := by
  rw [Finishes, hnext, hhead]

theorem finishes_call (hhead : round.remaining = p :: pairs)
    (henabled : round.next = .pull → w.enables s p = true) :
    w.Finishes round s report s' ↔ ∃ succeeded s₁, w.Leads round.next p s succeeded s₁ ∧
      w.Finishes (round.afterCall succeeded) s₁ report s' := by
  obtain ⟨remaining, next, done⟩ := round
  obtain rfl : remaining = p :: pairs := hhead
  have hbad : (⟨p :: pairs, next, done⟩ : Round).afterCall false =
      ⟨pairs, .pull, done.tally [.unpulled]⟩ := by cases next <;> rfl
  cases next with
  | push =>
    rw [finishes_push rfl rfl]
    have hafter : ∀ succeeded, (⟨p :: pairs, .push, done⟩ : Round).afterCall succeeded =
        ⟨pairs, .pull, done.tally [if succeeded then .synchronized else .unpushed]⟩ := by
      intro succeeded
      cases succeeded <;> rfl
    simp only [hafter, finishes_pull, ← SyncReport.tally_cons]
    constructor
    · rintro ⟨succeeded, s₁, settled, hpush, hvisits, hreport⟩
      exact ⟨succeeded, s₁, hpush, settled, hvisits, hreport⟩
    · rintro ⟨succeeded, s₁, hpush, settled, hvisits, hreport⟩
      exact ⟨succeeded, s₁, settled, hpush, hvisits, hreport⟩
  | pull =>
    have hon : w.enables s p = true := henabled rfl
    have hgood : (⟨p :: pairs, .pull, done⟩ : Round).afterCall true = ⟨p :: pairs, .push, done⟩ := rfl
    rw [finishes_pull rfl]
    constructor
    · rintro ⟨_, hvisits, rfl⟩
      cases hvisits with
      | @cons _ _ _ s₁ _ _ settled hfirst hrest =>
        cases hfirst with
        | skipped hoff => exact absurd (hoff.symm.trans hon) (by simp)
        | unpulled _ hpull =>
          refine ⟨false, s₁, hpull, ?_⟩
          rw [hbad, finishes_pull rfl]
          exact ⟨settled, hrest, done.tally_cons .unpulled settled⟩
        | @unpushed s₂ _ _ hpull hpush =>
          refine ⟨true, s₂, hpull, ?_⟩
          rw [hgood, finishes_push rfl rfl]
          exact ⟨false, s₁, settled, hpush, hrest, rfl⟩
        | @synchronized s₂ _ _ hpull hpush =>
          refine ⟨true, s₂, hpull, ?_⟩
          rw [hgood, finishes_push rfl rfl]
          exact ⟨true, s₁, settled, hpush, hrest, rfl⟩
    · rintro ⟨succeeded, s₁, hpull, hfinishes⟩
      cases succeeded with
      | false =>
        rw [hbad, finishes_pull rfl] at hfinishes
        obtain ⟨settled, hvisits, rfl⟩ := hfinishes
        exact ⟨_, .cons (.unpulled hon hpull) hvisits, (done.tally_cons .unpulled settled).symm⟩
      | true =>
        rw [hgood, finishes_push rfl rfl] at hfinishes
        obtain ⟨pushed, s₂, settled, hpush, hvisits, rfl⟩ := hfinishes
        cases pushed with
        | false => exact ⟨_, .cons (.unpushed hon hpull hpush) hvisits, rfl⟩
        | true => exact ⟨_, .cons (.synchronized hon hpull hpush) hvisits, rfl⟩

end Surroundings

/-! ### The calls that are left -/

namespace Round

/-- How many calls a round makes at most until it ends. -/
def callsLeft (r : Round) : Nat :=
  match r.next with
  | .pull => 2 * r.remaining.length
  | .push => 2 * r.remaining.length - 1

theorem callsLeft_skipDisabled (r : Round) (properties : Properties) :
    (r.skipDisabled properties).callsLeft ≤ r.callsLeft := by
  obtain ⟨remaining, next, report⟩ := r
  cases next
  all_goals
    simp only [callsLeft, skipDisabled, List.length_drop]
    omega

theorem callsLeft_afterCall {r : Round} (h : r.remaining ≠ []) (succeeded : Bool) :
    (r.afterCall succeeded).callsLeft < r.callsLeft := by
  obtain ⟨remaining, next, report⟩ := r
  have hpos : 0 < remaining.length := List.length_pos_iff.mpr h
  cases next <;> cases succeeded <;> simp [callsLeft, afterCall] <;> omega

end Round

namespace Surroundings

variable {σ : Type} {w : Surroundings σ} {s s₁ s' : σ} {p : String × Synchronizer}
  {pairs : List (String × Synchronizer)} {settled : List Settlement} {report : SyncReport}
  {round : Round} {succeeded : Bool}

theorem enables_of_skipDisabled
    (h : (round.skipDisabled (w.properties s)).remaining = p :: pairs) : w.enables s p = true := by
  let passed := fun p => !w.enables s p
  have hdrop : round.remaining.dropWhile passed = p :: pairs := by
    calc round.remaining.dropWhile passed
        = (round.remaining.takeWhile passed ++ round.remaining.dropWhile passed).drop
            (round.remaining.takeWhile passed).length := List.drop_left.symm
      _ = round.remaining.drop (round.remaining.takeWhile passed).length := by
          rw [List.takeWhile_append_dropWhile]
      _ = p :: pairs := h
  have hhead := List.head?_dropWhile_not passed round.remaining
  simp only [hdrop, List.head?_cons] at hhead
  simpa [passed] using hhead

theorem leads_iff_of_some {c : SyncCall} {ok : Bool} (h : w.call c p.1 p.2 s = (s₁, some ok)) :
    w.Leads c p s succeeded s' ↔ succeeded = ok ∧ s' = s₁ := by
  constructor
  · intro hleads
    cases hleads with
    | atOnce hcall =>
      obtain ⟨hstate, houtcome⟩ := Prod.mk.inj (hcall.symm.trans h)
      exact ⟨Option.some.inj houtcome, hstate⟩
    | inTime hcall => exact absurd (hcall.symm.trans h) (by simp)
  · rintro ⟨rfl, rfl⟩
    exact .atOnce h

/-- The round once the pairs that are not synchronized are passed over. -/
theorem exists_turn (w : Surroundings σ) (round : Round) (s : σ) :
    ∃ turn, turn = (if round.next = .pull then round.skipDisabled (w.properties s) else round) ∧
      (∀ report s', w.Finishes turn s report s' ↔ w.Finishes round s report s') ∧
      turn.callsLeft ≤ round.callsLeft ∧
      ∀ {p pairs}, turn.remaining = p :: pairs → turn.next = .pull → w.enables s p = true := by
  by_cases hnext : round.next = .pull
  · refine ⟨round.skipDisabled (w.properties s), (if_pos hnext).symm, ?_, ?_, ?_⟩
    · exact fun report s' => finishes_skipDisabled hnext
    · exact round.callsLeft_skipDisabled _
    · exact fun hremaining _ => enables_of_skipDisabled hremaining
  · refine ⟨round, (if_neg hnext).symm, fun report s' => Iff.rfl, Nat.le_refl _, ?_⟩
    exact fun _ hpull => absurd hpull hnext

/-- What a round does until it waits for a call or ends: nothing of what is left gets lost, and fewer
calls are left than before. -/
theorem proceedWithin_cases {fuel : Nat} (hfuel : round.callsLeft < fuel) :
    (∃ s₁ done, w.proceedWithin fuel round s = (s₁, .inr done) ∧
      ∀ report s', w.Finishes round s report s' ↔ report = done ∧ s' = s₁) ∨
    ∃ s₁ waiting, w.proceedWithin fuel round s = (s₁, .inl waiting) ∧
      (∀ succeeded, (waiting.afterCall succeeded).callsLeft < round.callsLeft) ∧
      ∀ report s', w.Finishes round s report s' ↔
        ∃ succeeded s₂, w.Finishes (waiting.afterCall succeeded) s₂ report s' := by
  induction fuel generalizing round s with
  | zero => exact absurd hfuel (Nat.not_lt_zero _)
  | succ fuel ih =>
    obtain ⟨turn, hturn, hsame, hleft, henabled⟩ := w.exists_turn round s
    rw [proceedWithin, ← hturn]
    cases hremaining : turn.remaining with
    | nil =>
      refine Or.inl ⟨s, turn.report, rfl, fun report s' => ?_⟩
      rw [← hsame, finishes_done hremaining]
    | cons p pairs =>
      have hpairs : turn.remaining ≠ [] := by simp [hremaining]
      have hfewer := fun succeeded =>
        Nat.lt_of_lt_of_le (Round.callsLeft_afterCall hpairs succeeded) hleft
      have hcall : ∀ report s', w.Finishes round s report s' ↔
          ∃ succeeded s₁, w.Leads turn.next p s succeeded s₁ ∧
            w.Finishes (turn.afterCall succeeded) s₁ report s' := fun report s' =>
        (hsame report s').symm.trans (finishes_call hremaining (henabled hremaining))
      obtain ⟨group, synchronizer⟩ := p
      dsimp only
      rcases houtcome : w.call turn.next group synchronizer s with ⟨s₁, outcome⟩
      cases outcome with
      | none =>
        -- the round waits, and goes on with any outcome in any state
        refine Or.inr ⟨s₁, turn, rfl, hfewer, fun report s' => (hcall report s').trans ?_⟩
        constructor
        · rintro ⟨succeeded, s₂, -, hrest⟩
          exact ⟨succeeded, s₂, hrest⟩
        · rintro ⟨succeeded, s₂, hrest⟩
          exact ⟨succeeded, s₂, .inTime houtcome succeeded s₂, hrest⟩
      | some ok =>
        have hrest : ∀ report s', w.Finishes round s report s' ↔
            w.Finishes (turn.afterCall ok) s₁ report s' := by
          intro report s'
          rw [hcall]
          constructor
          · rintro ⟨succeeded, s₂, hleads, hrest⟩
            obtain ⟨rfl, rfl⟩ := (leads_iff_of_some houtcome).mp hleads
            exact hrest
          · exact fun hrest => ⟨ok, s₁, .atOnce houtcome, hrest⟩
        have hfuel' : (turn.afterCall ok).callsLeft < fuel :=
          Nat.lt_of_lt_of_le (hfewer ok) (Nat.lt_succ_iff.mp hfuel)
        dsimp only
        rcases ih (s := s₁) hfuel' with ⟨s₂, done, hend, hdone⟩ | ⟨s₂, waiting, hwait, hlt, hgoes⟩
        · exact Or.inl ⟨s₂, done, hend, fun report s' => (hrest report s').trans (hdone report s')⟩
        · exact Or.inr ⟨s₂, waiting, hwait, fun succeeded => Nat.lt_trans (hlt succeeded) (hfewer ok),
            fun report s' => (hrest report s').trans (hgoes report s')⟩

theorem callsLeft_lt (round : Round) : round.callsLeft < 2 * round.remaining.length + 1 := by
  rw [Round.callsLeft]
  split <;> omega

/-- A round is carried through to what is left of it, and to nothing else. -/
theorem carries_iff_finishes : w.Carries round s report s' ↔ w.Finishes round s report s' := by
  constructor
  · intro h
    induction h with
    | @ends round s s' report h =>
      rcases proceedWithin_cases (w := w) (s := s) (callsLeft_lt round) with
        ⟨s₁, done, hend, hdone⟩ | ⟨s₁, waiting, hwait, -⟩
      · obtain ⟨rfl, hreport⟩ := Prod.mk.inj (hend.symm.trans h)
        exact (hdone report _).mpr ⟨(Sum.inr.inj hreport).symm, rfl⟩
      · exact absurd (hwait.symm.trans h) (by simp)
    | @resumes round waiting s s₁ s₂ s' report succeeded h hrest ih =>
      rcases proceedWithin_cases (w := w) (s := s) (callsLeft_lt round) with
        ⟨s₁, done, hend, -⟩ | ⟨s₁, waiting, hwait, -, hgoes⟩
      · exact absurd (hend.symm.trans h) (by simp)
      · obtain ⟨-, hwaiting⟩ := Prod.mk.inj (hwait.symm.trans h)
        obtain rfl := Sum.inl.inj hwaiting
        exact (hgoes report s').mpr ⟨succeeded, s₂, ih⟩
  · intro h
    induction hleft : round.callsLeft using Nat.strongRecOn generalizing round s with
    | ind left ih =>
      rcases proceedWithin_cases (w := w) (s := s) (callsLeft_lt round) with
        ⟨s₁, done, hend, hdone⟩ | ⟨s₁, waiting, hwait, hlt, hgoes⟩
      · obtain ⟨rfl, rfl⟩ := (hdone report s').mp h
        exact .ends hend
      · obtain ⟨succeeded, s₂, hrest⟩ := (hgoes report s').mp h
        exact .resumes hwait (ih _ (hleft ▸ hlt succeeded) hrest rfl)

/-! ### The whole round -/

theorem exists_leads (w : Surroundings σ) (c : SyncCall) (p : String × Synchronizer) (s : σ) :
    ∃ succeeded s', w.Leads c p s succeeded s' := by
  cases hcall : w.call c p.1 p.2 s with
  | mk s₁ outcome =>
    cases outcome with
    | none => exact ⟨true, s₁, .inTime hcall true s₁⟩
    | some succeeded => exact ⟨succeeded, s₁, .atOnce hcall⟩

theorem exists_settles (w : Surroundings σ) (p : String × Synchronizer) (s : σ) :
    ∃ settlement s', w.Settles p s settlement s' := by
  cases henabled : w.enables s p with
  | false => exact ⟨_, s, .skipped henabled⟩
  | true =>
    obtain ⟨pulled, s₁, hpull⟩ := w.exists_leads .pull p s
    obtain ⟨pushed, s₂, hpush⟩ := w.exists_leads .push p s₁
    cases pulled with
    | false => exact ⟨_, s₁, .unpulled henabled hpull⟩
    | true =>
      cases pushed with
      | false => exact ⟨_, s₂, .unpushed henabled hpull hpush⟩
      | true => exact ⟨_, s₂, .synchronized henabled hpull hpush⟩

theorem exists_visits (w : Surroundings σ) (pairs : List (String × Synchronizer)) (s : σ) :
    ∃ settled s', w.Visits pairs s settled s' := by
  induction pairs generalizing s with
  | nil => exact ⟨[], s, .nil s⟩
  | cons p pairs ih =>
    obtain ⟨first, s₁, hfirst⟩ := w.exists_settles p s
    obtain ⟨settled, s', hrest⟩ := ih s₁
    exact ⟨first :: settled, s', .cons hfirst hrest⟩

/-- A round waits for a call, and goes on as another after it. -/
def GoesOn (w : Surroundings σ) (round next : Round) : Prop :=
  ∃ s s₁ waiting succeeded, w.proceed round s = (s₁, .inl waiting) ∧
    next = waiting.afterCall succeeded

theorem callsLeft_of_goesOn {next : Round} (h : w.GoesOn round next) :
    next.callsLeft < round.callsLeft := by
  obtain ⟨s, s₁, waiting, succeeded, hwait, rfl⟩ := h
  rcases proceedWithin_cases (w := w) (s := s) (callsLeft_lt round) with
    ⟨_, _, hend, -⟩ | ⟨_, _, hwait', hlt, -⟩
  · exact absurd (hend.symm.trans hwait) (by simp)
  · obtain ⟨-, hwaiting⟩ := Prod.mk.inj (hwait'.symm.trans hwait)
    obtain rfl := Sum.inl.inj hwaiting
    exact hlt succeeded

/-- The pairs of a round, group after group. -/
def allPairs (w : Surroundings σ) (s : σ) : List (String × Synchronizer) :=
  (w.groups s).flatMap fun group => (w.synchronizers s).map fun synchronizer => (group, synchronizer)

theorem length_allPairs (w : Surroundings σ) (s : σ) :
    (w.allPairs s).length = (w.groups s).length * (w.synchronizers s).length := by
  simp [allPairs, List.map_const']

/-- A round settles the pairs that there are when it starts, one after the other and each once, and
ends with the report of them, whatever its calls do and however they end. -/
theorem newRound_settles_pairs (w : Surroundings σ) (s : σ) :
    (∀ report s', w.Carries (w.newRound s) s report s' ↔
      ∃ settled, w.Visits (w.allPairs s) s settled s' ∧ report = ⟨settled.count .synchronized,
        settled.count .skipped, settled.count .unpulled + settled.count .unpushed⟩) ∧
    (∀ report s', w.Carries (w.newRound s) s report s' →
      report.synchronized + report.skipped + report.failed =
        (w.groups s).length * (w.synchronizers s).length) ∧
    (∃ report s', w.Carries (w.newRound s) s report s') ∧
    ¬∃ rounds : Nat → Round, ∀ n, w.GoesOn (rounds n) (rounds (n + 1)) := by
  have htally : ∀ settled, SyncReport.tally ⟨0, 0, 0⟩ settled = ⟨settled.count .synchronized,
      settled.count .skipped, settled.count .unpulled + settled.count .unpushed⟩ := by
    intro settled
    simp [SyncReport.tally]
  have hcarries : ∀ report s', w.Carries (w.newRound s) s report s' ↔
      ∃ settled, w.Visits (w.allPairs s) s settled s' ∧
        report = SyncReport.tally ⟨0, 0, 0⟩ settled := by
    intro report s'
    rw [carries_iff_finishes, finishes_pull rfl]
    rfl
  refine ⟨fun report s' => ?_, fun report s' h => ?_, ?_, ?_⟩
  · simp only [hcarries, htally]
  · obtain ⟨settled, hvisits, rfl⟩ := (hcarries report s').mp h
    change SyncReport.total _ = _
    rw [SyncReport.total_tally, hvisits.length_eq, length_allPairs]
    simp [SyncReport.total]
  · obtain ⟨settled, s', hvisits⟩ := w.exists_visits (w.allPairs s) s
    exact ⟨_, s', (hcarries _ s').mpr ⟨settled, hvisits, rfl⟩⟩
  · rintro ⟨rounds, hgoes⟩
    have hsum : ∀ n, (rounds n).callsLeft + n ≤ (rounds 0).callsLeft := by
      intro n
      induction n with
      | zero => exact Nat.le_refl _
      | succ n ih =>
        have hlt := callsLeft_of_goesOn (hgoes n)
        omega
    have := hsum ((rounds 0).callsLeft + 1)
    omega

end Surroundings

end ClusterMesh
