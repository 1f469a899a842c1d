import ClusterMesh.Proofs.Dispatch.Fates
import ClusterMesh.Proofs.Dispatch.Reading
import ClusterMesh.Proofs.Dispatch.Standing
import Mathlib.Data.List.Perm.Basic

/-!
# How a message reaches a handler

Where messages travel only through producers, the bus and the loops of the consumers, a handler is
invoked with a message only if one station has sent it, the own station has taken it from the bus,
and the handler was found for it; each step has a gate of its own. No message reaches a station
twice, whether its call to the dispatcher is one step or stays under way.
-/

namespace ClusterMesh

/-- How far the work on a message has come. -/
def Fate.rank : Fate → Nat
  | refused | queued => 0
  | taken _ => 1
  | invoked _ => 2
  | ended _ => 3

theorem Fate.Advances.rank_lt {f f' : Fate} {notice : Notice} (h : f.Advances notice f') :
    f.rank < f'.rank := by
  cases h <;> simp [Fate.rank]

namespace Docket

variable {d d' : Docket} {notice : Notice} {x y : Intake}

theorem Turn.mem (h : d.Turn notice d') (hy : y ∈ d') :
    (∃ x ∈ d, x.message = y.message ∧ x.origin = y.origin) ∨ notice = .called y := by
  cases h with
  | @call _ x _ =>
    rcases List.mem_append.mp hy with hold | hnew
    · exact Or.inl ⟨y, hold, rfl, rfl⟩
    · rw [List.mem_singleton.mp hnew]
      exact Or.inr rfl
  | @change d₁ d₂ x _ f _ =>
    rcases List.mem_append.mp hy with hold | hrest
    · exact Or.inl ⟨y, List.mem_append_left _ hold, rfl, rfl⟩
    · rcases List.mem_cons.mp hrest with rfl | hold
      · exact Or.inl ⟨x, List.mem_append_right _ List.mem_cons_self, rfl, rfl⟩
      · exact Or.inl ⟨y, List.mem_append_right _ (List.mem_cons_of_mem _ hold), rfl, rfl⟩
  | still _ => exact Or.inl ⟨y, hy, rfl, rfl⟩

/-- The calls stay what they are, whatever becomes of their messages. -/
theorem Turn.calls (h : d.Turn notice d') (hnone : ∀ x, notice ≠ .called x) :
    d'.map Intake.call = d.map Intake.call := by
  cases h with
  | @call d x _ => exact absurd rfl (hnone x)
  | @change d₁ d₂ x _ f _ => simp [Intake.call]
  | still _ => rfl

end Docket

/-- Two messages were not read at one place. -/
def DispatchCall.Differs (c c' : DispatchCall) : Prop := ∀ p, c.origin = some p → c'.origin ≠ some p

theorem DispatchCall.Differs.symm {c c' : DispatchCall} (h : c.Differs c') : c'.Differs c :=
  fun p hp hp' => h p hp' hp

namespace Dispatcher

theorem entering_place (d : Dispatcher) (message : Message) :
    (d.place message).1.entering = d.entering := by
  unfold place
  split
  · split <;> rfl
  · rfl

theorem entering_accept (d : Dispatcher) (message : Message) :
    (d.accept message).1.entering = d.entering := by
  unfold accept
  split
  · rfl
  · exact d.enlist.entering_place message

end Dispatcher

namespace Bus

variable {μ : Type}

theorem publish_cases (b : Bus μ) (message : μ) : (b.publish message).1 = b ∨
    (b.publish message).1.published = b.published + 1 ∧ (b.publish message).1.kept =
      (b.kept ++ [message]).drop (b.kept.length + 1 - b.capacity) ∧
      ∀ s, b.place s ≤ (b.publish message).1.place s := by
  unfold publish
  split
  · exact Or.inl rfl
  · refine Or.inr ⟨rfl, by simp, fun s => ?_⟩
    simp only [place, unread]
    cases Table.get? b.positions s with
    | none =>
      simp only [Option.getD_none]
      omega
    | some position =>
      simp only [Option.getD_some]
      omega

end Bus

namespace Mesh

variable {m m' : Mesh} {i : Nat} {e : Option (Nat × Notice)} {c : DispatchCall}

/-- The loop of a station takes a message off the bus for its dispatcher. -/
structure TakesIn (m m' : Mesh) (i : Nat) (c : DispatchCall) : Prop where
  takes : (m.station i).takes c.message = true
  loop : ∃ (t s : Nat) (bus : Bus Message),
    m.tasks[t]? = some ⟨i, .receiving (some s), false⟩ ∧ c.origin = some (m.bus.place s) ∧
      m.bus.receive s = (bus, .message c.message) ∧ m'.bus.place s = bus.place s

theorem entering_deliver (hi : i < m.stations.length) (message : Message)
    (after : Dispatcher × Admission) :
    ((m.deliver i message after).station i).dispatcher.entering = after.1.entering := by
  rw [station_deliver, if_pos ⟨rfl, hi⟩]

/-- A call that ends was made directly or by a loop, or was under way. -/
theorem Duty.called {x : Intake} (hd : m.Duty (some (i, .called x)) m') :
    ((x.origin = none ∨ m.TakesIn m' i x.call) ∧
      (m'.station i).dispatcher.entering = (m.station i).dispatcher.entering) ∨
    ∃ k : Nat, (m.station i).dispatcher.entering[k]? = some x.call ∧
      (m'.station i).dispatcher.entering = (m.station i).dispatcher.entering.eraseIdx k ∧
      m'.bus = m.bus := by
  generalize he : some (i, Notice.called x) = e at hd
  cases hd with
  | @receive t j s bus message task placed next =>
    obtain ⟨hnotice, htakes, heq⟩ | ⟨hnotice, -, -⟩ :=
      consume_cases m bus j message (m.bus.place s)
    · rw [hnotice] at he
      cases he
      rw [heq, dispatch]
      refine Or.inl ⟨Or.inr ⟨htakes, t, s, bus, task, rfl, next, ?_⟩, ?_⟩
      · rw [bus_deliver]
      · rw [entering_deliver (m := { m with bus := bus }) placed, Dispatcher.entering_accept]
        rfl
    · rw [hnotice] at he
      cases he
  | @call j message placed =>
    cases he
    refine Or.inl ⟨Or.inl rfl, ?_⟩
    rw [dispatch, entering_deliver placed, Dispatcher.entering_accept]
  | @resume j k c placed underWay =>
    cases he
    refine Or.inr ⟨k, underWay, ?_, ?_⟩
    · rw [endDispatch, entering_deliver placed, Dispatcher.entering_place]
      rfl
    · rw [endDispatch, bus_deliver]
  | @work t j a a' notice m' hw => cases hw <;> cases he
  | _ => cases he

/-- A call that has passed the check was made directly or by a loop. -/
theorem Duty.entered (hd : m.Duty (some (i, .entered c)) m') :
    (c.origin = none ∨ m.TakesIn m' i c) ∧
      (m'.station i).dispatcher.entering = (m.station i).dispatcher.entering ++ [c] := by
  generalize he : some (i, Notice.entered c) = e at hd
  cases hd with
  | enter message placed opened =>
    cases he
    refine ⟨Or.inl rfl, ?_⟩
    rw [beginDispatch, station_updateDispatcher_self placed]
    rfl
  | @read t j s bus message task placed next takes opened =>
    cases he
    refine ⟨Or.inr ⟨takes, t, s, bus, task, rfl, next, rfl⟩, ?_⟩
    rw [beginDispatch, station_updateDispatcher_self (m := { m with bus := bus }) placed]
    rfl
  | receive message task placed =>
    unfold arrival at he
    split at he <;> cases he
  | @work t j a a' notice m' hw => cases hw <;> cases he
  | _ => cases he

/-- Nothing else changes what calls are under way. -/
theorem Duty.entering_eq (hd : m.Duty e m') (hl : m.Looped)
    (hcalled : ∀ x, e ≠ some (i, .called x)) (hentered : ∀ c, e ≠ some (i, .entered c)) :
    (m'.station i).dispatcher.entering = (m.station i).dispatcher.entering := by
  cases hd.sight hl i with
  | aside beside silent => rw [beside.dispatcher]
  | ring instant later => rfl
  | @found s fresh =>
    obtain ⟨interval, timeout, pool, hdispatcher⟩ := fresh.dispatcher
    rw [station_addStation]
    split
    · next hi =>
      have hnew : (m.station i).dispatcher.entering = [] := by
        simp [station, hi]
        rfl
      rw [hnew]
      split <;> rw [hdispatcher] <;> rfl
    · rfl
  | given beside placed disposes origin => exact absurd rfl (hcalled _)
  | entered beside placed c => exact absurd rfl (hentered c)
  | closed placed =>
    rw [Mesh.close, station_updateDispatcher_self placed]
    rfl
  | severed placed =>
    rw [Mesh.sever, station_wakeWorker, station_updateDispatcher_self placed]
    rfl
  | @failed t job aborted task =>
    have hstation := station_updateDispatcher m i i fun d => { d with workerGone := true }
    rw [loseWorker, station_finish, hstation]
    split <;> rfl
  | @worked t a a' notice m' hw =>
    rw [hw.labour.station]
    split
    · obtain ⟨queue, stats, heq⟩ := (m.station i).dispatcher.noting_frame notice
      rw [heq]
    · rfl

end Mesh

namespace Service

variable (h : Service) {i n k q place : Nat} {message : Message}

/-- At a step a station sends a message, which takes a place on the bus. -/
structure Sends (h : Service) (q place : Nat) (message : Message) : Prop where
  sent : ∃ s given, h.event q = some (s, .sent given (.ok true)) ∧
    ((h.state q).station s).sends given = true ∧
    message = given.stamped ((h.state q).station s).node
  before : (h.state q).bus.published = place
  after : (h.state (q + 1)).bus.published = place + 1

theorem bus_succ (n : Nat) : (h.state n).bus.Quiet (h.state (n + 1)).bus ∨
    ∃ message, h.Sends n (h.state n).bus.published message ∧ (h.state (n + 1)).bus.kept =
      ((h.state n).bus.kept ++ [message]).drop
        ((h.state n).bus.kept.length + 1 - (h.state n).bus.capacity) ∧
      ∀ s, (h.state n).bus.place s ≤ (h.state (n + 1)).bus.place s := by
  rcases (h.step n).bus_cases with hquiet | ⟨j, given, hevent, hsends, hbus⟩
  · exact Or.inl hquiet
  · rcases (h.state n).bus.publish_cases (given.stamped ((h.state n).station j).node) with
      hsame | ⟨hpublished, hkept, hplace⟩
    · rw [hsame] at hbus
      rw [hbus]
      exact Or.inl (.refl _)
    · rw [← hbus] at hpublished hkept hplace
      exact Or.inr ⟨_, ⟨⟨j, given, hevent, hsends, rfl⟩, rfl, hpublished⟩, hkept, hplace⟩

theorem published_le (hk : n ≤ k) : (h.state n).bus.published ≤ (h.state k).bus.published := by
  induction hk with
  | refl => exact Nat.le_refl _
  | @step k _ ih =>
    rcases h.bus_succ k with hquiet | ⟨message, hsends, -⟩
    · rwa [hquiet.published]
    · refine Nat.le_trans ih ?_
      rw [hsends.after]
      exact Nat.le_succ _

theorem place_le_succ (n s : Nat) : (h.state n).bus.place s ≤ (h.state (n + 1)).bus.place s := by
  rcases h.bus_succ n with hquiet | ⟨message, -, -, hplace⟩
  · exact hquiet.place s
  · exact hplace s

/-- All that the bus keeps was sent. -/
structure Stocked (h : Service) (n : Nat) : Prop where
  fits : (h.state n).bus.kept.length ≤ (h.state n).bus.published
  source : ∀ {j : Nat} {message : Message}, (h.state n).bus.kept[j]? = some message →
    ∃ q < n, h.Sends q ((h.state n).bus.published - (h.state n).bus.kept.length + j) message

theorem Stocked.succ {h : Service} (hs : h.Stocked n) : h.Stocked (n + 1) := by
  have hfits := hs.fits
  rcases h.bus_succ n with hquiet | ⟨message, hsends, hkept, -⟩
  · refine ⟨by rw [hquiet.kept, hquiet.published]; exact hfits, ?_⟩
    intro j message hj
    rw [hquiet.kept] at hj
    obtain ⟨q, hq, hsent⟩ := hs.source hj
    rw [hquiet.kept, hquiet.published]
    exact ⟨q, Nat.lt_succ_of_lt hq, hsent⟩
  · have hpublished := hsends.after
    have hlength : (h.state (n + 1)).bus.kept.length = (h.state n).bus.kept.length + 1 -
        ((h.state n).bus.kept.length + 1 - (h.state n).bus.capacity) := by
      rw [hkept, List.length_drop, List.length_append, List.length_singleton]
    refine ⟨by omega, ?_⟩
    intro j message' hj
    obtain ⟨hlt, -⟩ := List.getElem?_eq_some_iff.mp hj
    rw [hkept, List.getElem?_drop] at hj
    generalize hd : (h.state n).bus.kept.length + 1 - (h.state n).bus.capacity = skipped at *
    by_cases hold : skipped + j < (h.state n).bus.kept.length
    · rw [List.getElem?_append_left hold] at hj
      obtain ⟨q, hq, hsent⟩ := hs.source hj
      refine ⟨q, Nat.lt_succ_of_lt hq, ?_⟩
      have hplace : (h.state (n + 1)).bus.published - (h.state (n + 1)).bus.kept.length + j =
          (h.state n).bus.published - (h.state n).bus.kept.length + (skipped + j) := by
        omega
      rwa [hplace]
    · have hlast : skipped + j = (h.state n).bus.kept.length := by omega
      rw [hlast, List.getElem?_concat_length] at hj
      obtain rfl := Option.some.inj hj
      refine ⟨n, Nat.lt_succ_self n, ?_⟩
      have hplace : (h.state (n + 1)).bus.published - (h.state (n + 1)).bus.kept.length + j =
          (h.state n).bus.published := by
        omega
      rwa [hplace]

theorem stocked (n : Nat) : h.Stocked n := by
  induction n with
  | zero =>
    obtain ⟨capacity, hstart⟩ := h.start
    refine ⟨by rw [hstart]; exact Nat.le_refl _, ?_⟩
    intro j message hj
    rw [hstart] at hj
    cases hj
  | succ n ih => exact ih.succ

/-! ### What a station reads -/

/-- At a step the loop of a station reads a message at a place, and gives it to the dispatcher. -/
structure Reads (h : Service) (i k place : Nat) (message : Message) : Prop where
  noticed : h.event k = some (i, .entered ⟨message, some place⟩) ∨
    ∃ f, h.event k = some (i, .called ⟨message, some place, f⟩)
  loop : ∃ t s : Nat, (h.state k).tasks[t]? = some ⟨i, .receiving (some s), false⟩ ∧
    (h.state k).bus.place s = place ∧ (h.state (k + 1)).bus.place s = place + 1

theorem Reads.takesIn {h : Service} (hr : h.Reads i k place message) :
    (h.state k).TakesIn (h.state (k + 1)) i ⟨message, some place⟩ := by
  have hstep := h.step k
  rcases hr.noticed with hevent | ⟨f, hevent⟩
  · rw [hevent] at hstep
    exact hstep.entered.1.resolve_left nofun
  · rw [hevent] at hstep
    rcases hstep.called with ⟨hmade, -⟩ | ⟨-, -, -, hbus⟩
    · exact hmade.resolve_left nofun
    · -- a call that goes on leaves the bus alone
      obtain ⟨t, s, -, hbefore, hafter⟩ := hr.loop
      rw [hbus, hbefore] at hafter
      exact absurd hafter (Nat.ne_of_lt (Nat.lt_succ_self place))

theorem reads_of_takesIn {c : DispatchCall}
    (hnoticed : h.event k = some (i, .entered c) ∨
      ∃ f, h.event k = some (i, .called ⟨c.message, c.origin, f⟩))
    (ht : (h.state k).TakesIn (h.state (k + 1)) i c) :
    ∃ p, c.origin = some p ∧ h.Reads i k p c.message := by
  obtain ⟨t, s, bus, htask, horigin, hreceive, hafter⟩ := ht.loop
  refine ⟨_, horigin, ?_, t, s, htask, rfl, hafter.trans (Bus.receive_place hreceive).2.1⟩
  rwa [← horigin]

theorem source_of_read (hr : h.Reads i n place message) : ∃ q < n, h.Sends q place message := by
  obtain ⟨t, s, bus, -, horigin, hreceive, -⟩ := hr.takesIn.loop
  obtain rfl : place = (h.state n).bus.place s := Option.some.inj horigin
  obtain ⟨-, -, -, j, hj, hat⟩ := Bus.receive_place hreceive
  obtain ⟨q, hq, hsends⟩ := (h.stocked n).source hj
  rw [hat (h.stocked n).fits] at hsends
  exact ⟨q, hq, hsends⟩

/-- All calls that were made to the dispatcher of a station. -/
def calls (h : Service) (i n : Nat) : List DispatchCall :=
  (h.docket i n).map Intake.call ++ ((h.state n).station i).dispatcher.entering

/-- At each step the calls are the same as before, or there is one more. -/
theorem calls_succ (i n : Nat) : (h.calls i (n + 1)).Perm (h.calls i n) ∨
    ∃ c, (h.calls i (n + 1)).Perm (c :: h.calls i n) ∧
      (c.origin = none ∨ ∃ p, c.origin = some p ∧ h.Reads i n p c.message) := by
  have hstep := h.step n
  by_cases hcalled : ∃ x, h.event n = some (i, .called x)
  · obtain ⟨x, hevent⟩ := hcalled
    have hdocket : (h.docket i (n + 1)).map Intake.call =
        (h.docket i n).map Intake.call ++ [x.call] := by
      rw [h.docket_of_event hevent]
      exact List.map_append
    rw [hevent] at hstep
    simp only [calls, hdocket, List.append_assoc, List.singleton_append]
    rcases hstep.called with ⟨hmade, hentering⟩ | ⟨k, hk, hentering, -⟩
    · refine Or.inr ⟨x.call, ?_, hmade.imp_right (h.reads_of_takesIn (Or.inr ⟨x.fate, hevent⟩))⟩
      rw [hentering]
      exact List.perm_middle
    · refine Or.inl ?_
      obtain ⟨hlt, hcall⟩ := List.getElem?_eq_some_iff.mp hk
      rw [hentering, ← hcall]
      exact (List.getElem_cons_eraseIdx_perm hlt).append_left _
  have hdocket : (h.docket i (n + 1)).map Intake.call = (h.docket i n).map Intake.call := by
    obtain ⟨notice, hnotice, hturn⟩ | ⟨-, heq⟩ := h.docket_succ i n
    · refine hturn.calls fun x hx => hcalled ⟨x, ?_⟩
      rw [hnotice, hx]
    · rw [heq]
  by_cases hentered : ∃ c, h.event n = some (i, .entered c)
  · obtain ⟨c, hevent⟩ := hentered
    rw [hevent] at hstep
    obtain ⟨hmade, hentering⟩ := hstep.entered
    refine Or.inr ⟨c, ?_, hmade.imp_right (h.reads_of_takesIn (Or.inl hevent))⟩
    rw [calls, calls, hdocket, hentering, ← List.append_assoc]
    exact List.perm_append_singleton c _
  · refine Or.inl (List.Perm.of_eq ?_)
    have hentering := hstep.entering_eq (h.looped n) (fun x hx => hcalled ⟨x, hx⟩)
      fun c hc => hentered ⟨c, hc⟩
    rw [calls, calls, hdocket, hentering]

/-- The loop of a station is past all places at which the station has read, each of them once. -/
structure Followed (h : Service) (i n : Nat) : Prop where
  past : ∀ {c : DispatchCall} {p : Nat}, c ∈ h.calls i n → c.origin = some p →
    p < (h.state n).bus.published
  loop : ∀ {t s : Nat}, (h.state n).tasks[t]? = some ⟨i, .receiving (some s), false⟩ →
    ∀ {c : DispatchCall} {p : Nat}, c ∈ h.calls i n → c.origin = some p →
      p < (h.state n).bus.place s
  distinct : (h.calls i n).Pairwise DispatchCall.Differs
  read : ∀ {c : DispatchCall} {p : Nat}, c ∈ h.calls i n → c.origin = some p →
    ∃ k < n, h.Reads i k p c.message

/-- A station reads on from where its loop is. -/
theorem Followed.reads {h : Service} (hf : h.Followed i n) {p : Nat}
    (hr : h.Reads i n p message) :
    p < (h.state n).bus.published ∧ (∀ c ∈ h.calls i n, c.origin ≠ some p) ∧
      ∀ {t s : Nat}, (h.state n).tasks[t]? = some ⟨i, .receiving (some s), false⟩ →
        p < (h.state (n + 1)).bus.place s := by
  obtain ⟨t, s, htask, hplace, hafter⟩ := hr.loop
  obtain ⟨_, s', bus, -, horigin, hreceive, -⟩ := hr.takesIn.loop
  obtain ⟨-, -, hlt, -⟩ := Bus.receive_place hreceive
  obtain rfl : p = (h.state n).bus.place s' := Option.some.inj horigin
  refine ⟨hlt, ?_, ?_⟩
  · intro c hc hcp
    have hbefore := hf.loop htask hc hcp
    omega
  · intro t' s'' htask'
    -- a station has one loop that runs
    have hloop := (h.looped n).only htask
    rw [(h.looped n).only htask'] at hloop
    obtain rfl := Option.some.inj hloop
    rw [htask] at htask'
    cases Option.some.inj htask'
    omega

theorem Followed.succ {h : Service} (hf : h.Followed i n) : h.Followed i (n + 1) := by
  have hpublished := h.published_le (Nat.le_succ n)
  -- each call that was read is an old one, or the one that is read now
  have hcases : ∀ {c : DispatchCall} {p : Nat}, c ∈ h.calls i (n + 1) → c.origin = some p →
      c ∈ h.calls i n ∨ h.Reads i n p c.message := by
    intro c p hc hp
    rcases h.calls_succ i n with hsame | ⟨c', hnew, hread⟩
    · exact Or.inl (hsame.mem_iff.mp hc)
    · rcases List.mem_cons.mp (hnew.mem_iff.mp hc) with rfl | hold
      · rcases hread with hnone | ⟨p', hp', hr⟩
        · rw [hp] at hnone
          cases hnone
        · rw [hp] at hp'
          obtain rfl := Option.some.inj hp'
          exact Or.inr hr
      · exact Or.inl hold
  refine ⟨?_, ?_, ?_, ?_⟩
  · intro c p hc hp
    refine Nat.lt_of_lt_of_le ?_ hpublished
    rcases hcases hc hp with hold | hr
    · exact hf.past hold hp
    · exact (hf.reads hr).1
  · intro t s htask c p hc hp
    rcases (h.step n).receiving_cases htask with hsame | hnew
    · rcases hcases hc hp with hold | hr
      · exact Nat.lt_of_lt_of_le (hf.loop hsame hold hp) (h.place_le_succ n s)
      · exact (hf.reads hr).2.2 hsame
    · rw [hnew]
      rcases hcases hc hp with hold | hr
      · exact hf.past hold hp
      · exact (hf.reads hr).1
  · rcases h.calls_succ i n with hsame | ⟨c, hnew, hread⟩
    · exact (hsame.pairwise_iff DispatchCall.Differs.symm).mpr hf.distinct
    · refine (hnew.pairwise_iff DispatchCall.Differs.symm).mpr
        (List.pairwise_cons.mpr ⟨?_, hf.distinct⟩)
      intro c' hc' p hp
      rcases hread with hnone | ⟨p', hp', hr⟩
      · rw [hp] at hnone
        cases hnone
      · rw [hp] at hp'
        obtain rfl := Option.some.inj hp'
        exact (hf.reads hr).2.1 c' hc'
  · intro c p hc hp
    rcases hcases hc hp with hold | hr
    · obtain ⟨k, hk, hr⟩ := hf.read hold hp
      exact ⟨k, Nat.lt_succ_of_lt hk, hr⟩
    · exact ⟨n, Nat.lt_succ_self n, hr⟩

theorem followed (i n : Nat) : h.Followed i n := by
  induction n with
  | zero =>
    have hnone : h.calls i 0 = [] := by
      obtain ⟨capacity, hstart⟩ := h.start
      rw [calls, hstart]
      rfl
    refine ⟨?_, ?_, ?_, ?_⟩ <;> rw [hnone]
    · exact fun hc => absurd hc List.not_mem_nil
    · exact fun _ _ _ hc => absurd hc List.not_mem_nil
    · exact List.Pairwise.nil
    · exact fun hc => absurd hc List.not_mem_nil
  | succ n ih => exact ih.succ

/-- A station reads each place once. -/
theorem Followed.place_eq {h : Service} (hf : h.Followed i n) {j j' p : Nat} {x y : Intake}
    (hx : (h.docket i n)[j]? = some x) (hy : (h.docket i n)[j']? = some y)
    (hxp : x.origin = some p) (hyp : y.origin = some p) : j = j' := by
  have hdistinct : (h.docket i n).Pairwise fun x y => x.call.Differs y.call :=
    List.pairwise_map.mp (List.pairwise_append.mp hf.distinct).1
  obtain ⟨hj, rfl⟩ := List.getElem?_eq_some_iff.mp hx
  obtain ⟨hj', rfl⟩ := List.getElem?_eq_some_iff.mp hy
  rcases Nat.lt_trichotomy j j' with hlt | heq | hgt
  · exact absurd hyp (List.pairwise_iff_getElem.mp hdistinct j j' hj hj' hlt p hxp)
  · exact heq
  · exact absurd hxp (List.pairwise_iff_getElem.mp hdistinct j' j hj' hj hgt p hyp)

theorem mem_docket_succ {y : Intake} (hy : y ∈ h.docket i (n + 1)) :
    (∃ x ∈ h.docket i n, x.message = y.message ∧ x.origin = y.origin) ∨
      h.event n = some (i, .called y) := by
  obtain ⟨notice, hevent, hturn⟩ | ⟨-, heq⟩ := h.docket_succ i n
  · rcases hturn.mem hy with hold | rfl
    · exact Or.inl hold
    · exact Or.inr hevent
  · rw [heq] at hy
    exact Or.inl ⟨y, hy, rfl, rfl⟩

theorem called_of_mem {x : Intake} (hx : x ∈ h.docket i n) :
    ∃ k < n, ∃ f, h.event k = some (i, .called ⟨x.message, x.origin, f⟩) := by
  induction n generalizing x with
  | zero => cases hx
  | succ n ih =>
    rcases h.mem_docket_succ hx with ⟨y, hy, hmessage, horigin⟩ | hevent
    · obtain ⟨k, hk, f, hevent⟩ := ih hy
      rw [hmessage, horigin] at hevent
      exact ⟨k, Nat.lt_succ_of_lt hk, f, hevent⟩
    · exact ⟨n, Nat.lt_succ_self n, x.fate, hevent⟩

end Service

end ClusterMesh
