import ClusterMesh.Proofs.Delivery.Errand

/-!
# The call of an errand

The call is submitted, waits, and returns: when as many nodes have answered as its destination has,
or else when its time is over. What has come in for it up to then are answers to its command.
-/

namespace ClusterMesh.Errand

open Mesh

variable {h : Errand} {n k i t : Nat} {p p' : Pending}

structure Registers (h : Errand) (r : Registration) : Prop where
  caller : r.caller = h.caller
  station : r.station = h.origin
  command : r.command = h.sent
  instant : r.instant = h.before.now
  timeout : r.timeout = h.timeout

/-- The call waits for the results of a command. -/
def Awaits (h : Errand) (n : Nat) (p : Pending) : Prop :=
  ∃ r, h.Registers r ∧ (h.state n).Pends r p

structure Submitted (h : Errand) (n : Nat) : Prop where
  task : (h.state n).tasks[h.caller]? = some ⟨h.origin, .executing h.command .submitted, false⟩
  ready : (h.state n).IsReady h.caller
  now : (h.state n).now = h.before.now

theorem Awaits.task (hp : h.Awaits n p) : ∃ ticket reaper, (h.state n).tasks[h.caller]? =
    some ⟨h.origin, .executing h.sent (.waiting ticket (h.before.now + h.timeout) reaper), false⟩ ∧
      ((h.state n).store h.origin).command? ticket = some p := by
  obtain ⟨r, hr, hpends⟩ := hp
  refine ⟨r.ticket, r.reaper, ?_, ?_⟩
  · rw [← hr.caller, hpends.caller_at, hr.station, hr.command, hr.instant, hr.timeout]
  · rw [← hr.station]
    exact hpends.pending.1

theorem Awaits.unique (hp : h.Awaits n p) (hp' : h.Awaits n p') : p = p' := by
  obtain ⟨ticket, reaper, htask, hcommand⟩ := hp.task
  obtain ⟨ticket', reaper', htask', hcommand'⟩ := hp'.task
  cases htask.symm.trans htask'
  exact Option.some.inj (hcommand.symm.trans hcommand')

theorem not_over_of_executing {c : Command} {stage : CallStage} {aborted : Bool}
    (htask : (h.state n).tasks[h.caller]? = some ⟨i, .executing c stage, aborted⟩) :
    ¬h.Over n := by
  intro ho
  rw [Over, hasEnded, taskEnd?, htask] at ho
  cases ho

structure Ends (h : Errand) (n : Nat) (p : Pending) : Prop where
  returned : (h.state (n + 1)).tasks[h.caller]? = some ⟨h.origin, .ended (.returned (h.state n).now
    (.ok ⟨h.command.id, h.command.expected, p.results⟩)), false⟩
  cause : p.IsFull ∨ (h.state n).now = h.before.now + h.timeout

/-- A call that waits returns in its turn once its command is completed or its time is over. -/
theorem Awaits.ends (hp : h.Awaits n p) (hruns : h.deed n = .runs h.caller)
    (hdone : p.completed = true ∨ h.before.now + h.timeout ≤ (h.state n).now) : h.Ends n p := by
  obtain ⟨r, hr, hpends⟩ := hp
  rw [← hr.instant, ← hr.timeout] at hdone
  obtain ⟨hreturned, hcause⟩ := hpends.ends hdone
  refine ⟨?_, ?_⟩
  · rw [(turn_of_runs hruns).2, ← hr.caller, hreturned, hr.station, hr.command]
    rfl
  · rw [← hr.instant, ← hr.timeout]
    exact hcause

theorem Awaits.next (hp : h.Awaits n p) :
    (∃ p', h.Awaits (n + 1) p' ∧ ∀ id ∈ p.results.keys, id ∈ p'.results.keys) ∨ h.Ends n p := by
  by_cases hruns : h.deed n = .runs h.caller
  · -- a turn without cause leaves the call waiting
    by_cases hdone : p.completed = true ∨ h.before.now + h.timeout ≤ (h.state n).now
    · exact Or.inr (hp.ends hruns hdone)
    · obtain ⟨ho, hlt⟩ := not_or.mp hdone
      obtain ⟨r, hr, hpends⟩ := hp
      rw [← hr.instant, ← hr.timeout] at hlt
      rw [← hr.caller] at hruns
      obtain ⟨hready, hnext⟩ := turn_of_runs hruns
      obtain ⟨p', hp', hkeys⟩ := hpends.lingers hready (Bool.eq_false_iff.mpr ho)
        (Nat.lt_of_not_le hlt)
      exact Or.inl ⟨p', ⟨r, hr, hnext ▸ hp'⟩, hkeys⟩
  · obtain ⟨ticket, reaper, htask, -⟩ := hp.task
    have hclear := h.clear (not_over_of_executing htask)
    have hs := h.sound n
    obtain ⟨r, hr, hpends⟩ := hp
    obtain ⟨p', hp', hkeys⟩ := (h.act n).pends hs.placed hs.unstaffed hpends (hr.caller ▸ hruns)
      (hr.caller ▸ h.uncancelled n) fun hne htask => by
        rw [hr.command]
        rw [hr.station] at htask
        exact hclear.sole (hr.caller ▸ hne) htask
    exact Or.inl ⟨p', ⟨r, hr, hp'⟩, hkeys⟩

theorem Ends.over (he : h.Ends n p) : h.Over (n + 1) := by
  rw [Over, hasEnded, taskEnd?, he.returned]
  rfl

theorem Awaits.le (hp : h.Awaits n p) (hle : n ≤ k) (ho : ¬h.Over k) :
    ∃ p', h.Awaits k p' ∧ ∀ id ∈ p.results.keys, id ∈ p'.results.keys := by
  induction hle with
  | refl => exact ⟨p, hp, fun _ => id⟩
  | step _ ih =>
    obtain ⟨p', hp', hkeys⟩ := ih fun hover => ho (over_succ hover)
    rcases hp'.next with ⟨p'', hp'', hkeys'⟩ | hends
    · exact ⟨p'', hp'', fun id hid => hkeys' id (hkeys id hid)⟩
    · exact absurd hends.over ho

theorem submitted_zero (h : Errand) : h.Submitted 0 where
  task := (h.tasks_start _).trans (if_pos rfl)
  ready := by
    rw [h.start]
    exact (isReady_spawn h.before _ _ _).mpr (Or.inr rfl)
  now := by
    rw [h.start]
    rfl

theorem Submitted.begins (hsub : h.Submitted n) (hruns : h.deed n = .runs h.caller) :
    (∃ p, h.Awaits (n + 1) p) ∧
      (h.state (n + 1)).bus = ((h.state n).bus.publish (.command h.sent)).1 := by
  have hs := h.sound n
  have harranged := h.arranged_at (not_over_of_executing hsub.task)
  obtain ⟨L, hl⟩ := hs.ledger
  have hi : h.origin < (h.state n).stations.length := hs.stations.symm ▸ h.placed
  have hlater : 0 < ((h.state n).station h.origin).timeoutOf h.command :=
    harranged.timeout.symm ▸ h.positive
  have hnodes : ∀ nodes, h.command.destination = some nodes → 0 < nodes.size := by
    intro nodes hdestination
    rw [← KeyedList.length_keys]
    exact List.length_pos_iff.mpr (h.asked nodes hdestination).1
  have hnode : h.command.stamped ((h.state n).station h.origin).node = h.sent :=
    congrArg h.command.stamped (hs.node h.placed)
  obtain ⟨hready, hnext⟩ := turn_of_runs hruns
  obtain ⟨⟨p, hp⟩, hbus⟩ := pends_submit hl hready hsub.task hi harranged.accepts
    (harranged.sends _ hi) hlater hnodes
  rw [hnode, ← hnext] at hp hbus
  exact ⟨⟨p, _, ⟨rfl, rfl, rfl, hsub.now, harranged.timeout⟩, hp⟩, hbus⟩

theorem Submitted.keeps (hsub : h.Submitted n) (hruns : h.deed n ≠ .runs h.caller) :
    h.Submitted (n + 1) := by
  obtain ⟨L, hl⟩ := (h.sound n).ledger
  have hact := h.act n
  exact ⟨hact.task hl hsub.task not_false hruns (h.uncancelled n), hact.ready hl hruns hsub.ready,
    (hact.now_eq hl hsub.ready).trans hsub.now⟩

theorem submitted_or_awaits (h : Errand) (ho : ¬h.Over n) :
    h.Submitted n ∨ ∃ p, h.Awaits n p := by
  induction n with
  | zero => exact Or.inl h.submitted_zero
  | succ n ih =>
    rcases ih fun hover => ho (over_succ hover) with hsub | ⟨p, hp⟩
    · by_cases hruns : h.deed n = .runs h.caller
      · exact Or.inr (hsub.begins hruns).1
      · exact Or.inl (hsub.keeps hruns)
    · rcases hp.next with ⟨p', hp', -⟩ | hends
      · exact Or.inr ⟨p', hp'⟩
      · exact absurd hends.over ho

/-- A call that has ended has returned what had come in when it did. -/
theorem exists_ends (ho : h.Over k) : ∃ n < k, ∃ p, h.Awaits n p ∧ h.Ends n p := by
  induction k with
  | zero => exact absurd ho h.not_over_zero
  | succ k ih =>
    by_cases hbefore : h.Over k
    · obtain ⟨n, hlt, hends⟩ := ih hbefore
      exact ⟨n, Nat.lt_succ_of_lt hlt, hends⟩
    · refine ⟨k, Nat.lt_succ_self k, ?_⟩
      rcases h.submitted_or_awaits hbefore with hsub | ⟨p, hp⟩
      · by_cases hruns : h.deed k = .runs h.caller
        · obtain ⟨p, hp⟩ := (hsub.begins hruns).1
          obtain ⟨ticket, reaper, htask, -⟩ := hp.task
          exact absurd ho (not_over_of_executing htask)
        · exact absurd ho (not_over_of_executing (hsub.keeps hruns).task)
      · rcases hp.next with ⟨p', hp', -⟩ | hends
        · obtain ⟨ticket, reaper, htask, -⟩ := hp'.task
          exact absurd ho (not_over_of_executing htask)
        · exact ⟨p, hp, hends⟩

theorem now_le (h : Errand) (hle : n ≤ k) : (h.state n).now ≤ (h.state k).now := by
  induction hle with
  | refl => exact Nat.le_refl _
  | @step k _ ih =>
    obtain ⟨L, hl⟩ := (h.sound k).ledger
    exact Nat.le_trans ih ((h.act k).now_le hl)

/-! ### What has come in -/

/-- Everything that has come in is the answer of a station that the command is for. -/
theorem Awaits.entries (hp : h.Awaits n p) {entry : Node × CommandResult}
    (hentry : entry ∈ p.results.toList) :
    ∃ i, h.Target i ∧ entry.1.id = (h.node i).id ∧ entry.2 = h.reply i := by
  obtain ⟨ticket, reaper, htask, hcommand⟩ := hp.task
  obtain ⟨r, hr, hpends⟩ := hp
  obtain ⟨hsource, hid⟩ := hpends.fitting entry hentry
  have hrecords : (h.state n).Records h.origin entry.2 :=
    ⟨(h.sound n).stations.symm ▸ h.placed, ticket, p, entry.1, hcommand, hentry⟩
  obtain ⟨i, htarget, hreply⟩ :=
    (h.clear (not_over_of_executing htask)).carries.records hrecords rfl (by rw [hid, hr.command]; rfl)
  refine ⟨i, htarget, ?_, hreply⟩
  rw [hreply] at hsource
  exact (Option.some.inj hsource).symm

theorem Awaits.keys (hp : h.Awaits n p) {id : String} (hid : id ∈ p.results.keys) :
    ∃ i, h.Target i ∧ (h.node i).id = id := by
  obtain ⟨entry, hentry, rfl⟩ := List.mem_map.mp hid
  obtain ⟨i, htarget, hkey, -⟩ := hp.entries hentry
  exact ⟨i, htarget, hkey.symm⟩

theorem Target.mem_keys (ht : h.Target i) {nodes : NodeSet}
    (hnodes : h.command.destination = some nodes) : (h.node i).id ∈ nodes.keys := by
  have haddressed := ht.addressed
  have hdestination : h.sent.event.destination = some nodes := hnodes
  rw [Event.isAddressedTo, hdestination] at haddressed
  exact KeyedList.contains_iff.mp haddressed

theorem Awaits.expected (hp : h.Awaits n p) :
    p.command.expected = h.command.destination.map KeyedList.size := by
  obtain ⟨r, hr, hpends⟩ := hp
  rw [hpends.pending.2, hr.command]
  rfl

theorem Awaits.mem_keys_iff (hp : h.Awaits n p) {nodes : NodeSet}
    (hnodes : h.command.destination = some nodes) (hfull : p.IsFull) {id : String} :
    id ∈ p.results.keys ↔ id ∈ nodes.keys := by
  obtain ⟨expected, hexpected, hle⟩ := hfull
  rw [hp.expected, hnodes] at hexpected
  obtain rfl : nodes.size = expected := Option.some.inj hexpected
  have hsubset : p.results.keys ⊆ nodes.keys := by
    intro id hid
    obtain ⟨i, htarget, rfl⟩ := hp.keys hid
    exact htarget.mem_keys hnodes
  -- distinct keys of the destination, and at least as many as it has
  rw [← KeyedList.length_keys, ← KeyedList.length_keys] at hle
  exact ((List.subperm_of_subset p.results.keys_nodup hsubset).perm_of_length_le hle).mem_iff

theorem Awaits.full_of_keys (hp : h.Awaits n p) {nodes : NodeSet}
    (hnodes : h.command.destination = some nodes)
    (hkeys : ∀ id ∈ nodes.keys, id ∈ p.results.keys) : p.IsFull := by
  refine ⟨nodes.size, hp.expected.trans (by rw [hnodes]; rfl), ?_⟩
  rw [← KeyedList.length_keys, ← KeyedList.length_keys]
  exact (List.subperm_of_subset nodes.keys_nodup hkeys).length_le

/-- A command that is completed before the time of its call is over has all answers that it is to
have. -/
theorem Awaits.full_of_completed (hp : h.Awaits n p) (hcompleted : p.completed = true)
    (hnow : (h.state n).now < h.before.now + h.timeout) : p.IsFull := by
  obtain ⟨r, hr, hpends⟩ := hp
  refine (hpends.closed hcompleted).resolve_right fun hle => ?_
  rw [hr.instant, hr.timeout] at hle
  omega

theorem Awaits.completed_of_full (hp : h.Awaits n p) (hfull : p.IsFull) : p.completed = true := by
  obtain ⟨r, hr, hpends⟩ := hp
  by_contra hcompleted
  exact hpends.opened (Bool.eq_false_iff.mpr hcompleted) hfull

end ClusterMesh.Errand
