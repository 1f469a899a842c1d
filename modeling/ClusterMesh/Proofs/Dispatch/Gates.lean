import ClusterMesh.Proofs.Dispatch.Passage
import ClusterMesh.Proofs.Handler.Binding

/-!
# No unforced message slips through

The producer of the sender, the consumer of the receiver, the destination and the handler are gates
on the way of a message, each passed at a time of its own. Commands and results are held back by no
switch. A message that was published is handed to at most one handler on each station, once.
-/

namespace ClusterMesh

/-- A run in which messages come to the dispatchers only through the loops of the consumers. -/
structure Passage extends Service where
  travels : ∀ {n i x}, event n = some (i, .called x) → x.origin ≠ none

namespace Mesh

variable {m m' : Mesh} {t i : Nat} {id : HandlerId}

theorem Duty.invoked (hd : m.Duty (some (i, .invoked t id)) m') :
    ∃ (a : Activity) (message : Message) (deadline next : Nat),
      m.InHand t i a ⟨message, .searching deadline next⟩ ∧
        (m.station i).lookup? message.eventType = some id := by
  obtain ⟨a, a', hw⟩ := hd.working rfl
  cases hw with
  | @invoke _ message deadline next _ hand due found wait =>
    exact ⟨a, message, deadline, next, hand, found⟩

theorem Duty.passed {message : Message} {place : Nat}
    (hd : m.Duty (some (i, .passed message place)) m') : (m.station i).takes message = false := by
  generalize he : some (i, Notice.passed message place) = e at hd
  cases hd with
  | @receive t j s bus message' task placed next =>
    obtain ⟨hnotice, -, -⟩ | ⟨hnotice, htakes, -⟩ :=
      consume_cases m bus j message' (m.bus.place s)
    · rw [hnotice] at he
      cases he
    · rw [hnotice] at he
      cases he
      exact htakes
  | @work t j a a' notice m' hw => cases hw <;> cases he
  | _ => cases he

theorem Duty.sent {message : Message} {result : Except MeshError Bool}
    (hd : m.Duty (some (i, .sent message result)) m') : result = (m.produce i message).2 := by
  generalize he : some (i, Notice.sent message result) = e at hd
  cases hd with
  | send message placed =>
    cases he
    rfl
  | receive message task placed =>
    unfold arrival at he
    split at he <;> cases he
  | @work t j a a' notice m' hw => cases hw <;> cases he
  | _ => cases he

theorem produce_ne_held {message : Message} (h : message.isForced = true) (i : Nat) :
    (m.produce i message).2 ≠ .ok false := by
  have hsends : (m.station i).sends message = true := by
    rw [Station.sends, h, Bool.or_true]
  simp only [produce, hsends, if_true]
  split <;> simp

end Mesh

namespace Service

variable {h : Service} {i q k n k' n' : Nat} {id id' : HandlerId} {message message' : Message}

/-- A message that was sent at one step is read by the loop of a station at another, and given to a
handler there at a third. -/
structure Reaches (h : Service) (i q k n : Nat) (id : HandlerId) (message : Message) : Prop where
  sent : h.Sends q (h.state q).bus.published message
  read : h.Reads i k (h.state q).bus.published message
  invoked : ∃ t x, h.event n = some (i, .invoked t id) ∧ (h.docket i n).held t = [x] ∧
    x.message = message ∧ x.origin = some (h.state q).bus.published

/-- What the gates on the way of a message let through. -/
structure Guarded (h : Service) : Prop where
  reaches : ∀ {n i t id}, h.event n = some (i, .invoked t id) →
    ∃ q k message, q < k ∧ k < n ∧ h.Reaches i q k n id message
  sender : ∀ {i q k n id message}, h.Reaches i q k n id message → message.isForced = false →
    ∃ s given, h.event q = some (s, .sent given (.ok true)) ∧
      message = given.stamped ((h.state q).station s).node ∧
      ((h.state q).station s).producer.switch.isOn = true
  receiver : ∀ {i q k n id message}, h.Reaches i q k n id message →
    message.header.isAddressedTo ((h.state k).station i).node = true ∧
      (message.isForced = false → ((h.state k).station i).consumer.switch.isOn = true)
  handler : ∀ {i q k n id message}, h.Reaches i q k n id message →
    ((h.state n).station i).registry.entry? message.eventType = some id ∧
      ∃ handler, ((h.state n).station i).registry.handler? id = some handler ∧
        handler.switch.isOn = true ∧ (((h.state n).station i).registry.honoursToggles = true →
          ((h.state n).station i).properties.handlerEnabled handler.name = true)
  forced : ∀ {n i message}, (∀ e, message ≠ .event e) →
    (∀ result, h.event n = some (i, .sent message result) → result ≠ .ok false) ∧
      ∀ place, h.event n = some (i, .passed message place) →
        message.header.isAddressedTo ((h.state n).station i).node = false
  source : ∀ {n message}, message ∈ (h.state n).bus.kept → message.header.sourceNode ≠ none
  once : ∀ {i q k n id message k' n' id' message'}, h.Reaches i q k n id message →
    h.Reaches i q k' n' id' message' → n = n' ∧ id = id'

theorem isForced_of_ne_event (hmessage : ∀ e, message ≠ .event e) : message.isForced = true := by
  cases message with
  | event e => exact absurd rfl (hmessage e)
  | command _ => rfl
  | result _ => rfl

theorem Sends.sourceNode {place : Nat} (hs : h.Sends q place message) :
    message.header.sourceNode ≠ none := by
  obtain ⟨s, given, -, -, hstamped⟩ := hs.sent
  rw [hstamped, Message.sourceNode_stamped]
  exact nofun

theorem Sends.isOn {place : Nat} (hs : h.Sends q place message)
    (hforced : message.isForced = false) :
    ∃ s given, h.event q = some (s, .sent given (.ok true)) ∧
      message = given.stamped ((h.state q).station s).node ∧
      ((h.state q).station s).producer.switch.isOn = true := by
  obtain ⟨s, given, hevent, hsends, hstamped⟩ := hs.sent
  rw [hstamped, Message.isForced_stamped] at hforced
  rw [Station.sends, hforced, Bool.or_false] at hsends
  exact ⟨s, given, hevent, hstamped, hsends⟩

theorem Reaches.receiver (hr : h.Reaches i q k n id message) :
    message.header.isAddressedTo ((h.state k).station i).node = true ∧
      (message.isForced = false → ((h.state k).station i).consumer.switch.isOn = true) := by
  have htakes := hr.read.takesIn.takes
  rw [Station.takes, Bool.and_eq_true] at htakes
  refine ⟨htakes.1, fun hforced => ?_⟩
  have hswitch := htakes.2
  rwa [hforced, Bool.or_false] at hswitch

theorem hand_of_invoked (h : Service) {t : Nat} (hevent : h.event n = some (i, .invoked t id)) :
    ∃ x, (h.docket i n).held t = [x] ∧ x.fate = .taken t ∧
      ((h.state n).station i).lookup? x.message.eventType = some id := by
  have hstep := h.step n
  rw [hevent] at hstep
  obtain ⟨a, message, deadline, next, hand, hfound⟩ := hstep.invoked
  obtain ⟨x, hx, hmessage, hfate⟩ := (h.kept i n).hand hand
  obtain rfl : x.message = message := hmessage
  exact ⟨x, hx, hfate, hfound⟩

theorem Reaches.handler (hr : h.Reaches i q k n id message) :
    ((h.state n).station i).registry.entry? message.eventType = some id ∧
      ∃ handler, ((h.state n).station i).registry.handler? id = some handler ∧
        handler.switch.isOn = true ∧ (((h.state n).station i).registry.honoursToggles = true →
          ((h.state n).station i).properties.handlerEnabled handler.name = true) := by
  obtain ⟨t, x, hinvoked, hx, hmessage, -⟩ := hr.invoked
  obtain ⟨y, hy, -, hfound⟩ := h.hand_of_invoked hinvoked
  rw [hx] at hy
  obtain rfl := (List.cons.inj hy).1
  rw [hmessage] at hfound
  obtain ⟨hentry, handler, hhandler, henabled⟩ := Registry.lookup?_eq_some_iff.mp hfound
  rw [Registry.isEnabled, Bool.and_eq_true] at henabled
  refine ⟨hentry, handler, hhandler, henabled.1, fun htoggles => ?_⟩
  have hproperty := henabled.2
  rwa [htoggles, Bool.not_true, Bool.false_or] at hproperty

theorem rank_le_of_le (h : Service) {p : Nat} {x : Intake} (hx : (h.docket i n)[p]? = some x)
    (hk : n ≤ k) : ∃ f, (h.docket i k)[p]? = some { x with fate := f } ∧ x.fate.rank ≤ f.rank := by
  induction hk with
  | refl => exact ⟨x.fate, hx, Nat.le_refl _⟩
  | @step k _ ih =>
    obtain ⟨f, hf, hle⟩ := ih
    rcases h.fate_succ hf with hsame | ⟨notice, f', -, hadvances, hf'⟩
    · exact ⟨f, hsame, hle⟩
    · exact ⟨f', hf', Nat.le_of_lt (Nat.lt_of_le_of_lt hle hadvances.rank_lt)⟩

/-- A message is handed to a handler once. -/
theorem not_invoked_again (h : Service) {t t' p : Nat} {x y : Intake} (hlt : n < n')
    (hinvoked : h.event n = some (i, .invoked t id)) (hx : (h.docket i n).held t = [x])
    (hinvoked' : h.event n' = some (i, .invoked t' id')) (hy : (h.docket i n').held t' = [y])
    (hxp : x.origin = some p) (hyp : y.origin = some p) : False := by
  obtain ⟨j, hj⟩ := List.mem_iff_getElem?.mp (List.mem_filter.mp (hx ▸ List.mem_cons_self)).1
  obtain ⟨j', hj'⟩ := List.mem_iff_getElem?.mp (List.mem_filter.mp (hy ▸ List.mem_cons_self)).1
  have hafter := h.docket_invoked hinvoked hj (Docket.holder_of_held hx)
  obtain ⟨f, hthen, hrank⟩ := h.rank_le_of_le hafter hlt
  obtain rfl := (h.followed i n').place_eq hthen hj' hxp hyp
  rw [hthen] at hj'
  obtain ⟨z, hz, hfate, -⟩ := h.hand_of_invoked hinvoked'
  rw [hy] at hz
  obtain rfl := (List.cons.inj hz).1
  rw [← Option.some.inj hj'] at hfate
  have hfate : f = .taken t' := hfate
  rw [hfate] at hrank
  exact absurd hrank (by simp [Fate.rank])

end Service

namespace Passage

theorem guarded (h : Passage) : h.Guarded := by
  refine ⟨?_, ?_, ?_, ?_, ?_, ?_, ?_⟩
  · intro n i t id hinvoked
    obtain ⟨x, hx, -, -⟩ := h.hand_of_invoked hinvoked
    have hmem : x ∈ h.docket i n := (List.mem_filter.mp (hx ▸ List.mem_cons_self)).1
    obtain ⟨_, _, f, hcalled⟩ := h.called_of_mem hmem
    obtain ⟨place, hplace⟩ := Option.ne_none_iff_exists'.mp (h.travels hcalled)
    have hplace : x.origin = some place := hplace
    have hcall : x.call ∈ h.calls i n := List.mem_append_left _ (List.mem_map_of_mem hmem)
    obtain ⟨k, hk, hread⟩ := (h.followed i n).read hcall hplace
    obtain ⟨q, hq, hsends⟩ := h.source_of_read hread
    obtain rfl := hsends.before
    exact ⟨q, k, x.message, hq, hk, hsends, hread, t, x, hinvoked, hx, rfl, hplace⟩
  · intro i q k n id message hr hforced
    exact hr.sent.isOn hforced
  · intro i q k n id message hr
    exact hr.receiver
  · intro i q k n id message hr
    exact hr.handler
  · intro n i message hmessage
    have hforced := Service.isForced_of_ne_event hmessage
    refine ⟨?_, ?_⟩
    · intro result hevent
      have hstep := h.step n
      rw [hevent] at hstep
      rw [hstep.sent]
      exact Mesh.produce_ne_held hforced i
    · intro place hevent
      have hstep := h.step n
      rw [hevent] at hstep
      have htakes := hstep.passed
      rwa [Station.takes, hforced, Bool.or_true, Bool.and_true] at htakes
  · intro n message hmessage
    obtain ⟨j, hj⟩ := List.mem_iff_getElem?.mp hmessage
    obtain ⟨q, -, hsends⟩ := (h.stocked n).source hj
    exact hsends.sourceNode
  · intro i q k n id message k' n' id' message' hr hr'
    obtain ⟨t, x, hinvoked, hx, -, hxp⟩ := hr.invoked
    obtain ⟨t', y, hinvoked', hy, -, hyp⟩ := hr'.invoked
    rcases Nat.lt_trichotomy n n' with hlt | rfl | hgt
    · exact (h.not_invoked_again hlt hinvoked hx hinvoked' hy hxp hyp).elim
    · rw [hinvoked] at hinvoked'
      cases hinvoked'
      exact ⟨rfl, rfl⟩
    · exact (h.not_invoked_again hgt hinvoked' hy hinvoked hx hyp hxp).elim

end Passage

end ClusterMesh
