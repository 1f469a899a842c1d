import ClusterMesh.Dispatch.Dispatcher
import ClusterMesh.Error
import ClusterMesh.Handler.Registry
import Mathlib.Data.List.Basic

/-!
# Dockets

The docket of a station lists all messages that were given to its dispatcher, in the order in which
they were given, with what has become of each. What happens at the station moves the docket on, and
the counters of the dispatcher are read off it and the calls that are under way.
-/

namespace ClusterMesh

/-- What has become of a message: it was refused, waits in the queue, is in the hands of a task, is
with a handler there, or has ended. -/
inductive Fate
  | refused
  | queued
  | taken (task : Nat)
  | invoked (task : Nat)
  | ended (e : DispatchEnd)
deriving DecidableEq, Repr

namespace Fate

def holder? : Fate → Option Nat
  | taken t | invoked t => some t
  | _ => none

def isOpen : Fate → Bool
  | queued | taken _ | invoked _ => true
  | _ => false

def isQueued : Fate → Bool
  | queued => true
  | _ => false

def HasBegun : Fate → Prop
  | refused | queued => False
  | _ => True

def IsOver : Fate → Prop
  | refused | ended _ => True
  | _ => False

variable {f : Fate} {t : Nat}

theorem isOver_iff : f.IsOver ↔ f.isOpen = false := by
  cases f <;> simp [IsOver, isOpen]

theorem isOpen_of_holder (h : f.holder? = some t) : f.isOpen = true := by
  cases f <;> simp_all [holder?, isOpen]

theorem hasBegun_of_holder (h : f.holder? = some t) : f.HasBegun := by
  cases f <;> simp_all [holder?, HasBegun]

theorem isOver_of_free (hopen : f.holder? = none) (hqueued : f.isQueued = false) : f.IsOver := by
  cases f <;> simp_all [holder?, isQueued, IsOver]

end Fate

/-- A message that was given to a dispatcher. Its origin is the place at which it was read from the
bus, if it was. -/
structure Intake where
  message : Message
  origin : Option Nat
  fate : Fate

def Intake.call (x : Intake) : DispatchCall := ⟨x.message, x.origin⟩

/-- What happens at a station: a message is sent or passed over; a call to the dispatcher passes the
check, or ends, and its message was given to the dispatcher; this is closed, is severed from its
queue, and loses its worker; a task takes a message, opens the window in which a handler is sought,
hands the message to one, and ends the work on it. -/
inductive Notice
  | sent (message : Message) (result : Except MeshError Bool)
  | passed (message : Message) (origin : Nat)
  | entered (c : DispatchCall)
  | called (x : Intake)
  | closed
  | severed
  | failed
  | took (task : Nat)
  | opened (task deadline : Nat)
  | invoked (task : Nat) (id : HandlerId)
  | ended (task : Nat) (e : DispatchEnd)

/-- What leaves the docket as it is. -/
def Notice.IsQuiet : Notice → Prop
  | sent _ _ | passed _ _ | entered _ | closed | severed | failed | opened _ _ => True
  | _ => False

/-- What does not concern the dispatcher of the station. -/
def Notice.IsSilent : Notice → Prop
  | sent _ _ | passed _ _ => True
  | _ => False

/-- The task whose work on a message is noticed. -/
def Notice.task? : Notice → Option Nat
  | took t | opened t _ | invoked t _ | ended t _ => some t
  | _ => none

/-- How the fate of a message moves on: a task takes it and finds a handler, which ends in some way,
or finds none. -/
inductive Fate.Advances : Fate → Notice → Fate → Prop
  | take (t : Nat) : Advances .queued (.took t) (.taken t)
  | invoke (t : Nat) (id : HandlerId) : Advances (.taken t) (.invoked t id) (.invoked t)
  | giveUp (t : Nat) : Advances (.taken t) (.ended t .unhandled) (.ended .unhandled)
  | finish (t : Nat) {e : DispatchEnd} (ran : e ≠ .unhandled) :
      Advances (.invoked t) (.ended t e) (.ended e)

/-- The counters while so many calls are under way, whose messages count as accepted. -/
def DispatchStats.holding (s : DispatchStats) (calls : Nat) : DispatchStats :=
  { s with inFlight := s.inFlight + calls }

abbrev Docket := List Intake

namespace Docket

variable {d d' d₁ d₂ : Docket} {x y : Intake} {t u : Nat} {f : Fate}

def held (d : Docket) (t : Nat) : Docket := d.filter (fun x => x.fate.holder? == some t)

def queued (d : Docket) : Docket := d.filter (fun x => x.fate.isQueued)

/-- What a task holds meets another fate. -/
def move (d : Docket) (t : Nat) (f : Fate) : Docket :=
  d.map (fun x => if x.fate.holder? = some t then { x with fate := f } else x)

/-- A task takes the first message of the queue. -/
def take (t : Nat) : Docket → Docket
  | [] => []
  | x :: d => if x.fate = .queued then { x with fate := .taken t } :: d else x :: take t d

def after (d : Docket) : Notice → Docket
  | .called x => d ++ [x]
  | .took t => d.take t
  | .invoked t _ => d.move t (.invoked t)
  | .ended t e => d.move t (.ended e)
  | _ => d

/-- What happens at a station adds a message to the docket, moves the fate of one on, or leaves the
docket as it is. -/
inductive Turn : Docket → Notice → Docket → Prop
  | call {d : Docket} {x : Intake}
      (new : x.fate = .refused ∨ x.fate = .queued ∨ ∃ t, x.fate = .taken t) :
      Turn d (.called x) (d ++ [x])
  | change {d₁ d₂ : Docket} {x : Intake} {notice : Notice} {f : Fate}
      (advances : x.fate.Advances notice f) :
      Turn (d₁ ++ x :: d₂) notice (d₁ ++ { x with fate := f } :: d₂)
  | still {d : Docket} {notice : Notice} (quiet : notice.IsQuiet) : Turn d notice d

/-- The counters that a docket accounts for, as long as no call is under way. -/
def stats (d : Docket) : DispatchStats where
  dispatched := d.countP (fun x => x.fate == .ended .handled || x.fate == .ended .failed)
  dropped := d.countP (fun x => x.fate == .refused || x.fate == .ended .unhandled)
  failures := d.countP (fun x => x.fate == .ended .failed || x.fate == .ended .panicked)
  inFlight := d.countP (fun x => x.fate.isOpen)

/-- Only after all earlier messages are over the work on a message begins. -/
def InOrder (d : Docket) : Prop := d.Pairwise (fun x y => y.fate.HasBegun → x.fate.IsOver)

/-! ### What a task holds -/

theorem held_eq_nil : d.held t = [] ↔ ∀ x ∈ d, x.fate.holder? ≠ some t := by
  simp [held, List.filter_eq_nil_iff]

theorem held_append (d₁ d₂ : Docket) (t : Nat) : (d₁ ++ d₂).held t = d₁.held t ++ d₂.held t :=
  List.filter_append ..

theorem held_cons_of_holder (h : x.fate.holder? = some t) : held (x :: d) t = x :: d.held t :=
  List.filter_cons_of_pos (by simp [h])

theorem held_cons_of_ne (h : x.fate.holder? ≠ some t) : held (x :: d) t = d.held t :=
  List.filter_cons_of_neg (by simp [h])

theorem held_concat_of_ne (h : x.fate.holder? ≠ some t) (d : Docket) :
    held (d ++ [x]) t = d.held t := by
  rw [held_append, held_cons_of_ne h]
  exact List.append_nil _

theorem holder_of_held (h : d.held t = [x]) : x.fate.holder? = some t := by
  have hmem : x ∈ d.held t := h ▸ List.mem_singleton_self x
  simpa using (List.mem_filter.mp hmem).2

theorem split_of_held (h : d.held t = [x]) :
    ∃ d₁ d₂ : Docket, d = d₁ ++ x :: d₂ ∧ d₁.held t = [] ∧ d₂.held t = [] := by
  obtain ⟨d₁, d₂, rfl, hd₁, hx, hd₂⟩ := List.filter_eq_cons_iff.mp h
  exact ⟨d₁, d₂, rfl, List.filter_eq_nil_iff.mpr hd₁, hd₂⟩

theorem move_of_free (h : d.held t = []) (f : Fate) : d.move t f = d := by
  rw [held_eq_nil] at h
  refine (List.map_congr_left fun x hx => ?_).trans (List.map_id d)
  exact if_neg (h x hx)

theorem move_cons (x : Intake) (d : Docket) (t : Nat) (f : Fate) : move (x :: d) t f =
    (if x.fate.holder? = some t then { x with fate := f } else x) :: d.move t f := rfl

theorem move_split (hx : x.fate.holder? = some t) (h₁ : d₁.held t = []) (h₂ : d₂.held t = [])
    (f : Fate) : (d₁ ++ x :: d₂).move t f = d₁ ++ { x with fate := f } :: d₂ := by
  have happend : (d₁ ++ x :: d₂).move t f = d₁.move t f ++ move (x :: d₂) t f :=
    List.map_append ..
  rw [happend, move_cons, if_pos hx, move_of_free h₁, move_of_free h₂]

theorem held_move_of_ne (hu : u ≠ t) (hf : f.holder? ≠ some u) (d : Docket) :
    (d.move t f).held u = d.held u := by
  induction d with
  | nil => rfl
  | cons x d ih =>
    rw [move_cons]
    by_cases hx : x.fate.holder? = some t
    · have hxu : x.fate.holder? ≠ some u := by
        rw [hx]
        exact fun h => hu (Option.some.inj h).symm
      rw [if_pos hx, held_cons_of_ne hf, held_cons_of_ne hxu, ih]
    · rw [if_neg hx]
      by_cases hxu : x.fate.holder? = some u
      · rw [held_cons_of_holder hxu, held_cons_of_holder hxu, ih]
      · rw [held_cons_of_ne hxu, held_cons_of_ne hxu, ih]

theorem held_move (h : d.held t = [x]) (f : Fate) :
    (d.move t f).held t = if f.holder? = some t then [{ x with fate := f }] else [] := by
  obtain ⟨d₁, d₂, rfl, h₁, h₂⟩ := split_of_held h
  rw [move_split (holder_of_held h) h₁ h₂, held_append, h₁, List.nil_append]
  split
  · next hf => rw [held_cons_of_holder hf, h₂]
  · next hf => rw [held_cons_of_ne hf, h₂]

/-! ### The queue -/

theorem queued_append (d₁ d₂ : Docket) : (d₁ ++ d₂).queued = d₁.queued ++ d₂.queued :=
  List.filter_append ..

theorem queued_cons (x : Intake) (d : Docket) :
    queued (x :: d) = if x.fate.isQueued then x :: d.queued else d.queued := by
  cases hx : x.fate.isQueued with
  | true => exact List.filter_cons_of_pos hx
  | false => exact List.filter_cons_of_neg (by simp [hx])

theorem queued_move (hf : f.isQueued = false) (d : Docket) : (d.move t f).queued = d.queued := by
  induction d with
  | nil => rfl
  | cons x d ih =>
    rw [move_cons]
    by_cases hx : x.fate.holder? = some t
    · have hxq : x.fate.isQueued = false := by
        cases hfate : x.fate <;> simp_all [Fate.holder?, Fate.isQueued]
      rw [if_pos hx, queued_cons, queued_cons, ih]
      simp [hf, hxq]
    · rw [if_neg hx, queued_cons, queued_cons, ih]

theorem take_split (t : Nat) (h : d.queued = x :: d') : ∃ d₁ d₂ : Docket, d = d₁ ++ x :: d₂ ∧
    x.fate = .queued ∧ d₁.queued = [] ∧ d₂.queued = d' ∧
      d.take t = d₁ ++ { x with fate := .taken t } :: d₂ := by
  obtain ⟨d₁, d₂, rfl, hd₁, hx, hd₂⟩ := List.filter_eq_cons_iff.mp h
  have hqueued : x.fate = .queued := by
    cases hfate : x.fate <;> simp_all [Fate.isQueued]
  refine ⟨d₁, d₂, rfl, hqueued, List.filter_eq_nil_iff.mpr hd₁, hd₂, ?_⟩
  clear h
  induction d₁ with
  | nil => simp [take, hqueued]
  | cons y d₁ ih =>
    have hy : y.fate ≠ .queued := by
      intro heq
      exact hd₁ y List.mem_cons_self (by rw [heq]; rfl)
    rw [List.cons_append, take, if_neg hy, ih fun z hz => hd₁ z (List.mem_cons_of_mem y hz)]
    rfl

/-! ### Counting -/

theorem accept_holding (s : DispatchStats) (n : Nat) :
    (s.holding n).accept = s.accept.holding n := by
  simp [DispatchStats.holding, DispatchStats.accept]
  omega

theorem holding_succ (s : DispatchStats) (n : Nat) :
    s.holding (n + 1) = s.accept.holding n := by
  simp [DispatchStats.holding, DispatchStats.accept]
  omega

theorem withdraw_holding (s : DispatchStats) (n : Nat) :
    (s.accept.holding n).withdraw = s.refuse.holding n := by
  simp [DispatchStats.holding, DispatchStats.accept, DispatchStats.refuse, DispatchStats.withdraw]

theorem finish_holding {s : DispatchStats} (h : 0 < s.inFlight) (e : DispatchEnd) (n : Nat) :
    (s.holding n).finish e = (s.finish e).holding n := by
  have hless : s.inFlight + n - 1 = s.inFlight - 1 + n := by omega
  cases e <;> simp [DispatchStats.holding, DispatchStats.finish, hless]

theorem stats_append (d₁ d₂ : Docket) : (d₁ ++ d₂).stats =
    ⟨d₁.stats.dispatched + d₂.stats.dispatched, d₁.stats.dropped + d₂.stats.dropped,
      d₁.stats.failures + d₂.stats.failures, d₁.stats.inFlight + d₂.stats.inFlight⟩ := by
  simp [stats, List.countP_append]

theorem stats_cons_of_open (h : x.fate.isOpen = true) (d : Docket) :
    stats (x :: d) = d.stats.accept := by
  cases hfate : x.fate <;>
    simp_all [stats, Fate.isOpen, DispatchStats.accept]

theorem stats_refused (h : x.fate = .refused) (d : Docket) :
    (d ++ [x]).stats = d.stats.refuse := by
  simp [stats, h, Fate.isOpen, DispatchStats.refuse]

theorem stats_accepted (h : x.fate.isOpen = true) (d : Docket) :
    (d ++ [x]).stats = d.stats.accept := by
  rw [stats_append, stats_cons_of_open h]
  rfl

theorem stats_replaced (hx : x.fate.isOpen = true) (hy : y.fate.isOpen = true) (d₁ d₂ : Docket) :
    (d₁ ++ y :: d₂).stats = (d₁ ++ x :: d₂).stats := by
  rw [stats_append, stats_append, stats_cons_of_open hx, stats_cons_of_open hy]

theorem inFlight_pos (hx : x.fate.isOpen = true) (d₁ d₂ : Docket) :
    0 < (stats (d₁ ++ x :: d₂)).inFlight := by
  rw [stats_append, stats_cons_of_open hx]
  exact Nat.add_pos_right _ (Nat.succ_pos _)

theorem stats_ended (hx : x.fate.isOpen = true) (e : DispatchEnd) (d₁ d₂ : Docket) :
    (d₁ ++ { x with fate := .ended e } :: d₂).stats = (d₁ ++ x :: d₂).stats.finish e := by
  rw [stats_append, stats_append, stats_cons_of_open hx]
  cases e <;>
    simp [stats, Fate.isOpen, DispatchStats.accept, DispatchStats.finish] <;>
    omega

/-! ### Order -/

theorem InOrder.append (h : d.InOrder) (hx : ¬x.fate.HasBegun) : (d ++ [x]).InOrder := by
  refine List.pairwise_append.mpr ⟨h, List.pairwise_singleton _ _, ?_⟩
  intro y _ z hz hbegun
  rw [List.mem_singleton.mp hz] at hbegun
  exact absurd hbegun hx

/-- One message may go on if all before it are over, or it had begun before. -/
theorem InOrder.replace (h : (d₁ ++ x :: d₂).InOrder)
    (hbefore : y.fate.HasBegun → x.fate.HasBegun ∨ ∀ z ∈ d₁, z.fate.IsOver)
    (hafter : x.fate.IsOver → y.fate.IsOver) : (d₁ ++ y :: d₂).InOrder := by
  obtain ⟨h₁, hcons, hacross⟩ := List.pairwise_append.mp h
  obtain ⟨hx, h₂⟩ := List.pairwise_cons.mp hcons
  refine List.pairwise_append.mpr ⟨h₁, List.pairwise_cons.mpr ⟨?_, h₂⟩, ?_⟩
  · intro z hz hbegun
    exact hafter (hx z hz hbegun)
  · intro z hz w hw hbegun
    rcases List.mem_cons.mp hw with rfl | hw
    · rcases hbefore hbegun with hx | hover
      · exact hacross z hz x List.mem_cons_self hx
      · exact hover z hz
    · exact hacross z hz w (List.mem_cons_of_mem x hw) hbegun

/-- The fate of what a task holds moves on. -/
theorem InOrder.move (h : d.InOrder) (hheld : d.held t = [x]) (f : Fate) :
    (d.move t f).InOrder := by
  have hholder := holder_of_held hheld
  obtain ⟨d₁, d₂, rfl, h₁, h₂⟩ := split_of_held hheld
  rw [move_split hholder h₁ h₂]
  refine h.replace (fun _ => Or.inl (Fate.hasBegun_of_holder hholder)) ?_
  intro hover
  rw [Fate.isOver_iff, Fate.isOpen_of_holder hholder] at hover
  cases hover

theorem InOrder.before (h : (d₁ ++ x :: d₂).InOrder) (hx : x.fate.HasBegun) (hy : y ∈ d₁) :
    y.fate.IsOver :=
  (List.pairwise_append.mp h).2.2 y hy x List.mem_cons_self hx

theorem InOrder.behind (h : (d₁ ++ x :: d₂).InOrder) (hx : ¬x.fate.IsOver) (hy : y ∈ d₂) :
    ¬y.fate.HasBegun := by
  obtain ⟨-, hcons, -⟩ := List.pairwise_append.mp h
  intro hbegun
  exact hx ((List.pairwise_cons.mp hcons).1 y hy hbegun)

end Docket

end ClusterMesh
