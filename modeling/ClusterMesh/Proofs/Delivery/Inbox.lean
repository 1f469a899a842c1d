import ClusterMesh.Transport.Bus
import Mathlib.Data.List.Basic

/-!
# What lies before a subscriber

A subscriber of a bus reads the messages that came after its position, in the order in which they
were published. What the bus does for others leaves them before it; only more than the bus can keep
makes it lag.
-/

namespace ClusterMesh.Bus

variable {μ : Type} {b b' b'' : Bus μ} {s s' : Nat} {m m' : μ}

/-- A subscriber is at a position that the bus has reached. -/
def Seats (b : Bus μ) (s : Nat) : Prop :=
  ∃ position, Table.get? b.positions s = some position ∧ position ≤ b.published

/-- More lies before a subscriber than the bus has kept. -/
def Lags (b : Bus μ) (s : Nat) : Prop := b.kept.length < b.unread s

/-- What lies before a subscriber that does not lag. -/
def inbox (b : Bus μ) (s : Nat) : List μ := b.kept.drop (b.kept.length - b.unread s)

def Offers (b : Bus μ) (s : Nat) (m : μ) : Prop := b.Lags s ∨ m ∈ b.inbox s

theorem Offers.mem_inbox (h : b.Offers s m) (hlags : ¬b.Lags s) : m ∈ b.inbox s :=
  h.resolve_left hlags

/-- What lies before a subscriber still does. -/
structure Keeps (b b' : Bus μ) (s : Nat) : Prop where
  next : b.nextSubscriber ≤ b'.nextSubscriber
  seats : b.Seats s → b'.Seats s
  offers : ∀ {m}, b.Seats s → b.Offers s m → b'.Offers s m

theorem Keeps.refl (b : Bus μ) (s : Nat) : b.Keeps b s := ⟨Nat.le_refl _, id, fun _ h => h⟩

theorem Keeps.trans (h : b.Keeps b' s) (h' : b'.Keeps b'' s) : b.Keeps b'' s where
  next := Nat.le_trans h.next h'.next
  seats := fun hs => h'.seats (h.seats hs)
  offers := fun hs hm => h'.offers (h.seats hs) (h.offers hs hm)

/-! ### Messages that are published -/

theorem Seats.publish_eq (h : b.Seats s) (m : μ) : b.publish m =
    ({ b with
        published := b.published + 1
        kept := (b.kept ++ [m]).drop ((b.kept ++ [m]).length - b.capacity)
        waiting := ∅ },
      b.waiting.toList) := by
  obtain ⟨position, hget, -⟩ := h
  have hsome : ¬b.positions.isEmpty = true := by
    intro hempty
    refine KeyedList.isEmpty_iff.mp hempty s (Table.mem_keys_iff.mpr ⟨position, hget⟩)
  simp only [publish, hsome, if_false, Bool.false_eq_true]

theorem Seats.unread_publish (h : b.Seats s) (m : μ) :
    (b.publish m).1.unread s = b.unread s + 1 := by
  rw [h.publish_eq]
  obtain ⟨position, hget, hle⟩ := h
  simp only [unread, hget, Option.getD_some]
  omega

theorem Seats.inbox_publish (h : b.Seats s) (hlags : ¬(b.publish m).1.Lags s) :
    (b.publish m).1.inbox s = b.inbox s ++ [m] := by
  have hunread := h.unread_publish m
  rw [Lags, hunread] at hlags
  rw [inbox, hunread, inbox]
  rw [h.publish_eq] at hlags ⊢
  simp only [List.length_drop, List.length_append, List.length_singleton] at hlags ⊢
  rw [List.drop_drop, ← List.drop_append_of_le_length (by omega)]
  congr 1
  omega

theorem Seats.lags_publish (h : b.Seats s) (hlags : b.Lags s) (m : μ) :
    (b.publish m).1.Lags s := by
  rw [Lags, h.unread_publish, h.publish_eq]
  simp only [Lags, List.length_drop, List.length_append, List.length_singleton] at hlags ⊢
  omega

theorem Seats.offers_publish (h : b.Seats s) (m : μ) : (b.publish m).1.Offers s m := by
  by_cases hlags : (b.publish m).1.Lags s
  · exact Or.inl hlags
  · refine Or.inr ?_
    rw [h.inbox_publish hlags]
    exact List.mem_append_right _ List.mem_cons_self

theorem keeps_publish (b : Bus μ) (s : Nat) (m : μ) : b.Keeps (b.publish m).1 s where
  next := by
    unfold publish
    split <;> exact Nat.le_refl _
  seats := by
    intro h
    rw [h.publish_eq]
    obtain ⟨position, hget, hle⟩ := h
    exact ⟨position, hget, Nat.le_succ_of_le hle⟩
  offers := by
    intro m' h hoffers
    rcases hoffers with hlags | hmem
    · exact Or.inl (h.lags_publish hlags m)
    · by_cases hlags : (b.publish m).1.Lags s
      · exact Or.inl hlags
      · refine Or.inr ?_
        rw [h.inbox_publish hlags]
        exact List.mem_append_left _ hmem

/-! ### Messages that are received -/

theorem keeps_of_get? (hpublished : b'.published = b.published) (hkept : b'.kept = b.kept)
    (hnext : b.nextSubscriber ≤ b'.nextSubscriber)
    (hget : b.Seats s → Table.get? b'.positions s = Table.get? b.positions s) : b.Keeps b' s where
  next := hnext
  seats := by
    intro h
    have hsame := hget h
    obtain ⟨position, hposition, hle⟩ := h
    exact ⟨position, hsame.trans hposition, hpublished ▸ hle⟩
  offers := by
    intro m h hoffers
    have hunread : b'.unread s = b.unread s := by rw [unread, unread, hget h, hpublished]
    rwa [Offers, Lags, inbox, hunread, hkept]

theorem get?_receive_of_ne (b : Bus μ) (hne : s ≠ s') :
    Table.get? (b.receive s').1.positions s = Table.get? b.positions s := by
  unfold receive
  dsimp only
  split
  · exact (Table.get?_set _ _ _ _).trans (if_neg hne)
  · split
    · rfl
    · exact (Table.get?_set _ _ _ _).trans (if_neg hne)

theorem receive_fields (b : Bus μ) (s : Nat) : (b.receive s).1.published = b.published ∧
    (b.receive s).1.kept = b.kept ∧ (b.receive s).1.nextSubscriber = b.nextSubscriber ∧
    (b.receive s).1.waiting = b.waiting := by
  unfold receive
  dsimp only
  split
  · exact ⟨rfl, rfl, rfl, rfl⟩
  · split <;> exact ⟨rfl, rfl, rfl, rfl⟩

theorem keeps_receive_of_ne (b : Bus μ) (hne : s ≠ s') : b.Keeps (b.receive s').1 s := by
  obtain ⟨hpublished, hkept, hnext, -⟩ := b.receive_fields s'
  exact keeps_of_get? hpublished hkept (Nat.le_of_eq hnext.symm) fun _ => b.get?_receive_of_ne hne

theorem unread_receive_of_ne (b : Bus μ) (hne : s ≠ s') :
    (b.receive s').1.unread s = b.unread s := by
  rw [unread, unread, b.get?_receive_of_ne hne, (b.receive_fields s').1]

theorem length_inbox (hlags : ¬b.Lags s) : (b.inbox s).length = b.unread s := by
  have hle : b.unread s ≤ b.kept.length := Nat.le_of_not_lt hlags
  rw [inbox, List.length_drop]
  omega

theorem unread_lt {rest : List μ} (hlags : ¬b.Lags s) (hlags' : ¬b'.Lags s)
    (hinbox : b.inbox s = m :: rest) (hrest : b'.inbox s = rest) : b'.unread s < b.unread s := by
  rw [← length_inbox hlags, ← length_inbox hlags', hinbox, hrest]
  exact Nat.lt_succ_self _

/-- Where a subscriber reads, it goes on by one message, or finds that there is none. -/
theorem receive_cases (hlags : ¬b.Lags s) :
    (b.inbox s = [] ∧ b.receive s = (b, .nothing)) ∨
      ∃ m rest b', b.inbox s = m :: rest ∧ b.receive s = (b', .message m) ∧ b'.Seats s ∧
        ¬b'.Lags s ∧ b'.inbox s = rest := by
  have hkeeps : ¬b.kept.length < b.unread s := hlags
  cases hinbox : b.inbox s with
  | nil =>
    refine Or.inl ⟨rfl, ?_⟩
    rw [inbox] at hinbox
    simp only [receive, if_neg hkeeps, hinbox]
  | cons m rest =>
    have hreceive : b.receive s =
        ({ b with positions := Table.set b.positions s (b.published - b.unread s + 1) },
          .message m) := by
      rw [inbox] at hinbox
      simp only [receive, if_neg hkeeps, hinbox]
    have hunread : b.unread s = rest.length + 1 := by
      rw [← length_inbox hlags, hinbox, List.length_cons]
    have hle : b.unread s ≤ b.kept.length := Nat.le_of_not_lt hlags
    have hpublished : b.unread s ≤ b.published := Nat.sub_le _ _
    have hself : Table.get? (Table.set b.positions s (b.published - b.unread s + 1)) s =
        some (b.published - b.unread s + 1) := (Table.get?_set ..).trans (if_pos rfl)
    have hunread' : Bus.unread
        { b with positions := Table.set b.positions s (b.published - b.unread s + 1) } s =
          rest.length := by
      show b.published - (Table.get? (Table.set b.positions s _) s).getD b.published = _
      rw [hself, Option.getD_some]
      omega
    refine Or.inr ⟨m, rest, _, rfl, hreceive, ⟨_, hself, by show _ ≤ b.published; omega⟩, ?_, ?_⟩
    · rw [Lags, hunread']
      show ¬b.kept.length < rest.length
      omega
    · have hskip : b.kept.length - rest.length = b.kept.length - b.unread s + 1 := by omega
      rw [inbox, hunread']
      show b.kept.drop (b.kept.length - rest.length) = rest
      rw [hskip, ← List.tail_drop, ← inbox, hinbox, List.tail_cons]

theorem receive_of_lags (hlags : b.Lags s) : ∃ b' missed, b.receive s = (b', .lagged missed) ∧
    b'.Seats s ∧ ¬b'.Lags s ∧ b'.unread s < b.unread s := by
  have hlt : b.kept.length < b.unread s := hlags
  have hle : b.unread s ≤ b.published := Nat.sub_le _ _
  have hself : Table.get? (Table.set b.positions s (b.published - b.kept.length)) s =
      some (b.published - b.kept.length) := (Table.get?_set ..).trans (if_pos rfl)
  have hreceive : b.receive s =
      ({ b with positions := Table.set b.positions s (b.published - b.kept.length) },
        .lagged (b.unread s - b.kept.length)) := by
    simp only [receive, if_pos hlt]
  have hunread : Bus.unread
      { b with positions := Table.set b.positions s (b.published - b.kept.length) } s =
        b.kept.length := by
    show b.published - (Table.get? (Table.set b.positions s _) s).getD b.published = _
    rw [hself, Option.getD_some]
    omega
  refine ⟨_, _, hreceive, ⟨_, hself, Nat.sub_le _ _⟩, ?_, by rw [hunread]; exact hlt⟩
  rw [Lags, hunread]
  exact Nat.lt_irrefl _

/-! ### Subscribers that come and go -/

theorem keeps_subscribe (b : Bus μ) (hs : s < b.nextSubscriber) : b.Keeps b.subscribe.1 s :=
  keeps_of_get? rfl rfl (Nat.le_succ _)
    fun _ => (Table.get?_set ..).trans (if_neg (Nat.ne_of_lt hs))

theorem seats_subscribe (b : Bus μ) : b.subscribe.1.Seats b.subscribe.2 :=
  ⟨b.published, (Table.get?_set ..).trans (if_pos rfl), Nat.le_refl _⟩

theorem keeps_unsubscribe (b : Bus μ) (hne : s ≠ s') : b.Keeps (b.unsubscribe s') s :=
  keeps_of_get? rfl rfl (Nat.le_refl _) fun _ => (Table.get?_erase ..).trans (if_neg hne)

theorem unread_unsubscribe (b : Bus μ) (hne : s ≠ s') :
    (b.unsubscribe s').unread s = b.unread s := by
  have hget : Table.get? (b.unsubscribe s').positions s = Table.get? b.positions s :=
    (Table.get?_erase ..).trans (if_neg hne)
  rw [unread, unread, hget]
  rfl

theorem mem_waiting_await {u t : Nat} :
    u ∈ (b.await t).waiting.keys ↔ u ∈ b.waiting.keys ∨ u = t := KeyedList.mem_keys_insert

theorem mem_waiting_leave {u t : Nat} :
    u ∈ (b.leave t).waiting.keys ↔ u ∈ b.waiting.keys ∧ u ≠ t := KeyedList.mem_keys_erase

end ClusterMesh.Bus
