import ClusterMesh.Handler.Registry
import Mathlib.Data.List.Basic
import Mathlib.Data.List.Induction
import Mathlib.Tactic.Tauto

/-!
# Which handler is bound

Handlers are bound and unbound one after the other. What is bound to a type in the end is the handler
that was bound to it last, unless that one was unbound since; a handler that was replaced does not
come back, and to unbind it again changes nothing. The handler that is bound is found unless its
switch is off or its property disables it.
-/

namespace ClusterMesh

/-- The property of a handler spells `false`, blanks at the ends and the case of ASCII letters
aside. -/
def Properties.Disables (p : Properties) (handler : String) : Prop :=
  ∃ value, Table.get? p ("handler." ++ handler) = some value ∧
    (Text.trim value).toList.map Char.toLower = "false".toList

theorem Properties.handlerEnabled_iff {p : Properties} {handler : String} :
    p.handlerEnabled handler = true ↔ ¬p.Disables handler := by
  unfold handlerEnabled Disables
  change _ ↔ ¬∃ value, Table.get? p (handlerKey handler) = some value ∧ _
  cases Table.get? p (handlerKey handler) with
  | none => simp
  | some value => simp [spells]

/-- What may be done to a registry over the handlers that there are. -/
inductive RegistryChange
  | bind (id : HandlerId)
  | unbind (id : HandlerId)
  | setSwitch (id : HandlerId) (status : SwitchStatus)

namespace Registry

variable {r : Registry} {properties : Properties} {messageType t : String}
variable {id j : HandlerId} {h : Handler} {status : SwitchStatus}
variable {c : RegistryChange} {changes : List RegistryChange}

def change (r : Registry) : RegistryChange → Registry
  | .bind id => r.bind id
  | .unbind id => (r.unbind id).1
  | .setSwitch id status => r.setSwitch id status

/-- A registry in which none of the handlers is bound, after changes. -/
def afterAll (handlers : List Handler) (honoursToggles : Bool) (changes : List RegistryChange) :
    Registry :=
  changes.foldl change ⟨handlers, ∅, honoursToggles⟩

/-- There is a handler of this number, and it is one for messages of the type. -/
def Handles (handlers : List Handler) (id : HandlerId) (messageType : String) : Prop :=
  ∃ h, handlers[id]? = some h ∧ h.handledType = messageType

theorem Handles.unique {handlers : List Handler} {t' : String} (ht : Handles handlers id t)
    (ht' : Handles handlers id t') : t = t' := by
  obtain ⟨h, hh, rfl⟩ := ht
  obtain ⟨h', hh', rfl⟩ := ht'
  rw [Option.some.inj (hh.symm.trans hh')]

theorem not_handles (hnone : r.handler? id = none) : ¬Handles r.handlers id t := by
  rintro ⟨h, hh, -⟩
  rw [handler?, hh] at hnone
  cases hnone

/-! ### What is found -/

theorem lookup?_eq_some_iff : r.lookup? properties messageType = some id ↔
    r.entry? messageType = some id ∧
      ∃ handler, r.handler? id = some handler ∧ r.isEnabled properties handler = true := by
  unfold lookup?
  cases hentry : r.entry? messageType with
  | none => simp
  | some entry =>
    cases hhandler : r.handler? entry with
    | none =>
      simp only [Option.bind_eq_bind, Option.bind_some, hhandler, Option.bind_none,
        Option.some.injEq]
      constructor
      · exact nofun
      · intro h
        obtain ⟨rfl, handler, hsome, -⟩ := h
        rw [hhandler] at hsome
        cases hsome
    | some handler =>
      simp only [Option.bind_eq_bind, Option.bind_some, hhandler, Option.some.injEq]
      constructor
      · intro h
        split at h
        · next henabled =>
          obtain rfl := Option.some.inj h
          exact ⟨rfl, handler, hhandler, henabled⟩
        · cases h
      · intro h
        obtain ⟨rfl, handler', hsome, henabled⟩ := h
        rw [hhandler] at hsome
        obtain rfl := Option.some.inj hsome
        rw [if_pos henabled]

theorem isEnabled_iff : r.isEnabled properties h = true ↔
    h.switch.isOn = true ∧ ¬(r.honoursToggles = true ∧ properties.Disables h.name) := by
  rw [isEnabled, Bool.and_eq_true, Bool.or_eq_true, Bool.not_eq_true', ← Bool.not_eq_true,
    Properties.handlerEnabled_iff, not_and_or]

/-! ### What each change does -/

theorem bind_cases (r : Registry) (id : HandlerId) :
    (∃ t, t ≠ "" ∧ Handles r.handlers id t ∧
        r.bind id = { r with bound := Table.set r.bound t id }) ∨
      (∀ t, Handles r.handlers id t → t = "") ∧ r.bind id = r := by
  unfold bind
  cases hh : r.handler? id with
  | none => exact Or.inr ⟨fun _ ht => absurd ht (not_handles hh), rfl⟩
  | some h =>
    have hhandles : Handles r.handlers id h.handledType := ⟨h, hh, rfl⟩
    dsimp only
    split
    · next hempty =>
      exact Or.inr ⟨fun _ ht => ht.unique hhandles ▸ String.isEmpty_iff.mp hempty, rfl⟩
    · next hsome =>
      rw [String.isEmpty_iff] at hsome
      exact Or.inl ⟨h.handledType, hsome, hhandles, rfl⟩

theorem unbind_cases (r : Registry) (id : HandlerId) :
    (∃ t, Handles r.handlers id t ∧ r.entry? t = some id ∧
        r.unbind id = ({ r with bound := r.bound.erase t }, true)) ∨
      (∀ t, Handles r.handlers id t → r.entry? t ≠ some id) ∧ r.unbind id = (r, false) := by
  unfold unbind
  cases hh : r.handler? id with
  | none => exact Or.inr ⟨fun _ ht => absurd ht (not_handles hh), rfl⟩
  | some h =>
    have hhandles : Handles r.handlers id h.handledType := ⟨h, hh, rfl⟩
    dsimp only
    split
    · next hentry => exact Or.inl ⟨h.handledType, hhandles, hentry, rfl⟩
    · next hentry => exact Or.inr ⟨fun _ ht => ht.unique hhandles ▸ hentry, rfl⟩

theorem handler?_setSwitch (r : Registry) (id : HandlerId) (status : SwitchStatus)
    (j : HandlerId) : (r.setSwitch id status).handler? j =
      (r.handler? j).map fun h => if id = j then { h with switch := h.switch.set status } else h :=
  List.getElem?_modify ..

theorem handles_setSwitch :
    Handles (r.setSwitch id status).handlers j t ↔ Handles r.handlers j t := by
  have hmap := handler?_setSwitch r id status j
  simp only [handler?] at hmap
  simp only [Handles, hmap, Option.map_eq_some_iff, exists_exists_and_eq_and]
  refine exists_congr fun h => and_congr_right fun _ => ?_
  split <;> rfl

/-- A change sets the switch of a handler, or else it leaves all but what is bound as it is. -/
theorem change_cases (r : Registry) (c : RegistryChange) :
    (∃ bound, r.change c = { r with bound := bound }) ∨ ∃ id status, c = .setSwitch id status := by
  cases c with
  | bind j =>
    rcases r.bind_cases j with ⟨_, -, -, heq⟩ | ⟨-, heq⟩
    · exact Or.inl ⟨_, heq⟩
    · exact Or.inl ⟨_, heq⟩
  | unbind j =>
    rcases r.unbind_cases j with ⟨_, -, -, heq⟩ | ⟨-, heq⟩
    · exact Or.inl ⟨_, congrArg Prod.fst heq⟩
    · exact Or.inl ⟨_, congrArg Prod.fst heq⟩
  | setSwitch j status => exact Or.inr ⟨j, status, rfl⟩

theorem handles_change : Handles (r.change c).handlers id t ↔ Handles r.handlers id t := by
  rcases r.change_cases c with ⟨bound, heq⟩ | ⟨j, status, rfl⟩
  · rw [heq]
  · exact handles_setSwitch

theorem honoursToggles_change (r : Registry) (c : RegistryChange) :
    (r.change c).honoursToggles = r.honoursToggles := by
  rcases r.change_cases c with ⟨bound, heq⟩ | ⟨j, status, rfl⟩
  · rw [heq]
  · rfl

/-- Each handler that is bound is bound to its type, and none to the empty type. -/
def Kept (r : Registry) : Prop :=
  ∀ t id, r.entry? t = some id → t ≠ "" ∧ Handles r.handlers id t

theorem kept_of_none_bound (handlers : List Handler) (honoursToggles : Bool) :
    Kept ⟨handlers, ∅, honoursToggles⟩ := by
  intro t id h
  cases h

theorem Kept.entry?_bind (hkept : r.Kept) : entry? (r.bind j) t = some id ↔
    j = id ∧ t ≠ "" ∧ Handles r.handlers id t ∨
      ¬Handles r.handlers j t ∧ r.entry? t = some id := by
  rcases r.bind_cases j with ⟨t', hne', ht', heq⟩ | ⟨hempty, heq⟩
  · rw [heq, entry?, Table.get?_set]
    split
    · next h =>
      subst h
      rw [Option.some.injEq]
      refine ⟨?_, fun hcase => hcase.elim And.left fun hold => absurd ht' hold.1⟩
      rintro rfl
      exact Or.inl ⟨rfl, hne', ht'⟩
    · next hne =>
      refine ⟨fun h => Or.inr ⟨fun hj => hne (hj.unique ht'), h⟩, ?_⟩
      rintro (⟨rfl, -, ht⟩ | ⟨-, h⟩)
      · exact absurd (ht.unique ht') hne
      · exact h
  · -- The handler is one of the empty type, to which nothing is bound, before or after.
    rw [heq]
    refine ⟨fun h => Or.inr ⟨fun hj => (hkept t id h).1 (hempty t hj), h⟩, ?_⟩
    rintro (⟨rfl, hne, ht⟩ | ⟨-, h⟩)
    · exact absurd (hempty t ht) hne
    · exact h

theorem Kept.entry?_unbind (hkept : r.Kept) :
    entry? (r.unbind j).1 t = some id ↔ j ≠ id ∧ r.entry? t = some id := by
  rcases r.unbind_cases j with ⟨t', ht', hentry, heq⟩ | ⟨hother, heq⟩
  · rw [heq, entry?, Table.get?_erase]
    split
    · next h =>
      subst h
      refine iff_of_false (Option.some_ne_none id).symm ?_
      rintro ⟨hne, h⟩
      exact hne (Option.some.inj (hentry.symm.trans h))
    · next hne =>
      refine ⟨fun h => ⟨?_, h⟩, And.right⟩
      rintro rfl
      exact hne ((hkept t j h).2.unique ht')
  · rw [heq]
    refine ⟨fun h => ⟨?_, h⟩, And.right⟩
    rintro rfl
    exact hother t (hkept t j h).2 h

/-- What is bound to a type after a change: the handler that the change binds to it, or the one that
was bound, if the change neither replaces nor unbinds it. -/
theorem Kept.entry?_change (hkept : r.Kept) : entry? (r.change c) t = some id ↔
    c = .bind id ∧ t ≠ "" ∧ Handles r.handlers id t ∨
      c ≠ .unbind id ∧ (∀ j, Handles r.handlers j t → c ≠ .bind j) ∧ r.entry? t = some id := by
  cases c with
  | bind j =>
    have hreplaces : (∀ k, Handles r.handlers k t → RegistryChange.bind j ≠ .bind k) ↔
        ¬Handles r.handlers j t := by
      refine ⟨fun h ht => h j ht rfl, fun h k hk he => ?_⟩
      obtain rfl := RegistryChange.bind.inj he
      exact h hk
    rw [change, hkept.entry?_bind, hreplaces]
    simp
  | unbind j =>
    rw [change, hkept.entry?_unbind]
    simp
  | setSwitch j status => simp [change, setSwitch, entry?]

theorem Kept.change (hkept : r.Kept) (c : RegistryChange) : (r.change c).Kept := by
  intro t id h
  rw [handles_change]
  rcases hkept.entry?_change.mp h with ⟨-, hne, ht⟩ | ⟨-, -, h⟩
  · exact ⟨hne, ht⟩
  · exact hkept t id h

/-! ### A history of changes -/

section

variable {handlers : List Handler} {honoursToggles : Bool}

/-- A handler is the last one that was bound to a type, and since then it was not unbound. -/
def StillBound (handlers : List Handler) (changes : List RegistryChange) (t : String)
    (id : HandlerId) : Prop :=
  ∃ before since, changes = before ++ .bind id :: since ∧ Handles handlers id t ∧
    (∀ j, Handles handlers j t → .bind j ∉ since) ∧ .unbind id ∉ since

theorem stillBound_concat : StillBound handlers (changes ++ [c]) t id ↔
    c = .bind id ∧ Handles handlers id t ∨
      c ≠ .unbind id ∧ (∀ j, Handles handlers j t → c ≠ .bind j) ∧
        StillBound handlers changes t id := by
  constructor
  · rintro ⟨before, since, hsplit, ht, hlast, hkept⟩
    rcases List.eq_nil_or_concat' since with rfl | ⟨since, d, rfl⟩
    · obtain ⟨-, hc⟩ := List.append_inj' hsplit rfl
      exact Or.inl ⟨List.singleton_inj.mp hc, ht⟩
    · rw [← List.cons_append, ← List.append_assoc] at hsplit
      obtain ⟨rfl, hc⟩ := List.append_inj' hsplit rfl
      obtain rfl := List.singleton_inj.mp hc
      simp only [List.mem_append, List.mem_singleton, not_or] at hlast hkept
      exact Or.inr ⟨Ne.symm hkept.2, fun j hj => Ne.symm (hlast j hj).2, before, since, rfl, ht,
        fun j hj => (hlast j hj).1, hkept.1⟩
  · rintro (⟨rfl, ht⟩ | ⟨hunbind, hbind, before, since, rfl, ht, hlast, hkept⟩)
    · exact ⟨changes, [], rfl, ht, by simp, by simp⟩
    · refine ⟨before, since ++ [c], by simp, ht, fun j hj => ?_, ?_⟩
      · simp [hlast j hj, Ne.symm (hbind j hj)]
      · simp [hkept, Ne.symm hunbind]

theorem afterAll_concat : afterAll handlers honoursToggles (changes ++ [c]) =
    (afterAll handlers honoursToggles changes).change c := List.foldl_concat ..

theorem handles_afterAll :
    Handles (afterAll handlers honoursToggles changes).handlers id t ↔ Handles handlers id t := by
  induction changes using List.reverseRecOn with
  | nil => rfl
  | append_singleton changes c ih => rw [afterAll_concat, handles_change, ih]

theorem kept_afterAll (handlers : List Handler) (honoursToggles : Bool)
    (changes : List RegistryChange) : (afterAll handlers honoursToggles changes).Kept := by
  induction changes using List.reverseRecOn with
  | nil => exact kept_of_none_bound handlers honoursToggles
  | append_singleton changes c ih =>
    rw [afterAll_concat]
    exact ih.change c

theorem entry?_afterAll : entry? (afterAll handlers honoursToggles changes) t = some id ↔
    t ≠ "" ∧ StillBound handlers changes t id := by
  -- From the end of the run: one more change does to the table what it does to the history.
  induction changes using List.reverseRecOn generalizing id with
  | nil => simp [afterAll, entry?, StillBound]
  | append_singleton changes c ih =>
    rw [afterAll_concat, (kept_afterAll handlers honoursToggles changes).entry?_change,
      stillBound_concat, ih]
    simp only [handles_afterAll]
    tauto

theorem honoursToggles_afterAll :
    (afterAll handlers honoursToggles changes).honoursToggles = honoursToggles := by
  induction changes using List.reverseRecOn with
  | nil => rfl
  | append_singleton changes c ih => rw [afterAll_concat, honoursToggles_change, ih]

/-- What it is to unbind a handler: it is told whether the handler is bound to its type. If it is, this
entry goes and no other one changes or comes; if it is not, and so if it was replaced, nothing
changes. -/
structure Unbinds (r : Registry) (id : HandlerId) : Prop where
  told : (r.unbind id).2 = true ↔ ∃ t, Handles r.handlers id t ∧ r.entry? t = some id
  removes : ∀ {t}, Handles r.handlers id t → (r.unbind id).2 = true →
    ∀ t', entry? (r.unbind id).1 t' = if t' = t then none else r.entry? t'
  refuses : (r.unbind id).2 = false → (r.unbind id).1 = r
  replaced : ∀ {t j}, Handles r.handlers id t → r.entry? t = some j → j ≠ id →
    r.unbind id = (r, false)

theorem unbinds (r : Registry) (id : HandlerId) : r.Unbinds id := by
  rcases r.unbind_cases id with ⟨t, ht, hentry, heq⟩ | ⟨hother, heq⟩
  · refine ⟨?_, ?_, ?_, ?_⟩
    · rw [heq]
      exact iff_of_true rfl ⟨t, ht, hentry⟩
    · intro t' ht' _ k
      rw [heq, ht'.unique ht, entry?, Table.get?_erase]
      rfl
    · rw [heq]
      exact nofun
    · intro t' j ht' hj hne
      rw [ht'.unique ht, hentry] at hj
      exact absurd (Option.some.inj hj).symm hne
  · refine ⟨?_, ?_, ?_, fun _ _ _ => heq⟩
    · rw [heq]
      refine iff_of_false Bool.false_ne_true ?_
      rintro ⟨t, ht, hentry⟩
      exact hother t ht hentry
    · rw [heq]
      exact nofun
    · rw [heq]
      exact fun _ => rfl

/-- After any history of handlers that were bound, unbound and switched, what is bound to a type is told
by the history, and what is found is told by what is bound. -/
theorem afterAll_history (handlers : List Handler) (honoursToggles : Bool)
    (changes : List RegistryChange) :
    let r := afterAll handlers honoursToggles changes
    (∀ t id, r.entry? t = some id ↔ t ≠ "" ∧ StillBound handlers changes t id) ∧
      (∀ id, r.Unbinds id) ∧
      ∀ properties t id, r.lookup? properties t = some id ↔
        r.entry? t = some id ∧ ∃ h, r.handler? id = some h ∧ h.switch.isOn = true ∧
          ¬(honoursToggles = true ∧ properties.Disables h.name) := by
  intro r
  have htoggles : r.honoursToggles = honoursToggles := honoursToggles_afterAll
  refine ⟨fun t id => entry?_afterAll, r.unbinds, fun properties t id => ?_⟩
  rw [lookup?_eq_some_iff, ← htoggles]
  simp only [isEnabled_iff]

end

end Registry

end ClusterMesh
