import ClusterMesh.Proofs.Policy.Chain
import ClusterMesh.Proofs.Policy.Expressions
import ClusterMesh.Proofs.Text.Listed

/-!
# The decision on an item

An item passes exactly if the whitelist entries on the chain of the group are none or one of them
matches it, and no blacklist entry on the chain matches it. The patterns that a policy has kept
compiled never tell: every one of them is what its text compiles to, whatever was decided before
and however the properties and the groups have changed since.
-/

namespace ClusterMesh

open Expression (Engine)

namespace Policy

variable {engine : Engine} {groups : Option GroupManager} {properties : Properties} {kind : ListKind}
variable {group category item entry : String} {direction : Direction}

/-- An entry of the list that a group itself keeps: a text between two commas of the property,
without line ends and trimmed, that is not empty. -/
def IsEntry (properties : Properties) (kind : ListKind) (group category : String)
    (direction : Direction) (entry : String) : Prop :=
  ∃ value, Table.get? properties (listKey kind group category direction) = some value ∧
    entry ≠ "" ∧
    ∃ p ∈ Text.pieces ',' (value.toList.filter fun c => c != '\n' && c != '\r'),
      entry = String.ofList (Text.trimChars p)

/-- A pattern whose expression is beyond the limits of the engine matches nothing; any other matches
the items that are made of its pieces in their order. -/
def Matches (engine : Engine) (pattern item : String) : Prop :=
  engine.Fits (Wildcard.expression pattern) ∧
    Wildcard.Fills (Text.pieces '*' pattern.toList) item.toList

theorem matchBy_iff_matches (hdoc : engine.Documented) {pattern : String} :
    Wildcard.matchBy engine pattern item = true ↔ Matches engine pattern item := by
  by_cases hfits : engine.Fits (Wildcard.expression pattern)
  · rw [Wildcard.matchBy_iff hdoc hfits, Wildcard.filled_iff, Matches, and_iff_right hfits]
  · simp [Wildcard.matchBy_of_not_fits hdoc hfits, Matches, hfits]

theorem mem_listItems {value : String} :
    entry ∈ (listItems value).toList ↔ entry ≠ "" ∧
      ∃ p ∈ Text.pieces ',' (value.toList.filter fun c => c != '\n' && c != '\r'),
        entry = String.ofList (Text.trimChars p) := by
  rw [← Text.mem_listed]
  exact KeyedList.mem_ofList

theorem mem_itemsAt :
    entry ∈ (itemsAt properties (listKey kind group category direction)).toList ↔
      IsEntry properties kind group category direction entry := by
  unfold itemsAt IsEntry
  cases Table.get? properties (listKey kind group category direction) with
  | none => simp
  | some value => simp only [mem_listItems, Option.some.injEq, exists_eq_left']

theorem mem_entries :
    entry ∈ (entries groups properties kind group category direction).toList ↔
      ∃ name ∈ chain groups properties group,
        IsEntry properties kind name category direction entry := by
  rw [entries, KeyedList.mem_ofList]
  simp only [List.mem_flatMap, mem_itemsAt]

theorem isAllowed_iff (hdoc : engine.Documented) :
    isAllowed engine groups properties group category direction item = true ↔
      ((∀ name ∈ chain groups properties group, ∀ entry,
          ¬IsEntry properties .whitelist name category direction entry) ∨
        ∃ name ∈ chain groups properties group, ∃ entry,
          IsEntry properties .whitelist name category direction entry ∧
            Matches engine entry item) ∧
      ∀ name ∈ chain groups properties group, ∀ entry,
        IsEntry properties .blacklist name category direction entry → ¬Matches engine entry item := by
  have hany : ∀ kind, ((entries groups properties kind group category direction).toList.any
      fun p => Wildcard.matchBy engine p item) = true ↔ ∃ name ∈ chain groups properties group,
        ∃ entry, IsEntry properties kind name category direction entry ∧
          Matches engine entry item := by
    intro kind
    simp only [List.any_eq_true, mem_entries, matchBy_iff_matches hdoc]
    constructor
    · rintro ⟨entry, ⟨name, hname, hentry⟩, hmatch⟩
      exact ⟨name, hname, entry, hentry, hmatch⟩
    · rintro ⟨name, hname, entry, hentry, hmatch⟩
      exact ⟨entry, ⟨name, hname, hentry⟩, hmatch⟩
  have hnone : (entries groups properties .whitelist group category direction).toList.isEmpty =
      true ↔ ∀ name ∈ chain groups properties group, ∀ entry,
        ¬IsEntry properties .whitelist name category direction entry := by
    rw [List.isEmpty_iff, List.eq_nil_iff_forall_not_mem]
    simp only [mem_entries]
    constructor
    · intro h name hname entry hentry
      exact h entry ⟨name, hname, hentry⟩
    · rintro h entry ⟨name, hname, hentry⟩
      exact h name hname entry hentry
  simp only [isAllowed, Bool.and_eq_true, Bool.or_eq_true, hnone, hany, Bool.not_eq_true',
    ← Bool.not_eq_true]
  refine and_congr_right fun _ => ?_
  constructor
  · intro h name hname entry hentry hmatch
    exact h ⟨name, hname, entry, hentry, hmatch⟩
  · rintro h ⟨name, hname, entry, hentry, hmatch⟩
    exact h name hname entry hentry hmatch

end Policy

/-! ### The compiled patterns -/

namespace PatternCache

variable {engine : Engine} {cache : PatternCache} {pattern item : String} {patterns : List String}

/-- Every pattern is kept as what it compiles to. -/
def Sound (engine : Engine) (cache : PatternCache) : Prop :=
  ∀ {pattern compiled}, Table.get? cache pattern = some compiled →
    compiled = Wildcard.compile pattern engine

theorem sound_empty (engine : Engine) : Sound engine ∅ := by
  intro pattern compiled h
  rw [Table.get?_empty] at h
  cases h

theorem Sound.tryPattern (h : cache.Sound engine) (pattern item : String) :
    (cache.tryPattern engine pattern item).1.Sound engine ∧
      (cache.tryPattern engine pattern item).2 = Wildcard.matchBy engine pattern item := by
  unfold PatternCache.tryPattern Wildcard.matchBy
  cases hkept : Table.get? cache pattern with
  | some compiled =>
    obtain rfl := h hkept
    exact ⟨h, rfl⟩
  | none =>
    refine ⟨?_, rfl⟩
    intro other compiled hother
    rw [Table.get?_set] at hother
    split at hother
    · next heq =>
      obtain rfl := Option.some.inj hother
      rw [heq]
    · exact h hother

theorem Sound.tryAny (h : cache.Sound engine) (patterns : List String) (item : String) :
    (cache.tryAny engine patterns item).1.Sound engine ∧
      (cache.tryAny engine patterns item).2 =
        patterns.any fun p => Wildcard.matchBy engine p item := by
  induction patterns generalizing cache with
  | nil => exact ⟨h, rfl⟩
  | cons p ps ih =>
    obtain ⟨hfirst, hverdict⟩ := h.tryPattern p item
    simp only [PatternCache.tryAny, List.any_cons, ← hverdict]
    cases hmatch : (cache.tryPattern engine p item).2 with
    | true => exact ⟨hfirst, hmatch⟩
    | false => exact ih hfirst

end PatternCache

namespace AccessPolicy

variable {p : AccessPolicy}

theorem sound_decide (h : p.cache.Sound p.engine) (group category : String) (direction : Direction)
    (item : String) :
    (p.decide group category direction item).1.cache.Sound p.engine ∧
      (p.decide group category direction item).2 =
        Policy.isAllowed p.engine p.groups p.properties group category direction item := by
  let white := (Policy.entries p.groups p.properties .whitelist group category direction).toList
  let black := (Policy.entries p.groups p.properties .blacklist group category direction).toList
  let admitted := if white.isEmpty then (p.cache, true) else p.cache.tryAny p.engine white item
  have hadmitted : admitted.1.Sound p.engine ∧
      admitted.2 = (white.isEmpty || white.any fun entry => Wildcard.matchBy p.engine entry item) := by
    cases hempty : white.isEmpty with
    | true =>
      have heq : admitted = (p.cache, true) := if_pos hempty
      rw [heq]
      exact ⟨h, rfl⟩
    | false =>
      have heq : admitted = p.cache.tryAny p.engine white item := if_neg (by simp [hempty])
      rw [heq, Bool.false_or]
      exact h.tryAny white item
  obtain ⟨hsound, hverdict⟩ := hadmitted
  have hdecide : p.decide group category direction item =
      if admitted.2 then ({ p with cache := (admitted.1.tryAny p.engine black item).1 },
        !(admitted.1.tryAny p.engine black item).2)
      else ({ p with cache := admitted.1 }, false) := rfl
  have hallowed : Policy.isAllowed p.engine p.groups p.properties group category direction item =
      (admitted.2 && !black.any fun entry => Wildcard.matchBy p.engine entry item) := by
    rw [hverdict]
    rfl
  rw [hdecide, hallowed]
  cases admitted.2 with
  | true =>
    obtain ⟨hsound', hdenied⟩ := hsound.tryAny black item
    exact ⟨hsound', by rw [Bool.true_and, ← hdenied]; rfl⟩
  | false => exact ⟨hsound, rfl⟩

/-- What happens to a policy between two decisions of interest: it decides on other items, an
entry of a list is switched, and the properties and the groups that it reads are changed by
others, in any way. -/
inductive Event
  | decided (group category : String) (direction : Direction) (item : String)
  | switched (kind : ListKind) (group category : String) (direction : Direction) (entry : String)
  | rewritten (properties : Properties)
  | regrouped (groups : Option GroupManager)

def after (p : AccessPolicy) : Event → AccessPolicy
  | .decided group category direction item => (p.decide group category direction item).1
  | .switched kind group category direction entry =>
    (p.switchEntry kind group category direction entry).1
  | .rewritten properties => { p with properties }
  | .regrouped groups => { p with groups }

theorem engine_after (p : AccessPolicy) (e : Event) : (p.after e).engine = p.engine := by
  cases e with
  | decided group category direction item =>
    simp only [after, decide, apply_ite (fun decided : AccessPolicy × Bool => decided.1.engine),
      ite_self]
  | switched | rewritten | regrouped => rfl

theorem sound_after (h : p.cache.Sound p.engine) (e : Event) :
    (p.after e).cache.Sound p.engine := by
  cases e with
  | decided group category direction item => exact (sound_decide h group category direction item).1
  | switched | rewritten | regrouped => exact h

theorem sound_foldl (h : p.cache.Sound p.engine) (events : List Event) :
    (events.foldl after p).engine = p.engine ∧ (events.foldl after p).cache.Sound p.engine := by
  induction events generalizing p with
  | nil => exact ⟨rfl, h⟩
  | cons e events ih =>
    have hengine := engine_after p e
    have hsound := ih (p := p.after e) (hengine.symm ▸ sound_after h e)
    rwa [hengine] at hsound

/-- Whatever happened to a policy before, its next decision follows from the chain of the group
and the lists on it alone, and is the one of a policy that has compiled nothing yet. -/
theorem decision {engine : Engine} (hdoc : engine.Documented) (properties : Properties)
    (groups : Option GroupManager) (events : List Event) (group category : String)
    (direction : Direction) (item : String) :
    let p := events.foldl after (start properties groups engine)
    let decided := (p.decide group category direction item).2
    decided = ((start p.properties p.groups engine).decide group category direction item).2 ∧
    (∀ pattern, (p.cache.tryPattern engine pattern item).2 = true ↔
      Policy.Matches engine pattern item) ∧
    (∃! names, Policy.IsChain p.groups p.properties group names) ∧
    ∀ names, Policy.IsChain p.groups p.properties group names →
      (decided = true ↔
        ((∀ name ∈ names, ∀ entry,
            ¬Policy.IsEntry p.properties .whitelist name category direction entry) ∨
          ∃ name ∈ names, ∃ entry,
            Policy.IsEntry p.properties .whitelist name category direction entry ∧
              Policy.Matches engine entry item) ∧
        ∀ name ∈ names, ∀ entry,
          Policy.IsEntry p.properties .blacklist name category direction entry →
            ¬Policy.Matches engine entry item) := by
  intro p decided
  obtain ⟨hengine, hsound⟩ : p.engine = engine ∧ p.cache.Sound engine :=
    sound_foldl (p := start properties groups engine) (PatternCache.sound_empty engine) events
  have hdecided := (sound_decide (p := p) (hengine.symm ▸ hsound) group category direction item).2
  have hfresh := (sound_decide (p := start p.properties p.groups engine)
    (PatternCache.sound_empty engine) group category direction item).2
  rw [hengine] at hdecided
  refine ⟨hdecided.trans hfresh.symm, ?_, ?_, ?_⟩
  · intro pattern
    have hverdict := (hsound.tryPattern pattern item).2
    rw [← Policy.matchBy_iff_matches hdoc, ← hverdict]
  · refine ⟨Policy.chain p.groups p.properties group, Policy.isChain_chain, ?_⟩
    intro names hchain
    exact hchain.unique Policy.isChain_chain
  · intro names hchain
    obtain rfl := hchain.unique Policy.isChain_chain
    rw [← Policy.isAllowed_iff hdoc, ← hdecided]

/-- A group below another one, which admits what begins with an `a`, and denies `ab`. -/
def admittingParent : Properties :=
  Table.ofPairs [("child.parent", "root"), ("root.cat.whitelist.inbound", "a*"),
    ("child.cat.blacklist.inbound", "ab")]

def denyingEvents : List Event :=
  [.decided "child" "cat" .inbound "az", .switched .blacklist "root" "cat" .inbound "*z"]

theorem decision_sample :
    let p := denyingEvents.foldl after (start admittingParent none)
    Engine.running.Documented ∧
    ((start admittingParent none).decide "child" "cat" .inbound "az").2 = true ∧
    (p.decide "child" "cat" .inbound "az").2 = false ∧
    (p.decide "child" "cat" .inbound "ac").2 = true ∧
    (∀ pattern, (p.cache.tryPattern .running pattern "az").2 = true ↔
      Policy.Matches .running pattern "az") ∧
    ∃! names, Policy.IsChain p.groups p.properties "child" names := by
  intro p
  have hdoc := Engine.running_documented
  obtain ⟨-, hmatches, hchain, -⟩ :=
    decision hdoc admittingParent none denyingEvents "child" "cat" .inbound "az"
  exact ⟨hdoc, by decide +kernel, by decide +kernel, by decide +kernel, hmatches, hchain⟩

end AccessPolicy

end ClusterMesh
