import ClusterMesh.Mesh.Control
import ClusterMesh.Proofs.Handler.Binding
import ClusterMesh.Proofs.Json.Settled

/-!
# The statuses of handlers

A station lists its bound handlers by name, finds them by type, and toggles them by command. A handler
is listed as on if and only if it is found for its type. A command that toggles a handler writes its
switch and its property alike, so that from then on both say what the command said, until something
touches the switch, the property, or what is bound to the type of the handler.
-/

namespace ClusterMesh

theorem Properties.handlerKey_inj {name name' : String} :
    handlerKey name = handlerKey name' ↔ name = name' := String.append_right_inj _

theorem Properties.handlerEnabled_of_get? {p : Properties} {name : String} {enabled : Bool}
    (h : Table.get? p (handlerKey name) = some (if enabled then "true" else "false")) :
    p.handlerEnabled name = enabled := by
  rw [handlerEnabled, h]
  cases enabled <;> decide

namespace Registry

variable {r : Registry} {id j : HandlerId} {h : Handler}

/-! ### The handlers that are bound -/

def DistinctNames (r : Registry) : Prop := (r.boundHandlers.map fun e => e.2.name).Nodup

instance (r : Registry) : Decidable r.DistinctNames := inferInstanceAs (Decidable (List.Nodup _))

theorem mem_boundHandlers : (id, h) ∈ r.boundHandlers ↔
    r.handler? id = some h ∧ ∃ t, r.entry? t = some id := by
  rw [boundHandlers, List.mem_filterMap]
  constructor
  · rintro ⟨⟨t, k⟩, hentry, hmap⟩
    obtain ⟨h', hh', hpair⟩ := Option.map_eq_some_iff.mp hmap
    obtain ⟨rfl, rfl⟩ := Prod.mk.inj hpair
    exact ⟨hh', t, Table.get?_of_mem hentry⟩
  · rintro ⟨hh, t, hentry⟩
    exact ⟨(t, id), Table.mem_of_get? hentry, Option.map_eq_some_iff.mpr ⟨h, hh, rfl⟩⟩

theorem Kept.mem_boundHandlers (hkept : r.Kept) : (id, h) ∈ r.boundHandlers ↔
    r.handler? id = some h ∧ r.entry? h.handledType = some id := by
  rw [Registry.mem_boundHandlers]
  refine and_congr_right fun hh => ⟨?_, fun hentry => ⟨_, hentry⟩⟩
  rintro ⟨t, hentry⟩
  rwa [Handles.unique ⟨h, hh, rfl⟩ (hkept t id hentry).2]

theorem handler?_of_findByName? {name : String} (hfind : r.findByName? name = some (id, h)) :
    r.handler? id = some h ∧ h.name = name :=
  ⟨(mem_boundHandlers.mp (List.mem_of_find?_eq_some hfind)).1,
    eq_of_beq (List.find?_some (p := fun e : HandlerId × Handler => e.2.name == name) hfind)⟩

theorem DistinctNames.findByName? (hdistinct : r.DistinctNames) (hmem : (id, h) ∈ r.boundHandlers) :
    r.findByName? h.name = some (id, h) :=
  KeyedList.find?_of_mem (s := ⟨r.boundHandlers, hdistinct⟩) hmem

theorem DistinctNames.toList_statuses (hdistinct : r.DistinctNames) (properties : Properties) :
    (r.statuses properties).toList = r.boundHandlers.map
      fun e => (e.2.name, SwitchStatus.ofBool (r.isEnabled properties e.2)) := by
  refine Table.toList_ofPairs_of_nodup ?_
  rw [List.map_map]
  exact hdistinct

theorem DistinctNames.get?_statuses (hdistinct : r.DistinctNames)
    (hmem : (id, h) ∈ r.boundHandlers) (properties : Properties) :
    Table.get? (r.statuses properties) h.name =
      some (SwitchStatus.ofBool (r.isEnabled properties h)) := by
  refine Table.get?_of_mem ?_
  rw [hdistinct.toList_statuses]
  exact List.mem_map.mpr ⟨(id, h), hmem, rfl⟩

theorem names_setSwitch (r : Registry) (id : HandlerId) (status : SwitchStatus) :
    ((r.setSwitch id status).boundHandlers.map fun e => e.2.name) =
      r.boundHandlers.map fun e => e.2.name := by
  rw [boundHandlers, boundHandlers, List.map_filterMap, List.map_filterMap]
  refine List.filterMap_congr fun e _ => ?_
  rw [handler?_setSwitch, Option.map_map, Option.map_map, Option.map_map]
  refine congrArg (fun f => Option.map f _) (funext fun h => ?_)
  dsimp only [Function.comp_apply]
  split <;> rfl

theorem handler?_change {c : RegistryChange} (hsame : ∀ status, c ≠ .setSwitch id status) :
    (r.change c).handler? id = r.handler? id := by
  rcases r.change_cases c with ⟨bound, heq⟩ | ⟨j, status, rfl⟩
  · rw [heq, handler?, handler?]
  · have hne : j ≠ id := by
      rintro rfl
      exact hsame status rfl
    rw [change, handler?_setSwitch]
    simp [hne]

theorem handler?_add (hh : r.handler? id = some h) (added : Handler) :
    (r.add added).1.handler? id = some h := by
  obtain ⟨hlt, -⟩ := List.getElem?_eq_some_iff.mp hh
  exact (List.getElem?_append_left hlt).trans hh

theorem Kept.add (hkept : r.Kept) (added : Handler) : (r.add added).1.Kept := by
  intro t id hentry
  obtain ⟨hne, h, hh, ht⟩ := hkept t id hentry
  exact ⟨hne, h, handler?_add hh added, ht⟩

end Registry

/-! ### What is done to a station -/

/-- What may be done to a station: to its handlers, to its properties, by a control command, and to
its other parts. -/
inductive StationOperation
  | add (h : Handler)
  | change (c : RegistryChange)
  | setProperty (key value : String)
  | removeProperty (key : String)
  | control (target : ControlTarget) (c : Command)
  | other (f : Station → Station)

/-- The operation sets the switch of the handler, writes or removes its property, or binds or unbinds
what is bound to its type. -/
def StationOperation.Touches (r : Registry) (id : HandlerId) (h : Handler) :
    StationOperation → Prop
  | .change (.bind j) => j ≠ id ∧ Registry.Handles r.handlers j h.handledType
  | .change (.unbind j) => j = id
  | .change (.setSwitch j _) => j = id
  | .setProperty key _ => key = Properties.handlerKey h.name
  | .removeProperty key => key = Properties.handlerKey h.name
  | .control .handlers c => c.event.propertyText? "handler" = some h.name ∧
      ∃ status, c.requestedStatus = .ok (some status)
  | _ => False

namespace Station

open Registry

variable {s : Station} {id : HandlerId} {h : Handler} {status : SwitchStatus}
variable {c : Command} {op : StationOperation} {ops : List StationOperation}

def after (s : Station) : StationOperation → Station
  | .add h => { s with registry := (s.registry.add h).1 }
  | .change c => { s with registry := s.registry.change c }
  | .setProperty key value => { s with properties := Table.set s.properties key value }
  | .removeProperty key => { s with properties := s.properties.erase key }
  | .control target c => (s.executeControl target c).1
  | .other f => { f s with registry := s.registry, properties := s.properties }

def afterAll (s : Station) (ops : List StationOperation) : Station := ops.foldl after s

/-- None of the operations touches the handler, each at the station that it comes to. -/
def Spares (s : Station) (id : HandlerId) (h : Handler) : List StationOperation → Prop
  | [] => True
  | op :: ops => ¬op.Touches s.registry id h ∧ (s.after op).Spares id h ops

theorem registry_setSwitch (s : Station) (target : ControlTarget) (status : SwitchStatus) :
    (s.setSwitch target status).registry = s.registry ∧
      (s.setSwitch target status).properties = s.properties := by
  cases target <;> exact ⟨rfl, rfl⟩

theorem kept_after (hkept : s.registry.Kept) (op : StationOperation) :
    (s.after op).registry.Kept := by
  cases op with
  | add added => exact hkept.add added
  | change c => exact hkept.change c
  | setProperty key value => exact hkept
  | removeProperty key => exact hkept
  | other f => exact hkept
  | control target c =>
    rcases s.executeControl_cases target c with
      heq | ⟨status, heq⟩ | ⟨_, status, id, _, -, -, -, -, heq⟩
    · rw [after, heq]
      exact hkept
    · rw [after, heq, (s.registry_setSwitch target status).1]
      exact hkept
    · rw [after, heq]
      exact hkept.change (.setSwitch id status)

theorem kept_afterAll (hkept : s.registry.Kept) (ops : List StationOperation) :
    (s.afterAll ops).registry.Kept := by
  induction ops generalizing s with
  | nil => exact hkept
  | cons op ops ih => exact ih (kept_after hkept op)

/-! ### What is listed and what is found -/

/-- The statuses are those of the bound handlers, and each of these is listed as on if and only if it
is found for its type. -/
structure Agrees (s : Station) : Prop where
  names : s.statuses.keys = s.registry.boundHandlers.map fun e => e.2.name
  tells : ∀ id h, (id, h) ∈ s.registry.boundHandlers → Table.get? s.statuses h.name =
    some (if s.lookup? h.handledType = some id then .on else .off)

theorem lookup?_iff_isEnabled (hkept : s.registry.Kept)
    (hmem : (id, h) ∈ s.registry.boundHandlers) :
    s.lookup? h.handledType = some id ↔ s.registry.isEnabled s.properties h = true := by
  obtain ⟨hh, hentry⟩ := hkept.mem_boundHandlers.mp hmem
  rw [lookup?, lookup?_eq_some_iff]
  refine ⟨?_, fun henabled => ⟨hentry, h, hh, henabled⟩⟩
  rintro ⟨-, h', hh', henabled⟩
  rwa [Option.some.inj (hh.symm.trans hh')]

theorem agrees (hkept : s.registry.Kept) (hdistinct : s.registry.DistinctNames) : s.Agrees := by
  refine ⟨?_, fun id h hmem => ?_⟩
  · rw [statuses, KeyedList.keys, hdistinct.toList_statuses, List.map_map]
    rfl
  · rw [statuses, hdistinct.get?_statuses hmem]
    simp only [lookup?_iff_isEnabled hkept hmem]
    rfl

/-- The result of a command holds a text for each name in the list, and nothing else. -/
def Reports (r : CommandResult) (statuses : Table String SwitchStatus) : Prop :=
  ∃ fields, r.event.property? "handlers" = some (.object fields) ∧
    fields.Perm (statuses.toList.map fun e => (e.1, .text e.2.text))

theorem reports_executeControl (s : Station) (c : Command) :
    Reports (s.executeControl .handlers c).2 (s.executeControl .handlers c).1.statuses := by
  let statuses := (s.toggleByCommand c).1.statuses
  let fields := statuses.toList.map fun e => (e.1, Json.text e.2.text)
  have hnames : (([] ++ fields).map Prod.fst).Nodup := by
    rw [List.nil_append, List.map_map]
    exact statuses.nodup
  refine ⟨Json.settledFields [] fields, ?_, ?_⟩
  · exact (Table.get?_set ..).trans (if_pos rfl)
  · refine (Json.perm_settledFields hnames).trans (List.Perm.of_eq ?_)
    rw [List.nil_append, List.map_map]
    rfl

/-! ### What a command sets -/

/-- The handler is bound to its type, and its switch and its property both say the status. -/
structure Stands (s : Station) (id : HandlerId) (h : Handler) (status : SwitchStatus) : Prop where
  bound : s.registry.entry? h.handledType = some id
  handler : s.registry.handler? id = some { h with switch := h.switch.set status }
  property : Table.get? s.properties (Properties.handlerKey h.name) =
    some (if status.isOn then "true" else "false")

theorem Stands.isEnabled (hstands : s.Stands id h status) :
    s.registry.isEnabled s.properties { h with switch := h.switch.set status } = status.isOn := by
  have hproperty : s.properties.handlerEnabled h.name = status.isOn :=
    Properties.handlerEnabled_of_get? hstands.property
  change (status.isOn && (_ || s.properties.handlerEnabled h.name)) = status.isOn
  rw [hproperty]
  cases status.isOn <;> simp

theorem Stands.mem_boundHandlers (hstands : s.Stands id h status) :
    (id, { h with switch := h.switch.set status }) ∈ s.registry.boundHandlers :=
  Registry.mem_boundHandlers.mpr ⟨hstands.handler, _, hstands.bound⟩

/-- What holds of a handler while its switch and its property both say the status: it is found if and
only if this is on, and it is listed with it as long as no two names are the same. -/
structure Shows (s : Station) (id : HandlerId) (h : Handler) (status : SwitchStatus) : Prop where
  found : s.lookup? h.handledType = some id ↔ status = .on
  agrees : s.registry.DistinctNames → s.Agrees
  listed : s.registry.DistinctNames → Table.get? s.statuses h.name = some status
  reported : ∀ query, Reports (s.executeControl .handlers query).2
    (s.executeControl .handlers query).1.statuses

theorem Stands.shows (hstands : s.Stands id h status) (hkept : s.registry.Kept) :
    s.Shows id h status where
  found := by
    have hfound := lookup?_iff_isEnabled hkept hstands.mem_boundHandlers
    rw [hstands.isEnabled, SwitchStatus.isOn, beq_iff_eq] at hfound
    exact hfound
  agrees := agrees hkept
  listed hdistinct := by
    have hlisted := hdistinct.get?_statuses hstands.mem_boundHandlers s.properties
    rw [hstands.isEnabled, SwitchStatus.ofBool_isOn] at hlisted
    exact hlisted
  reported := s.reports_executeControl

theorem stands_executeControl (hkept : s.registry.Kept) (hdistinct : s.registry.DistinctNames)
    (hmem : (id, h) ∈ s.registry.boundHandlers)
    (hname : c.event.propertyText? "handler" = some h.name)
    (hstatus : c.requestedStatus = .ok (some status)) :
    (s.executeControl .handlers c).2.event.property? "success" = some (.bool true) ∧
      (s.executeControl .handlers c).1.Stands id h status ∧
      (s.executeControl .handlers c).1.registry.DistinctNames := by
  have hdone : s.toggleByCommand c = ({ s with
      registry := s.registry.setSwitch id status
      properties := s.properties.setHandlerEnabled h.name status.isOn }, true) := by
    rw [toggleByCommand, hname, hstatus]
    change s.toggleHandler h.name status = _
    rw [toggleHandler, hdistinct.findByName? hmem]
  obtain ⟨hh, hentry⟩ := hkept.mem_boundHandlers.mp hmem
  have hafter : (s.executeControl .handlers c).1 = { s with
      registry := s.registry.setSwitch id status
      properties := s.properties.setHandlerEnabled h.name status.isOn } := congrArg Prod.fst hdone
  refine ⟨?_, ?_, ?_⟩
  · have hsuccess : (s.executeControl .handlers c).2.event.property? "success" =
        some (.bool (s.toggleByCommand c).2) :=
      (Table.get?_set ..).trans ((if_neg (by decide)).trans ((Table.get?_set ..).trans (if_pos rfl)))
    rw [hsuccess, hdone]
  · rw [hafter]
    refine ⟨hentry, ?_, (Table.get?_set ..).trans (if_pos rfl)⟩
    rw [handler?_setSwitch, hh]
    simp
  · rw [hafter, DistinctNames, names_setSwitch]
    exact hdistinct

theorem Stands.after (hstands : s.Stands id h status) (hkept : s.registry.Kept)
    (hspares : ¬op.Touches s.registry id h) : (s.after op).Stands id h status := by
  obtain ⟨hbound, hhandler, hproperty⟩ := hstands
  cases op with
  | add added => exact ⟨hbound, handler?_add hhandler added, hproperty⟩
  | other f => exact ⟨hbound, hhandler, hproperty⟩
  | setProperty key value =>
    refine ⟨hbound, hhandler, ?_⟩
    rw [Station.after, Table.get?_set, if_neg (Ne.symm hspares), hproperty]
  | removeProperty key =>
    refine ⟨hbound, hhandler, ?_⟩
    rw [Station.after, Table.get?_erase, if_neg (Ne.symm hspares), hproperty]
  | change c =>
    refine ⟨hkept.entry?_change.mpr ?_, ?_, hproperty⟩
    · obtain ⟨hne, ht⟩ := hkept _ _ hbound
      by_cases hc : c = .bind id
      · exact Or.inl ⟨hc, hne, ht⟩
      · refine Or.inr ⟨?_, ?_, hbound⟩
        · rintro rfl
          exact hspares rfl
        · rintro j hj rfl
          exact hspares ⟨fun hj => hc (congrArg _ hj), hj⟩
    · refine (handler?_change fun status hc => ?_).trans hhandler
      subst hc
      exact hspares rfl
  | control target c =>
    rcases s.executeControl_cases target c with
      heq | ⟨status', heq⟩ | ⟨name, status', j, h', rfl, hname, hstatus, hfind, heq⟩
    · rw [Station.after, heq]
      exact ⟨hbound, hhandler, hproperty⟩
    · obtain ⟨hregistry, hproperties⟩ := s.registry_setSwitch target status'
      rw [Station.after, heq]
      exact ⟨hregistry ▸ hbound, hregistry ▸ hhandler, hproperties ▸ hproperty⟩
    · -- The command names another handler, which therefore has another number and another key.
      have hother : name ≠ h.name := by
        rintro rfl
        exact hspares ⟨hname, status', hstatus⟩
      have hj : j ≠ id := by
        rintro rfl
        obtain ⟨hh', rfl⟩ := handler?_of_findByName? hfind
        obtain rfl := Option.some.inj (hhandler.symm.trans hh')
        exact hother rfl
      rw [Station.after, heq]
      refine ⟨hbound, ?_, ?_⟩
      · rw [handler?_setSwitch, hhandler]
        simp [hj]
      · have hkey : Properties.handlerKey h.name ≠ Properties.handlerKey name :=
          fun he => hother (Properties.handlerKey_inj.mp he).symm
        rw [Properties.setHandlerEnabled, Table.get?_set, if_neg hkey, hproperty]

theorem Stands.afterAll (hstands : s.Stands id h status) (hkept : s.registry.Kept)
    (hspares : s.Spares id h ops) : (s.afterAll ops).Stands id h status := by
  induction ops generalizing s with
  | nil => exact hstands
  | cons op ops ih => exact ih (hstands.after hkept hspares.1) (kept_after hkept op) hspares.2

/-- Whatever was done to a station whose bound handlers have distinct names, its list of statuses agrees
with what it finds. A command that names a bound handler and a status is carried out, and from then on
the handler is found and listed as the command said, until an operation touches it. -/
theorem toggled_statuses (node : Node) (properties : Properties) (honoursToggles : Bool)
    (dispatch : DispatchSettings) (commands : CommandSettings) (before : List StationOperation) :
    let s := (start node properties honoursToggles dispatch commands).afterAll before
    s.registry.DistinctNames →
      s.Agrees ∧ ∀ id h, (id, h) ∈ s.registry.boundHandlers → ∀ c status,
        c.event.propertyText? "handler" = some h.name → c.requestedStatus = .ok (some status) →
          let done := s.executeControl .handlers c
          done.2.event.property? "success" = some (.bool true) ∧
            Reports done.2 done.1.statuses ∧ done.1.registry.DistinctNames ∧
            ∀ later, done.1.Spares id h later → (done.1.afterAll later).Shows id h status := by
  intro s hdistinct
  have hkept : s.registry.Kept := kept_afterAll (kept_of_none_bound [] honoursToggles) before
  refine ⟨agrees hkept hdistinct, fun id h hmem c status hname hstatus => ?_⟩
  obtain ⟨hsuccess, hstands, hnames⟩ := stands_executeControl hkept hdistinct hmem hname hstatus
  have hkept' : (s.executeControl .handlers c).1.registry.Kept :=
    kept_after hkept (.control .handlers c)
  refine ⟨hsuccess, s.reports_executeControl c, hnames, fun later hspares => ?_⟩
  exact (hstands.afterAll hkept' hspares).shows (kept_afterAll hkept' later)

/-- A command that names a handler and a status. -/
def toggling (name status : String) : Command :=
  ⟨{ Event.withId "toggle" "manage-handlers" with
      properties := Table.ofPairs [("handler", .text name), ("status", .text status)] }, none⟩

/-- A handler is off, and its property spells `false`. A command turns it on, and it stays on while
another handler is turned off. -/
theorem toggled_statuses_sample :
    let alpha : Handler := ⟨"a", ⟨"alpha", .off⟩, .correlator⟩
    let beta : Handler := ⟨"b", ⟨"beta", .on⟩, .correlator⟩
    let s := (start default ∅ true {} {}).afterAll [.add alpha, .add beta, .change (.bind 0),
      .change (.bind 1), .setProperty "handler.alpha" " FALSE "]
    let done := (s.executeControl .handlers (toggling "alpha" "On ")).1
    let later := [StationOperation.control .handlers (toggling "beta" "off")]
    s.registry.DistinctNames ∧ (0, alpha) ∈ s.registry.boundHandlers ∧ s.lookup? "a" = none ∧
      done.Spares 0 alpha later ∧ (done.afterAll later).Shows 0 alpha .on ∧
      (done.afterAll later).lookup? "a" = some 0 ∧ (done.afterAll later).lookup? "b" = none := by
  intro alpha beta s done later
  have hdistinct : s.registry.DistinctNames := by decide +kernel
  have hmem : (0, alpha) ∈ s.registry.boundHandlers := by decide +kernel
  have hspares : done.Spares 0 alpha later := ⟨fun htouches => absurd htouches.1 (by decide), trivial⟩
  obtain ⟨-, hcommands⟩ := toggled_statuses default ∅ true {} {} [.add alpha, .add beta,
    .change (.bind 0), .change (.bind 1), .setProperty "handler.alpha" " FALSE "] hdistinct
  obtain ⟨-, -, -, hshows⟩ :=
    hcommands 0 alpha hmem (toggling "alpha" "On ") .on (by decide) (by rfl)
  have hlater := hshows later hspares
  exact ⟨hdistinct, hmem, by decide +kernel, hspares, hlater, hlater.found.mpr rfl,
    by decide +kernel⟩

end Station

end ClusterMesh
