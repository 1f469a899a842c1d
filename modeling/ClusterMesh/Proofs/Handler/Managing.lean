import ClusterMesh.Proofs.Handler.Statuses

/-!
# What control commands change

A control command that is refused leaves a station as it was. One that sets the switch of the producer
or of the consumer sets that switch alone, one that toggles a handler sets the switch of one bound
handler of the name and writes the property of the name, and every other one changes nothing. Each is
answered under its own id and to the node that it came from, and the answer tells how the station is
afterwards.
-/

namespace ClusterMesh

namespace Command

variable {c : Command} {status : SwitchStatus}

/-! ### What is asked for -/

/-- The command gives no status: it wants to know how the switches are. -/
def Queries (c : Command) : Prop :=
  c.event.property? "status" = none ∨ c.event.property? "status" = some .null

/-- The command gives a status, as a truth value or as a text that spells it. -/
def Gives (c : Command) (status : SwitchStatus) : Prop :=
  c.event.property? "status" = some (.bool status.isOn) ∨
    ∃ text, c.event.property? "status" = some (.text text) ∧ SwitchStatus.parse text = some status

theorem requestedStatus_eq_none_iff : c.requestedStatus = .ok none ↔ c.Queries := by
  unfold requestedStatus Queries
  cases hstatus : c.event.property? "status" with
  | none => simp
  | some value =>
    cases value with
    | text text => cases hparse : SwitchStatus.parse text <;> simp [hparse]
    | _ => simp

theorem requestedStatus_eq_some_iff : c.requestedStatus = .ok (some status) ↔ c.Gives status := by
  unfold requestedStatus Gives
  cases hstatus : c.event.property? "status" with
  | none => simp
  | some value =>
    cases value with
    | text text => cases hparse : SwitchStatus.parse text <;> simp [hparse]
    | bool b =>
      have hiff : SwitchStatus.ofBool b = status ↔ b = status.isOn := by
        cases b <;> cases status <;> decide
      simp [hiff]
    | _ => simp

theorem gives_unique {status' : SwitchStatus} (h : c.Gives status) (h' : c.Gives status') :
    status = status' := by
  rw [← requestedStatus_eq_some_iff] at h h'
  exact Option.some.inj (Except.ok.inj (h.symm.trans h'))

theorem not_gives_of_queries (h : c.Queries) : ¬c.Gives status := by
  rw [← requestedStatus_eq_none_iff] at h
  rw [← requestedStatus_eq_some_iff, h]
  simp

theorem requestedStatus_eq_error_iff :
    (∃ reason, c.requestedStatus = .error reason) ↔ ¬c.Queries ∧ ∀ status, ¬c.Gives status := by
  simp only [← requestedStatus_eq_none_iff, ← requestedStatus_eq_some_iff]
  rcases c.requestedStatus with reason | _ | status <;> simp

end Command

/-- The result is under the id of the command, and addressed to the node that the command came from
and to no other. Where that node is not known it is for everyone. -/
structure CommandResult.Returns (result : CommandResult) (c : Command) : Prop where
  id : result.id = c.id
  addressed : ∀ origin, c.event.sourceNode = some origin →
    ∃ nodes : NodeSet, result.event.destination = some nodes ∧ nodes.toList = [origin]
  everyone : c.event.sourceNode = none → result.event.destination = none

theorem CommandResult.returns_replyTo (c : Command) (resultType : String) (node : Node) :
    (CommandResult.replyTo c resultType node).Returns c := by
  refine ⟨rfl, fun origin horigin => ⟨KeyedList.ofList [origin], ?_, ?_⟩, fun hnone => ?_⟩
  · simp [CommandResult.replyTo, horigin]
  · exact KeyedList.toList_ofList_of_nodup (by simp)
  · simp [CommandResult.replyTo, hnone]

namespace Registry

variable {r : Registry} {properties : Properties} {name : String} {status : SwitchStatus}

/-! ### The list of statuses -/

/-- A list of statuses has the names of the bound handlers, each with the status of a bound handler of
the name. -/
structure Lists (r : Registry) (properties : Properties) (statuses : Table String SwitchStatus) :
    Prop where
  names : ∀ name, name ∈ statuses.keys ↔ ∃ id h, (id, h) ∈ r.boundHandlers ∧ h.name = name
  tells : ∀ name status, Table.get? statuses name = some status →
    ∃ id h, (id, h) ∈ r.boundHandlers ∧ h.name = name ∧
      status = SwitchStatus.ofBool (r.isEnabled properties h)

theorem lists_statuses (r : Registry) (properties : Properties) :
    r.Lists properties (r.statuses properties) where
  names name := by
    rw [statuses, Table.mem_keys_ofPairs, List.map_map, List.mem_map]
    simp
  tells name status hget := by
    obtain ⟨⟨id, h⟩, hmem, hpair⟩ := List.mem_map.mp (Table.mem_of_mem_ofPairs (Table.mem_of_get? hget))
    obtain ⟨rfl, rfl⟩ := Prod.mk.inj hpair
    exact ⟨id, h, hmem, rfl, rfl⟩

theorem findByName?_eq_none_iff :
    r.findByName? name = none ↔ ∀ id h, (id, h) ∈ r.boundHandlers → h.name ≠ name := by
  simp [findByName?]

end Registry

namespace Station

variable {s after : Station} {target : ControlTarget} {c : Command} {status : SwitchStatus}
  {result : CommandResult} {name : String} {id : HandlerId} {h : Handler}

/-! ### What is changed -/

/-- The switch of the target has the status, and is all that there is to set back. -/
structure SetsSwitch (s after : Station) (target : ControlTarget) (status : SwitchStatus) :
    Prop where
  status : (after.switchOf target).status = status
  back : after.setSwitch target (s.switchOf target).status = s

/-- The switch of a bound handler has the status, the property of its name says so, and all else is as
it was. -/
structure Toggles (s after : Station) (id : HandlerId) (h : Handler) (status : SwitchStatus) :
    Prop where
  bound : (id, h) ∈ s.registry.boundHandlers
  switched : after.registry.handler? id = some { h with switch := h.switch.set status }
  others : ∀ j, j ≠ id → after.registry.handler? j = s.registry.handler? j
  property : ∀ key, Table.get? after.properties key =
    if key = Properties.handlerKey h.name then some (if status.isOn then "true" else "false")
    else Table.get? s.properties key
  rest : after = { s with
    registry := { s.registry with handlers := after.registry.handlers }
    properties := after.properties }

theorem setsSwitch_setSwitch (s : Station) (status : SwitchStatus) (htarget : target ≠ .handlers) :
    SetsSwitch s (s.setSwitch target status) target status := by
  cases target with
  | producer => exact ⟨rfl, rfl⟩
  | consumer => exact ⟨rfl, rfl⟩
  | handlers => exact absurd rfl htarget

theorem toggles_of_findByName? (status : SwitchStatus)
    (hfind : s.registry.findByName? name = some (id, h)) :
    h.name = name ∧ Toggles s (s.toggleHandler name status).1 id h status ∧
      (s.toggleHandler name status).2 = true := by
  obtain ⟨hhandler, rfl⟩ := Registry.handler?_of_findByName? hfind
  rw [toggleHandler, hfind]
  refine ⟨rfl, ⟨List.mem_of_find?_eq_some hfind, ?_, fun j hj => ?_, ?_, rfl⟩, rfl⟩
  · rw [Registry.handler?_setSwitch, hhandler]
    simp
  · rw [Registry.handler?_setSwitch]
    simp [hj.symm]
  · exact Table.get?_set _ _ _

/-- What becomes of a station by a control command, and whether the command is carried out. -/
inductive Response (s : Station) (target : ControlTarget) (c : Command) : Station → Bool → Prop
  | faulty (hqueries : ¬c.Queries) (hgives : ∀ status, ¬c.Gives status) : Response s target c s false
  | queried (hqueries : c.Queries) : Response s target c s true
  | switched {after : Station} (status : SwitchStatus) (hswitch : target ≠ .handlers)
      (hgives : c.Gives status) (hsets : SetsSwitch s after target status) :
      Response s target c after true
  | unnamed (status : SwitchStatus) (hhandlers : target = .handlers)
      (hname : c.event.propertyText? "handler" = none) (hgives : c.Gives status) :
      Response s target c s true
  | unknown (name : String) (status : SwitchStatus) (hhandlers : target = .handlers)
      (hname : c.event.propertyText? "handler" = some name) (hgives : c.Gives status)
      (hnone : ∀ id h, (id, h) ∈ s.registry.boundHandlers → h.name ≠ name) :
      Response s target c s false
  | toggled {after : Station} (id : HandlerId) (h : Handler) (status : SwitchStatus)
      (hhandlers : target = .handlers)
      (hname : c.event.propertyText? "handler" = some h.name) (hgives : c.Gives status)
      (htoggles : Toggles s after id h status) : Response s target c after true

theorem response_switchByCommand (s : Station) (c : Command) (hswitch : target ≠ .handlers) :
    s.Response target c (s.switchByCommand target c).1 (s.switchByCommand target c).2 := by
  unfold switchByCommand
  split
  next status hstatus =>
    exact .switched status hswitch (Command.requestedStatus_eq_some_iff.mp hstatus)
      (s.setsSwitch_setSwitch status hswitch)
  next hstatus => exact .queried (Command.requestedStatus_eq_none_iff.mp hstatus)
  next reason hstatus =>
    obtain ⟨hqueries, hgives⟩ := Command.requestedStatus_eq_error_iff.mp ⟨reason, hstatus⟩
    exact .faulty hqueries hgives

theorem response_toggleByCommand (s : Station) (c : Command) :
    s.Response .handlers c (s.toggleByCommand c).1 (s.toggleByCommand c).2 := by
  unfold toggleByCommand
  split
  next name status hname hstatus =>
    have hgives := Command.requestedStatus_eq_some_iff.mp hstatus
    cases hfind : s.registry.findByName? name with
    | none =>
      rw [toggleHandler, hfind]
      exact .unknown name status rfl hname hgives (Registry.findByName?_eq_none_iff.mp hfind)
    | some found =>
      obtain ⟨rfl, htoggles, hdone⟩ := toggles_of_findByName? status hfind
      rw [hdone]
      exact .toggled found.1 found.2 status rfl hname hgives htoggles
  next requested hrequested hother =>
    cases requested with
    | none => exact .queried (Command.requestedStatus_eq_none_iff.mp hrequested)
    | some status =>
      have hname : c.event.propertyText? "handler" = none :=
        Option.eq_none_iff_forall_ne_some.mpr fun name hname => hother name status hname rfl
      exact .unnamed status rfl hname (Command.requestedStatus_eq_some_iff.mp hrequested)
  next reason hstatus =>
    obtain ⟨hqueries, hgives⟩ := Command.requestedStatus_eq_error_iff.mp ⟨reason, hstatus⟩
    exact .faulty hqueries hgives

namespace Response

/-- A command that is not carried out changes nothing, and gives no status or names no bound
handler. -/
theorem refused (h : s.Response target c after false) : after = s ∧
    ((¬c.Queries ∧ ∀ status, ¬c.Gives status) ∨
      target = .handlers ∧ ∃ name status, c.event.propertyText? "handler" = some name ∧
        c.Gives status ∧ ∀ id h, (id, h) ∈ s.registry.boundHandlers → h.name ≠ name) := by
  cases h with
  | faulty hqueries hgives => exact ⟨rfl, Or.inl ⟨hqueries, hgives⟩⟩
  | unknown name status hhandlers hname hgives hnone =>
    exact ⟨rfl, Or.inr ⟨hhandlers, name, status, hname, hgives, hnone⟩⟩

theorem sets (h : s.Response target c after true) (hswitch : target ≠ .handlers)
    (hgives : c.Gives status) : SetsSwitch s after target status := by
  cases h with
  | queried hqueries => exact absurd hgives (Command.not_gives_of_queries hqueries)
  | switched _ _ hgives' hsets => rwa [Command.gives_unique hgives hgives']
  | unnamed _ hhandlers => exact absurd hhandlers hswitch
  | toggled _ _ _ hhandlers => exact absurd hhandlers hswitch

theorem toggles (h : s.Response target c after true) (hhandlers : target = .handlers)
    (hname : c.event.propertyText? "handler" = some name) (hgives : c.Gives status) :
    ∃ id h, h.name = name ∧ Toggles s after id h status := by
  cases h with
  | queried hqueries => exact absurd hgives (Command.not_gives_of_queries hqueries)
  | switched _ hswitch => exact absurd hhandlers hswitch
  | unnamed _ _ hnone => exact absurd (hnone.symm.trans hname) (by simp)
  | toggled id h _ _ hname' hgives' htoggles =>
    obtain rfl := Command.gives_unique hgives hgives'
    exact ⟨id, h, Option.some.inj (hname'.symm.trans hname), htoggles⟩

theorem leaves (h : s.Response target c after true)
    (hnoswitch : ¬(target ≠ .handlers ∧ ∃ status, c.Gives status))
    (hnotoggle : ¬(target = .handlers ∧ (∃ name, c.event.propertyText? "handler" = some name) ∧
      ∃ status, c.Gives status)) : after = s := by
  cases h with
  | queried => rfl
  | unnamed => rfl
  | switched status hswitch hgives => exact absurd ⟨hswitch, status, hgives⟩ hnoswitch
  | toggled id h status hhandlers hname hgives =>
    exact absurd ⟨hhandlers, ⟨_, hname⟩, status, hgives⟩ hnotoggle

theorem not_refused (h : s.Response target c after true) :
    ¬((¬c.Queries ∧ ∀ status, ¬c.Gives status) ∨
      target = .handlers ∧ ∃ name status, c.event.propertyText? "handler" = some name ∧
        c.Gives status ∧ ∀ id h, (id, h) ∈ s.registry.boundHandlers → h.name ≠ name) := by
  rintro (⟨hqueries, hgives⟩ | ⟨hhandlers, name, status, hname, hgives, hnone⟩)
  · cases h with
    | queried hqueries' => exact hqueries hqueries'
    | switched status _ hgives' => exact hgives status hgives'
    | unnamed status _ _ hgives' => exact hgives status hgives'
    | toggled _ _ status _ _ hgives' => exact hgives status hgives'
  · obtain ⟨id, h, rfl, htoggles⟩ := h.toggles hhandlers hname hgives
    exact hnone id h htoggles.bound rfl

end Response

/-! ### What is answered -/

/-- What a control command does to a station, and what is answered to it. -/
structure Controlled (s : Station) (target : ControlTarget) (c : Command) (after : Station)
    (result : CommandResult) : Prop where
  tells : ∃ success, result.event.property? "success" = some (.bool success)
  refused : result.event.property? "success" = some (.bool false) → after = s
  refuses : result.event.property? "success" = some (.bool false) ↔
    (¬c.Queries ∧ ∀ status, ¬c.Gives status) ∨
      target = .handlers ∧ ∃ name status, c.event.propertyText? "handler" = some name ∧
        c.Gives status ∧ ∀ id h, (id, h) ∈ s.registry.boundHandlers → h.name ≠ name
  switched : result.event.property? "success" = some (.bool true) → target ≠ .handlers →
    ∀ status, c.Gives status → SetsSwitch s after target status
  toggled : result.event.property? "success" = some (.bool true) → target = .handlers →
    ∀ name status, c.event.propertyText? "handler" = some name → c.Gives status →
      ∃ id h, h.name = name ∧ Toggles s after id h status
  otherwise : result.event.property? "success" = some (.bool true) →
    ¬(target ≠ .handlers ∧ ∃ status, c.Gives status) →
    ¬(target = .handlers ∧ (∃ name, c.event.propertyText? "handler" = some name) ∧
      ∃ status, c.Gives status) → after = s
  returns : result.Returns c
  status : target ≠ .handlers →
    result.event.property? "status" = some (.text (after.switchOf target).status.text)
  handlers : target = .handlers →
    Reports result after.statuses ∧ after.registry.Lists after.properties after.statuses

theorem controlled_of_response {success : Bool} (h : s.Response target c after success)
    (hsuccess : result.event.property? "success" = some (.bool success))
    (hreturns : result.Returns c)
    (hstatus : target ≠ .handlers →
      result.event.property? "status" = some (.text (after.switchOf target).status.text))
    (hreports : target = .handlers → Reports result after.statuses) :
    s.Controlled target c after result := by
  have hlists := fun htarget => And.intro (hreports htarget)
    (after.registry.lists_statuses after.properties)
  cases success with
  | false =>
    have hnot : result.event.property? "success" ≠ some (.bool true) := by simp [hsuccess]
    obtain ⟨hsame, hreason⟩ := h.refused
    exact ⟨⟨_, hsuccess⟩, fun _ => hsame, iff_of_true hsuccess hreason, fun ht => absurd ht hnot,
      fun ht => absurd ht hnot, fun ht => absurd ht hnot, hreturns, hstatus, hlists⟩
  | true =>
    have hnot : result.event.property? "success" ≠ some (.bool false) := by simp [hsuccess]
    exact ⟨⟨_, hsuccess⟩, fun hf => absurd hf hnot, iff_of_false hnot h.not_refused,
      fun _ hswitch _ hgives => h.sets hswitch hgives,
      fun _ hhandlers _ _ hname hgives => h.toggles hhandlers hname hgives,
      fun _ => h.leaves, hreturns, hstatus, hlists⟩

theorem property?_setProperty (r : CommandResult) (name other : String) (value : Json) :
    (r.setProperty name value).event.property? other =
      if other = name then some value else r.event.property? other :=
  Table.get?_set ..

/-- Every control command changes what it reports and nothing else. One whose registry is gone is
refused. -/
theorem executeControl_controlled (s : Station) (target : ControlTarget) (c : Command) :
    s.Controlled target c (s.executeControl target c).1 (s.executeControl target c).2 ∧
      (s.executeDetached c).event.property? "success" = some (.bool false) ∧
      (s.executeDetached c).event.property? "handlers" = some (.object []) ∧
      (s.executeDetached c).Returns c := by
  have hreply := fun target : ControlTarget =>
    CommandResult.returns_replyTo c target.resultType s.node
  have hswitch : ∀ target : ControlTarget, target ≠ .handlers →
      s.Controlled target c (s.switchByCommand target c).1
        (((CommandResult.replyTo c target.resultType s.node).setProperty "success"
          (.bool (s.switchByCommand target c).2)).setProperty "status"
          (.text ((s.switchByCommand target c).1.switchOf target).status.text)) := by
    intro target htarget
    refine controlled_of_response (s.response_switchByCommand c htarget) ?_ ?_ (fun _ => ?_)
      fun hhandlers => absurd hhandlers htarget
    · simp [property?_setProperty]
    · exact ⟨(hreply target).id, (hreply target).addressed, (hreply target).everyone⟩
    · simp [property?_setProperty]
  refine ⟨?_, ?_, ?_, ?_⟩
  · cases target with
    | producer => exact hswitch .producer (by decide)
    | consumer => exact hswitch .consumer (by decide)
    | handlers =>
      refine controlled_of_response (s.response_toggleByCommand c) ?_ ?_ (fun hne => absurd rfl hne)
        fun _ => s.reports_executeControl c
      · simp [executeControl, property?_setProperty]
      · exact ⟨(hreply .handlers).id, (hreply .handlers).addressed, (hreply .handlers).everyone⟩
  · simp [executeDetached, property?_setProperty]
  · simp [executeDetached, property?_setProperty]
  · exact ⟨(hreply .handlers).id, (hreply .handlers).addressed, (hreply .handlers).everyone⟩

end Station

end ClusterMesh
