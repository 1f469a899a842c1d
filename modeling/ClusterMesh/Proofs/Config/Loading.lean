import ClusterMesh.Proofs.Config.Layers

/-!
# Loading a configuration

A configuration that is loaded has every typed setting from the layer that it has to come from, and
is valid. Where there is no such configuration, loading ends in an error and never in anything
else.
-/

namespace ClusterMesh

open Setting

variable {s : Setting} {c : MeshConfig}

/-! ### Typed sections -/

theorem Setting.section?_eq_some {names : List String} {fields : List (Option Setting)}
    (h : section? names s = some fields) : fields = names.mapIdx fun i name => s.part? name i := by
  cases s with
  | table entries =>
    rw [← Option.some.inj h]
    refine List.ext_getElem? fun i => ?_
    simp [part?, child?, entriesOrNone]
  | list items =>
    rw [← Option.some.inj h]
    refine List.ext_getElem? fun i => ?_
    by_cases hi : i < names.length
    · simp [part?, hi]
    · simp [hi]
  | _ => cases h

/-- What is read of a section is read of its parts; a section that is left out has none. -/
theorem Setting.parts_of_defaulted? {α : Type} {names : List String} {o : Option Setting}
    {build : List (Option Setting) → Option α} {fallback a : α}
    (h : defaulted? (fun s => (section? names s).bind build) fallback o = some a)
    (hempty : (section? names (table [])).bind build = some fallback) :
    build (names.mapIdx fun i name => o.bind fun s => s.part? name i) = some a := by
  cases o with
  | none =>
    rw [← h]
    obtain ⟨fields, hfields, hbuild⟩ := Option.bind_eq_some_iff.mp hempty
    obtain rfl := section?_eq_some hfields
    exact hbuild
  | some s =>
    obtain ⟨fields, hfields, hbuild⟩ := Option.bind_eq_some_iff.mp h
    obtain rfl := section?_eq_some hfields
    exact hbuild

theorem DispatchSettings.held?_of_ofSetting? (tree : Setting) {d : DispatchSettings}
    (h : defaulted? DispatchSettings.ofSetting? {} (tree.child? "dispatch") = some d) :
    defaulted? word64? 1000 (tree.held? .intervalMs) = some d.intervalMs ∧
      defaulted? word64? 10000 (tree.held? .timeoutMs) = some d.timeoutMs ∧
      defaulted? pool? .cached (tree.held? .pool) = some d.pool := by
  have hparts := parts_of_defaulted? h rfl
  simp only [List.mapIdx_cons, List.mapIdx_nil, Option.bind_eq_bind, Option.bind_eq_some_iff,
    Option.some.injEq] at hparts
  obtain ⟨_, hinterval, _, htimeout, _, hpool, rfl⟩ := hparts
  exact ⟨hinterval, htimeout, hpool⟩

theorem CommandSettings.held?_of_ofSetting? (tree : Setting) {d : CommandSettings}
    (h : defaulted? CommandSettings.ofSetting? {} (tree.child? "commands") = some d) :
    defaulted? word64? 10000 (tree.held? .defaultTimeoutMs) = some d.defaultTimeoutMs ∧
      defaulted? Setting.bool? true (tree.held? .validateIds) = some d.validateIds := by
  have hparts := parts_of_defaulted? h rfl
  simp only [List.mapIdx_cons, List.mapIdx_nil, Option.bind_eq_bind, Option.bind_eq_some_iff,
    Option.some.injEq] at hparts
  obtain ⟨_, htimeout, _, hvalidate, rfl⟩ := hparts
  exact ⟨htimeout, hvalidate⟩

theorem TransportSettings.held?_of_ofSetting? (tree : Setting) {d : TransportSettings}
    (h : defaulted? TransportSettings.ofSetting? {} (tree.child? "transport") = some d) :
    defaulted? word64? 1024 (tree.held? .channelCapacity) = some d.channelCapacity := by
  have hparts := parts_of_defaulted? h rfl
  simp only [List.mapIdx_cons, List.mapIdx_nil, Option.bind_eq_bind, Option.bind_eq_some_iff,
    Option.some.injEq] at hparts
  obtain ⟨_, hcapacity, rfl⟩ := hparts
  exact hcapacity

theorem NodeSettings.held?_of_ofSetting? (tree : Setting) {d : NodeSettings}
    (h : defaulted? NodeSettings.ofSetting? {} (tree.child? "node") = some d) :
    optional? Setting.text? (tree.held? .nodeId) = some d.id ∧
      optional? Setting.text? (tree.held? .nickname) = some d.nickname ∧
      defaulted? Setting.text? "127.0.0.1" (tree.held? .host) = some d.host ∧
      defaulted? word16? 5701 (tree.held? .port) = some d.port := by
  have hparts := parts_of_defaulted? h rfl
  simp only [List.mapIdx_cons, List.mapIdx_nil, Option.bind_eq_bind, Option.bind_eq_some_iff,
    Option.some.injEq] at hparts
  obtain ⟨_, hid, _, hnickname, _, hhost, _, hport, rfl⟩ := hparts
  exact ⟨hid, hnickname, hhost, hport⟩

namespace MeshConfig

/-! ### Layered and valid configurations -/

/-- The typed settings are what is read of the values that are chosen for them, and the defaults
where none is. -/
structure IsLayered (chosen? : Field → Option Setting) (c : MeshConfig) : Prop where
  intervalMs : defaulted? word64? 1000 (chosen? .intervalMs) = some c.dispatch.intervalMs
  timeoutMs : defaulted? word64? 10000 (chosen? .timeoutMs) = some c.dispatch.timeoutMs
  pool : defaulted? pool? .cached (chosen? .pool) = some c.dispatch.pool
  defaultTimeoutMs :
    defaulted? word64? 10000 (chosen? .defaultTimeoutMs) = some c.commands.defaultTimeoutMs
  validateIds : defaulted? Setting.bool? true (chosen? .validateIds) = some c.commands.validateIds
  channelCapacity :
    defaulted? word64? 1024 (chosen? .channelCapacity) = some c.transport.channelCapacity
  nodeId : optional? Setting.text? (chosen? .nodeId) = some c.node.id
  nickname : optional? Setting.text? (chosen? .nickname) = some c.node.nickname
  host : defaulted? Setting.text? "127.0.0.1" (chosen? .host) = some c.node.host
  port : defaulted? word16? 5701 (chosen? .port) = some c.node.port

structure IsValid (c : MeshConfig) : Prop where
  interval : 0 < c.dispatch.intervalMs
  timeout : c.dispatch.intervalMs ≤ c.dispatch.timeoutMs
  defaultTimeout : 0 < c.commands.defaultTimeoutMs
  capacity : 0 < c.transport.channelCapacity

theorem isLayered_of_ofSetting? {entries : List (String × Setting)}
    (h : ofSetting? (.table entries) = some c) : c.IsLayered (Setting.table entries).held? := by
  obtain ⟨dispatch, hdispatch, h⟩ := Option.bind_eq_some_iff.mp h
  simp only [Option.bind_eq_bind, Option.bind_eq_some_iff, Option.some.injEq] at h
  obtain ⟨commands, hcommands, transport, htransport, node, hnode, _, -, rfl⟩ := h
  obtain ⟨hinterval, htimeout, hpool⟩ :=
    DispatchSettings.held?_of_ofSetting? (.table entries) hdispatch
  obtain ⟨hdefault, hvalidate⟩ :=
    CommandSettings.held?_of_ofSetting? (.table entries) hcommands
  have hcapacity := TransportSettings.held?_of_ofSetting? (.table entries) htransport
  obtain ⟨hid, hnickname, hhost, hport⟩ :=
    NodeSettings.held?_of_ofSetting? (.table entries) hnode
  exact ⟨hinterval, htimeout, hpool, hdefault, hvalidate, hcapacity, hid, hnickname, hhost, hport⟩

theorem fault?_eq_none_iff : c.fault? = none ↔ c.IsValid := by
  have hpos : ∀ w : UInt64, 0 < w ↔ w ≠ 0 := fun w => UInt64.pos_iff_ne_zero
  refine ⟨fun h => ?_, fun h => ?_⟩
  · unfold fault? at h
    split at h
    · cases h
    split at h
    · cases h
    split at h
    · cases h
    split at h
    · cases h
    next hinterval htimeout hdefault hcapacity =>
      exact ⟨(hpos _).mpr hinterval, UInt64.not_lt.mp htimeout, (hpos _).mpr hdefault,
        (hpos _).mpr hcapacity⟩
  · rw [fault?, if_neg ((hpos _).mp h.interval), if_neg (UInt64.not_lt.mpr h.timeout),
      if_neg ((hpos _).mp h.defaultTimeout), if_neg ((hpos _).mp h.capacity)]

theorem validate_cases (c : MeshConfig) :
    c.validate = .ok c ∧ c.IsValid ∨ ∃ text, c.validate = .error (.configuration text) := by
  rw [validate]
  cases hfault : c.fault? with
  | none => exact Or.inl ⟨rfl, fault?_eq_none_iff.mp hfault⟩
  | some fault => exact Or.inr ⟨fault, rfl⟩

/-! ### Loading -/

/-- What the file holds; no file holds nothing. -/
def document? (file : Option ConfigFile) (library : ConfigLibrary := .running) :
    Option (List (String × Setting)) :=
  match file with
  | none => some []
  | some file => do (← ConfigFormat.ofPath? file.path).read? (← file.content) library

variable {library : ConfigLibrary} {file : Option ConfigFile} {env : Environment}
  {document : List (String × Setting)}

/-- The tree of a document with the environment over it. -/
def layers (document : List (String × Setting)) (env : Environment)
    (library : ConfigLibrary := .running) : Setting :=
  library.overlay (library.overlay (.table []) document) (library.settings env)

theorem ofLayers_cases (document : List (String × Setting)) (env : Environment)
    (library : ConfigLibrary) :
    (∃ c, ofSetting? (layers document env library) = some c ∧
      ofLayers document env library = .ok c) ∨
      ∃ text, ofLayers document env library = .error (.configuration text) := by
  rw [ofLayers, ← layers]
  cases ofSetting? (layers document env library) with
  | some c => exact Or.inl ⟨c, rfl, rfl⟩
  | none => exact Or.inr ⟨_, rfl⟩

/-- A document is loaded by reading its layers and validating what is read. The properties are the
only part that is changed in between. -/
theorem load_eq_validate (hdocument : document? file library = some document) (env : Environment) :
    (∃ (c : MeshConfig) (properties : Properties),
      ofSetting? (layers document env library) = some { c with properties := properties } ∧
        load file env library = c.validate) ∨
      ∃ text, load file env library = .error (.configuration text) := by
  cases file with
  | none =>
    obtain rfl := Option.some.inj hdocument
    rcases ofLayers_cases [] env library with ⟨c, hread, hlayers⟩ | ⟨text, hlayers⟩
    · refine Or.inl ⟨c, c.properties, hread, ?_⟩
      rw [load, hlayers]
      rfl
    · refine Or.inr ⟨text, ?_⟩
      rw [load, hlayers]
      rfl
  | some file =>
    obtain ⟨path, content⟩ := file
    simp only [document?, Option.bind_eq_bind, Option.bind_eq_some_iff] at hdocument
    obtain ⟨format, hformat, text, rfl, hread⟩ := hdocument
    cases hspelled : format.fileProperties? text library with
    | none =>
      have hload : load (some ⟨path, some text⟩) env library = .error (unreadable path) := by
        simp only [load, hformat, hread, hspelled]
      exact Or.inr ⟨_, hload⟩
    | some spelled =>
      rcases ofLayers_cases document env library with ⟨c, htree, hlayers⟩ | ⟨text, hlayers⟩
      · refine Or.inl ⟨{ c with properties :=
          (spelled.map (fun p => restoreSpelling p c.properties)).getD c.properties },
          c.properties, htree, ?_⟩
        simp only [load, hformat, hread, hspelled, hlayers]
        rfl
      · refine Or.inr ⟨text, ?_⟩
        simp only [load, hformat, hread, hspelled, hlayers]
        rfl

/-- The tree of the layers has for every setting what is chosen for it. -/
theorem isLayered_of_layers (hdoc : library.Documented) {properties : Properties}
    (hplain : ∀ e ∈ document, PathStep.IsPlain e.1) (hnames : (Setting.table document).NamesDiffer)
    (henv : env.NamesSettings)
    (hread : ofSetting? (layers document env library) = some { c with properties := properties }) :
    c.IsLayered fun f => f.chosen? document env := by
  have hover : Overlaid (Setting.table document).small _ env :=
    Overlaid.overlay_settings hdoc henv ⟨_, rfl⟩
  obtain ⟨entries, hentries⟩ := hover.root
  rw [layers, hdoc.overlay_document hplain hnames, hentries] at hread
  rw [hentries] at hover
  have hheld := isLayered_of_ofSetting? hread
  rw [funext hover.held?_eq_chosen?] at hheld
  exact { hheld with }

theorem loadFile_eq_load {f : ConfigFile} (hdocument : document? (some f) library = some document) :
    loadFile f env library = load (some f) env library := by
  obtain ⟨format, -, hread⟩ := Option.bind_eq_some_iff.mp hdocument
  obtain ⟨text, hcontent, -⟩ := Option.bind_eq_some_iff.mp hread
  rw [loadFile, hcontent]

/-- Settings come from the environment, else from the file, else they have their defaults. -/
theorem load_layers (hdoc : library.Documented) (hdocument : document? file library = some document)
    (hplain : ∀ e ∈ document, PathStep.IsPlain e.1) (hnames : (Setting.table document).NamesDiffer)
    (henv : env.NamesSettings) :
    (∀ c, load file env library = .ok c →
      c.IsLayered (fun f => f.chosen? document env) ∧ c.IsValid) ∧
    ((¬ ∃ c : MeshConfig, c.IsLayered (fun f => f.chosen? document env) ∧ c.IsValid) →
      ∃ text, load file env library = .error (.configuration text)) ∧
    ∀ f, file = some f → loadFile f env library = load file env library := by
  have hloadFile : ∀ f, file = some f → loadFile f env library = load file env library := by
    rintro f rfl
    exact loadFile_eq_load hdocument
  rcases load_eq_validate hdocument env with ⟨c, properties, hread, hload⟩ | ⟨text, hload⟩
  · have hlayered := isLayered_of_layers hdoc hplain hnames henv hread
    rcases c.validate_cases with ⟨hok, hvalid⟩ | ⟨text, herror⟩
    · refine ⟨fun c' hc' => ?_, fun hnone => absurd ⟨c, hlayered, hvalid⟩ hnone, hloadFile⟩
      obtain rfl : c = c' := Except.ok.inj ((hload.trans hok).symm.trans hc')
      exact ⟨hlayered, hvalid⟩
    · exact ⟨fun c' hc' => (nomatch (hload.trans herror).symm.trans hc'),
        fun _ => ⟨text, hload.trans herror⟩, hloadFile⟩
  · exact ⟨fun c' hc' => (nomatch hload.symm.trans hc'), fun _ => ⟨text, hload⟩, hloadFile⟩

theorem document?_json {text : String} {j : Json} (h : Json.parse text = some j) :
    document? (some ⟨"cfg.json", some text⟩) library = (Setting.ofJson j).entries? := by
  have hformat : ConfigFormat.ofPath? "cfg.json" = some .json := by decide +kernel
  simp only [document?, hformat, Option.bind_eq_bind, Option.bind_some, ConfigFormat.read?, h]

theorem load_eq_ok_of_map {α : Type} {g : MeshConfig → α} {a : α}
    (h : (load file env library).toOption.map g = some a) :
    ∃ c, load file env library = .ok c ∧ g c = a := by
  obtain ⟨c, hc, hg⟩ := Option.map_eq_some_iff.mp h
  cases hload : load file env library with
  | ok c' =>
    rw [hload] at hc
    exact ⟨c', rfl, Option.some.inj hc ▸ hg⟩
  | error e =>
    rw [hload] at hc
    cases hc

/-- A file with names in letters of both cases. -/
def mixedCase : ConfigFile :=
  ⟨"cfg.json", some "\x7b\"Dispatch\":\x7b\"POOL\":\"Single\"\x7d\x7d"⟩

def mixedCaseDocument : List (String × Setting) := [("Dispatch", .table [("POOL", .text "Single")])]

theorem document?_mixedCase : document? (some mixedCase) = some mixedCaseDocument := by
  refine document?_json (j := .object [("Dispatch", .object [("POOL", .text "Single")])]) ?_
  simp [Json.parse, Json.value?, Json.fields?, Json.skipSpace, Json.isSpace, Json.stringBody]

theorem namesDiffer_mixedCaseDocument : (Setting.table mixedCaseDocument).NamesDiffer :=
  ⟨List.nodup_singleton _, ⟨List.nodup_singleton _, trivial, trivial⟩, trivial⟩

def timeoutOf (text : String) : Environment := [("MESHSYNC__DISPATCH__TIMEOUT_MS", text)]

theorem namesSettings_timeoutOf (text : String) : (timeoutOf text).NamesSettings where
  known := by
    intro v hv _
    have hname : Text.toSmall "MESHSYNC__DISPATCH__TIMEOUT_MS" = Field.timeoutMs.variableName := by
      decide +kernel
    rw [List.mem_singleton.mp hv]
    exact ⟨.timeoutMs, hname⟩
  differ := List.pairwise_singleton _ _

/-- The pool comes from the file, the timeout from the environment, and the interval is the
default; a timeout below the interval is refused. -/
theorem load_layers_mixedCase :
    (∃ c, load (some mixedCase) (timeoutOf "5000") = .ok c ∧ c.dispatch = ⟨1000, 5000, .single⟩ ∧
      c.IsLayered (fun f => f.chosen? mixedCaseDocument (timeoutOf "5000"))) ∧
    ∃ text, load (some mixedCase) (timeoutOf "999") = .error (.configuration text) := by
  have hlayers := fun text => load_layers ConfigLibrary.running_documented document?_mixedCase
    (by decide)
    namesDiffer_mixedCaseDocument (namesSettings_timeoutOf text)
  constructor
  · have hload : (load (some mixedCase) (timeoutOf "5000")).toOption.map MeshConfig.dispatch =
        some ⟨1000, 5000, .single⟩ := by decide +kernel
    obtain ⟨c, hok, hdispatch⟩ := load_eq_ok_of_map hload
    exact ⟨c, hok, hdispatch, ((hlayers "5000").1 c hok).1⟩
  · refine (hlayers "999").2.1 ?_
    rintro ⟨c, hlayered, hvalid⟩
    have hinterval : defaulted? word64? 1000
        (Field.chosen? .intervalMs mixedCaseDocument (timeoutOf "999")) = some 1000 := by
      decide +kernel
    have htimeout : defaulted? word64? 10000
        (Field.chosen? .timeoutMs mixedCaseDocument (timeoutOf "999")) = some 999 := by
      decide +kernel
    have hle := hvalid.timeout
    rw [← Option.some.inj (hinterval.symm.trans hlayered.intervalMs),
      ← Option.some.inj (htimeout.symm.trans hlayered.timeoutMs)] at hle
    exact absurd hle (by decide)

/-- A file with two sections that are lists. -/
def listedSections : ConfigFile :=
  ⟨"cfg.json", some "\x7b\"dispatch\":[50,500],\"commands\":[77]\x7d"⟩

def listedDocument : List (String × Setting) :=
  [("dispatch", .list [.int 50, .int 500]), ("commands", .list [.int 77])]

theorem document?_listedSections : document? (some listedSections) = some listedDocument := by
  refine document?_json
    (j := .object [("dispatch", .list [.int 50, .int 500]), ("commands", .list [.int 77])]) ?_
  simp [Json.parse, Json.value?, Json.fields?, Json.items?, Json.number?, Json.skipSpace,
    Json.isSpace, Json.stringBody, Json.numberValue, Digits.value, Nat.ofDigitChars, wordBound]

theorem namesDiffer_listedDocument : (Setting.table listedDocument).NamesDiffer :=
  ⟨by decide +kernel, trivial, trivial, trivial⟩

def singlePool : Environment := [("MESHSYNC__DISPATCH__POOL", "single")]

theorem namesSettings_singlePool : singlePool.NamesSettings where
  known := by
    intro v hv _
    rw [List.mem_singleton.mp hv]
    exact ⟨.pool, by decide +kernel⟩
  differ := List.pairwise_singleton _ _

/-- A list counts by position where the environment does not name a setting of its section, and
counts for nothing where it does: the settings of a file are then neither those under their names
nor those at their positions. -/
theorem load_listedSections :
    document? (some listedSections) = some listedDocument ∧
      (∀ e ∈ listedDocument, PathStep.IsPlain e.1) ∧ (Setting.table listedDocument).NamesDiffer ∧
      singlePool.NamesSettings ∧
      ∃ c, load (some listedSections) singlePool = .ok c ∧
        ¬ c.IsLayered (fun f =>
          (singlePool.value? f).or ((Setting.table listedDocument).small.named? f)) ∧
        ¬ c.IsLayered (fun f =>
          (singlePool.value? f).or ((Setting.table listedDocument).small.held? f)) := by
  refine ⟨document?_listedSections, by decide, namesDiffer_listedDocument,
    namesSettings_singlePool, ?_⟩
  have hload : (load (some listedSections) singlePool).toOption.map
      (fun c => (c.dispatch, c.commands)) = some (⟨1000, 10000, .single⟩, ⟨77, true⟩) := by
    decide +kernel
  obtain ⟨c, hok, hsections⟩ := load_eq_ok_of_map hload
  obtain ⟨hdispatch, hcommands⟩ := Prod.ext_iff.mp hsections
  refine ⟨c, hok, fun h => ?_, fun h => ?_⟩
  · have hnamed : defaulted? word64? 10000 ((singlePool.value? .defaultTimeoutMs).or
        ((Setting.table listedDocument).small.named? .defaultTimeoutMs)) = some 10000 := by
      decide +kernel
    have htimeout := Option.some.inj (hnamed.symm.trans h.defaultTimeoutMs)
    rw [show c.commands = ⟨77, true⟩ from hcommands] at htimeout
    exact absurd htimeout (by decide)
  · have hheld : defaulted? word64? 1000 ((singlePool.value? .intervalMs).or
        ((Setting.table listedDocument).small.held? .intervalMs)) = some 50 := by
      decide +kernel
    have hinterval := Option.some.inj (hheld.symm.trans h.intervalMs)
    rw [show c.dispatch = ⟨1000, 10000, .single⟩ from hdispatch] at hinterval
    exact absurd hinterval (by decide)

end MeshConfig

end ClusterMesh
