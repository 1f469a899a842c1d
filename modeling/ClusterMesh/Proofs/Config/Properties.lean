import ClusterMesh.Proofs.Config.Entries
import ClusterMesh.Proofs.Config.Loading
import ClusterMesh.Proofs.Config.Spelling

/-!
# The properties of a configuration

Properties are read of the table that the layers leave under their name, each as the text of its
value. The properties of a file in which they keep their spelling are all loaded, under the names that
the file has for them.
-/

namespace ClusterMesh

open Setting

/-! ### Reading a table of properties -/

namespace Setting

variable {s v : Setting} {p : Properties} {k t : String} {es : List (String × Setting)}
  {pairs : List (String × String)}

/-- The texts of the values in a table. -/
def texts? (es : List (String × Setting)) : Option (List (String × String)) :=
  es.mapM fun e => e.2.text?.map fun t => (e.1, t)

theorem texts?_cons : texts? ((k, v) :: es) =
    v.text?.bind fun t => (texts? es).map fun pairs => (k, t) :: pairs := by
  rw [texts?, List.mapM_cons]
  cases v.text? with
  | none => rfl
  | some t => cases hrest : texts? es <;> simp [texts?] at hrest <;> simp [hrest]

theorem properties?_table : properties? (table es) = (texts? es).map Table.ofPairs := by
  rw [texts?]
  cases h : es.mapM fun e => e.2.text?.map fun t => (e.1, t) <;> simp [properties?, entries?, h]

theorem isSome_texts? : (texts? es).isSome = true ↔ ∀ e ∈ es, e.2.text?.isSome = true := by
  induction es with
  | nil => simp [texts?]
  | cons e es ih =>
    obtain ⟨k, v⟩ := e
    rw [texts?_cons, List.forall_mem_cons, ← ih]
    cases v.text? <;> simp

theorem texts?_eq_some (h : texts? es = some pairs) :
    pairs.map Prod.fst = es.map Prod.fst ∧
      ∀ k, pairs.lookup k = (es.lookup k).bind text? := by
  induction es generalizing pairs with
  | nil =>
    obtain rfl := Option.some.inj h
    exact ⟨rfl, fun _ => rfl⟩
  | cons e es ih =>
    obtain ⟨j, v⟩ := e
    rw [texts?_cons] at h
    obtain ⟨t, ht, h⟩ := Option.bind_eq_some_iff.mp h
    obtain ⟨rest, hrest, rfl⟩ := Option.map_eq_some_iff.mp h
    obtain ⟨hnames, hlookup⟩ := ih hrest
    refine ⟨by rw [List.map_cons, List.map_cons, hnames], fun k => ?_⟩
    rw [List.lookup_cons, List.lookup_cons]
    cases k == j with
    | true => exact ht.symm
    | false => exact hlookup k

/-- The properties that are read of a tree: the texts of what it has under its names. -/
structure IsReadAs (s : Setting) (p : Properties) : Prop where
  keys : p.keys = s.names
  get? : ∀ k, Table.get? p k = (s.child? k).bind text?

theorem isReadAs_of_properties? (hnodup : s.names.Nodup) (h : properties? s = some p) :
    s.IsReadAs p := by
  cases s with
  | table es =>
    rw [properties?_table] at h
    obtain ⟨pairs, hpairs, rfl⟩ := Option.map_eq_some_iff.mp h
    obtain ⟨hnames, hlookup⟩ := texts?_eq_some hpairs
    have hkeys : (pairs.map Prod.fst).Nodup := hnames ▸ hnodup
    refine ⟨?_, fun k => (Table.get?_ofPairs_of_nodup hkeys k).trans (hlookup k)⟩
    rw [KeyedList.keys, Table.toList_ofPairs_of_nodup hkeys, hnames]
    rfl
  | _ => cases h

theorem isReadAs_of_defaulted? {o : Option Setting} (htidy : ∀ s, o = some s → s.IsTidy)
    (h : defaulted? properties? ∅ o = some p) : (o.getD null).IsReadAs p := by
  cases o with
  | none =>
    obtain rfl := Option.some.inj h
    exact ⟨rfl, fun _ => rfl⟩
  | some s => exact isReadAs_of_properties? (htidy s rfl).nodup h

end Setting

/-! ### Properties as a file spells them -/

namespace Setting

/-- Of the fields of one name in an object the last counts. -/
theorem lookup_ofJsonFields (name : String) (entries : List (String × Setting))
    (fields : List (String × Json)) : (ofJsonFields entries fields).lookup name =
      ((Json.fieldValues fields name).getLast?.map ofJson).or (entries.lookup name) := by
  induction fields generalizing entries with
  | nil =>
    rw [ofJsonFields]
    rfl
  | cons field fields ih =>
    obtain ⟨k, v⟩ := field
    rw [ofJsonFields, ih]
    by_cases hk : k = name
    · subst hk
      have hvalues : Json.fieldValues ((k, v) :: fields) k = v :: Json.fieldValues fields k := by
        simp [Json.fieldValues]
      rw [lookup_writeEntry_self, hvalues, List.getLast?_cons]
      cases (Json.fieldValues fields k).getLast? <;> rfl
    · have hvalues : Json.fieldValues ((k, v) :: fields) name = Json.fieldValues fields name := by
        simp [Json.fieldValues, hk]
      rw [lookup_writeEntry_of_ne (Ne.symm hk), hvalues]

end Setting

namespace ConfigFormat

variable {library : ConfigLibrary} {format : ConfigFormat} {text : String}
  {document : List (String × Setting)} {spelled : Option Properties}

/-- Where a format keeps the spelling of names, the properties that a file spells are those of its
document. -/
theorem spelled_of_fileProperties? (hformat : format = .toml ∨ format = .json)
    (hread : format.read? text library = some document)
    (h : format.fileProperties? text library = some spelled) :
    ∃ p, spelled = some p ∧ spelledProperties? (document.lookup "properties") = some p := by
  rcases hformat with rfl | rfl
  · change library.toml? text = some document at hread
    rw [fileProperties?, hread, Option.bind_some] at h
    obtain ⟨p, hp, rfl⟩ := Option.map_eq_some_iff.mp h
    exact ⟨p, rfl, hp⟩
  · simp only [fileProperties?] at h
    split at h
    next fields hparse =>
      simp only [read?, hparse, Option.bind_some, Setting.ofJson, entries?, Option.some.injEq]
        at hread
      have hlookup := lookup_ofJsonFields "properties" [] fields
      rw [hread, List.lookup_nil, Option.or_none] at hlookup
      split at h
      next hnone =>
        rw [hnone] at hlookup
        obtain ⟨p, hp, rfl⟩ := Option.map_eq_some_iff.mp h
        exact ⟨p, rfl, hlookup ▸ hp⟩
      next j hone =>
        rw [hone] at hlookup
        obtain ⟨p, hp, rfl⟩ := Option.map_eq_some_iff.mp h
        exact ⟨p, rfl, hlookup ▸ hp⟩
      next => cases h
    next => cases h

end ConfigFormat

namespace ConfigFormat

theorem keys_of_spelledProperties? {entries : List (String × Setting)} {p : Properties}
    (hnames : (entries.map fun e => Text.toSmall e.1).Nodup)
    (h : spelledProperties? (some (.table entries)) = some p) : p.keys = entries.map Prod.fst := by
  obtain rfl := Option.some.inj h
  have hsame : (entries.map fun e => (e.1, valueText e.2)).map Prod.fst = entries.map Prod.fst := by
    rw [List.map_map]
    rfl
  have hnodup : (entries.map Prod.fst).Nodup :=
    List.Nodup.of_map Text.toSmall (by rwa [List.map_map])
  rw [KeyedList.keys, Table.toList_ofPairs_of_nodup (hsame.symm ▸ hnodup), hsame]

theorem namesApart_of_spelledProperties? {entries : List (String × Setting)} {p : Properties}
    (hnames : (entries.map fun e => Text.toSmall e.1).Nodup)
    (h : spelledProperties? (some (.table entries)) = some p) : MeshConfig.NamesApart p := by
  rw [MeshConfig.NamesApart, keys_of_spelledProperties? hnames h, List.map_map]
  exact hnames

end ConfigFormat

/-! ### The properties among the sections -/

namespace MeshConfig

variable {library : ConfigLibrary} {c c' : MeshConfig} {tree tree' : Setting} {file : ConfigFile}
  {env env' : Environment} {document entries : List (String × Setting)}

/-- The sections whose settings have types of their own. -/
def typedSections : List String := ["dispatch", "commands", "transport", "node"]

theorem ofSetting?_table {es es' : List (String × Setting)}
    (hsame : ∀ n ∈ typedSections, es'.lookup n = es.lookup n)
    (hread : ofSetting? (.table es) = some c) :
    defaulted? properties? ∅ (es.lookup "properties") = some c.properties ∧
      ofSetting? (.table es') = (defaulted? properties? ∅ (es'.lookup "properties")).map
        fun p => { c with properties := p } := by
  have hsections : ∀ es, ofSetting? (.table es) = (do
      some ⟨← defaulted? DispatchSettings.ofSetting? {} (es.lookup "dispatch"),
        ← defaulted? CommandSettings.ofSetting? {} (es.lookup "commands"),
        ← defaulted? TransportSettings.ofSetting? {} (es.lookup "transport"),
        ← defaulted? NodeSettings.ofSetting? {} (es.lookup "node"),
        ← defaulted? properties? ∅ (es.lookup "properties")⟩) := fun es => rfl
  rw [hsections] at hread ⊢
  simp only [Option.bind_eq_bind, Option.bind_eq_some_iff, Option.some.injEq] at hread
  obtain ⟨_, hdispatch, _, hcommands, _, htransport, _, hnode, _, hproperties, rfl⟩ := hread
  rw [hsame "dispatch" (by decide), hsame "commands" (by decide), hsame "transport" (by decide),
    hsame "node" (by decide), hdispatch, hcommands, htransport, hnode]
  exact ⟨hproperties, Option.map_eq_bind.symm⟩

/-- A file in whose format names keep their spelling. -/
def KeepsSpelling (file : ConfigFile) : Prop :=
  ConfigFormat.ofPath? file.path = some .toml ∨ ConfigFormat.ofPath? file.path = some .json

/-- What the layers of a file come to, once the properties have the spelling of the file. -/
def respelled (spelled : Properties) (c : MeshConfig) : MeshConfig :=
  { c with properties := restoreSpelling spelled c.properties }

theorem validate_respelled {spelled : Properties} (h : c.fault? = none) :
    (respelled spelled c).validate = .ok (respelled spelled c) := by
  have hfault : (respelled spelled c).fault? = none := h
  rw [validate, hfault]

theorem ofLayers_of_some (h : ofSetting? (layers document env library) = some c) :
    ofLayers document env library = .ok c := by
  rw [ofLayers, ← layers, h]

theorem ofLayers_of_none (h : ofSetting? (layers document env library) = none) :
    ∃ text, ofLayers document env library = .error (.configuration text) := by
  rw [ofLayers, ← layers, h]
  exact ⟨_, rfl⟩

/-- A file with the spelling of its properties is loaded by its layers, in any environment. -/
theorem load_spelled (hkeeps : KeepsSpelling file)
    (hdocument : document? (some file) library = some document)
    (hload : load (some file) env library = .ok c) :
    ∃ spelled, ConfigFormat.spelledProperties? (document.lookup "properties") = some spelled ∧
      (∃ read, ofSetting? (layers document env library) = some read ∧ read.fault? = none ∧
        c = respelled spelled read) ∧
      ∀ env', load (some file) env' library =
        (ofLayers document env' library).bind fun c => (respelled spelled c).validate := by
  obtain ⟨path, content⟩ := file
  simp only [document?, Option.bind_eq_bind, Option.bind_eq_some_iff] at hdocument
  obtain ⟨format, hformat, text, rfl, hread⟩ := hdocument
  have hkept : format = .toml ∨ format = .json := by
    rcases hkeeps with h | h
    · exact Or.inl (Option.some.inj (hformat.symm.trans h))
    · exact Or.inr (Option.some.inj (hformat.symm.trans h))
  cases hfile : format.fileProperties? text library with
  | none =>
    simp only [load, hformat, hread, hfile] at hload
    cases hload
  | some spelled =>
    obtain ⟨p, rfl, hp⟩ := ConfigFormat.spelled_of_fileProperties? hkept hread hfile
    have hall : ∀ env', load (some ⟨path, some text⟩) env' library =
        (ofLayers document env' library).bind fun c => (respelled p c).validate := by
      intro env'
      simp only [load, hformat, hread, hfile]
      rfl
    refine ⟨p, hp, ?_, hall⟩
    rw [hall] at hload
    rcases ofLayers_cases document env library with ⟨read, hread, hlayers⟩ | ⟨text, hlayers⟩
    · rw [hlayers] at hload
      change (respelled p read).validate = .ok c at hload
      rcases (respelled p read).validate_cases with ⟨hok, hvalid⟩ | ⟨text, herror⟩
      · have hfault : (respelled p read).fault? = none := fault?_eq_none_iff.mpr hvalid
        exact ⟨read, hread, hfault, Except.ok.inj (hload.symm.trans hok)⟩
      · rw [herror] at hload
        cases hload
    · rw [hlayers] at hload
      cases hload

theorem load_error_of_toOption {f : Option ConfigFile}
    (hdocument : document? f library = some document)
    (h : (load f env library).toOption.isSome = false) :
    ∃ text, load f env library = .error (.configuration text) := by
  rcases load_eq_validate hdocument env with ⟨c, properties, -, hload⟩ | herror
  · rcases c.validate_cases with ⟨hok, -⟩ | ⟨text, herror⟩
    · rw [hload, hok] at h
      cases h
    · exact ⟨text, hload.trans herror⟩
  · exact herror

/-! ### All properties of a file -/

theorem layers_eq_table (hdoc : library.Documented) (document : List (String × Setting))
    (env : Environment) : ∃ es, layers document env library = .table es :=
  overlay_eq_table hdoc (overlay_eq_table hdoc ⟨[], rfl⟩ document) (library.settings env)

theorem hasTidyChildren_layers (hdoc : library.Documented) (document : List (String × Setting))
    (env : Environment) : (layers document env library).HasTidyChildren :=
  (hasTidyChildren_empty.overlay hdoc document).overlay hdoc (library.settings env)

theorem defaulted?_of_layers (hdoc : library.Documented)
    (hread : ofSetting? (layers document env library) = some c) :
    defaulted? properties? ∅ ((layers document env library).child? "properties") =
      some c.properties := by
  obtain ⟨es, hes⟩ := layers_eq_table hdoc document env
  rw [hes] at hread ⊢
  exact (ofSetting?_table (fun _ _ => rfl) hread).1

theorem isReadAs_of_layers (hdoc : library.Documented)
    (hread : ofSetting? (layers document env library) = some c) :
    (((layers document env library).child? "properties").getD .null).IsReadAs c.properties :=
  isReadAs_of_defaulted? (hasTidyChildren_layers hdoc document env "properties")
    (defaulted?_of_layers hdoc hread)

theorem toSmall_properties : Text.toSmall "properties" = "properties" := by decide

/-- No variable has a name that is a path into the properties. -/
def SparesProperties (env : Environment) : Prop :=
  ∀ e ∈ env.settings, ∀ first steps, PathStep.ofName e.1 = .entry first :: steps →
    "properties" ≠ Text.toSmall first

/-- In the tree of the layers there are the properties of the document, in small letters. -/
theorem child?_layers_properties (hdoc : library.Documented)
    (hplain : ∀ e ∈ document, PathStep.IsPlain e.1)
    (hnames : (document.map fun e => Text.toSmall e.1).Nodup)
    (hproperties : document.lookup "properties" = some (.table entries))
    (henv : SparesProperties env) :
    (layers document env library).child? "properties" = some (putAll (.table []) entries) := by
  have hmem : ("properties", .table entries) ∈ document :=
    (Table.lookup_eq_some_iff (List.Nodup.of_map Text.toSmall (by rwa [List.map_map]))).mp
      hproperties
  have hchild := child?_putAll_of_mem (.table []) hnames hmem
  rw [toSmall_properties] at hchild
  rw [layers, hdoc.settings_eq, child?_overlay_of_ne hdoc henv, hdoc.overlay_of_isPlain hplain,
    hchild]
  rfl

theorem text?_merged_none (v : Setting) : (merged none v).text? = v.text? := by
  cases v with
  | table incoming =>
    obtain ⟨es, heq⟩ := putAll_eq_table incoming ⟨[], rfl⟩
    rw [merged, Option.getD_none, heq]
    rfl
  | _ => rfl

/-- A file that spells its properties is loaded with all of them, under their names in the file. -/
theorem load_properties (hdoc : library.Documented) (hkeeps : KeepsSpelling file)
    (hdocument : document? (some file) library = some document)
    (hplain : ∀ e ∈ document, PathStep.IsPlain e.1)
    (hnames : (document.map fun e => Text.toSmall e.1).Nodup)
    (hproperties : document.lookup "properties" = some (.table entries))
    (hkeys : (entries.map fun e => Text.toSmall e.1).Nodup) (henv : SparesProperties env)
    (hload : load (some file) env library = .ok c) :
    (∀ k, k ∈ c.properties.keys ↔ k ∈ entries.map Prod.fst) ∧
      ∀ e ∈ entries, ∃ t, e.2.text? = some t ∧ Table.get? c.properties e.1 = some t := by
  obtain ⟨spelled, hspelled, ⟨read, hread, -, rfl⟩, -⟩ := load_spelled hkeeps hdocument hload
  have hreads := isReadAs_of_layers hdoc hread
  rw [child?_layers_properties hdoc hplain hnames hproperties henv, Option.getD_some] at hreads
  rw [hproperties] at hspelled
  have hfile := ConfigFormat.keys_of_spelledProperties? hkeys hspelled
  have hapart := ConfigFormat.namesApart_of_spelledProperties? hkeys hspelled
  have hlayered : ∀ l, l ∈ read.properties.keys ↔ ∃ e ∈ entries, l = Text.toSmall e.1 := by
    intro l
    rw [hreads.keys, mem_names_putAll]
    simp [names, entriesOrNone]
  have hsmall : ∀ l ∈ read.properties.keys, Text.toSmall l = l := by
    intro l hl
    obtain ⟨e, -, rfl⟩ := (hlayered l).mp hl
    exact Text.toSmall_toSmall e.1
  have hrestored := restored_restoreSpelling hapart hsmall
  refine ⟨fun k => ?_, fun e he => ?_⟩
  · -- every layered name is a name of the file in small letters, so that none is added
    rw [respelled, hrestored.keys, hfile]
    refine or_iff_left ?_
    rintro ⟨hl, hnew⟩
    obtain ⟨e, he, rfl⟩ := (hlayered k).mp hl
    exact hnew e.1 (List.mem_map_of_mem he) rfl
  · have htext : Table.get? read.properties (Text.toSmall e.1) = e.2.text? := by
      rw [hreads.get?, child?_putAll_of_mem (.table []) hkeys he, Option.bind_some]
      exact text?_merged_none e.2
    obtain ⟨t, ht⟩ := Table.mem_keys_iff.mp ((hlayered _).mpr ⟨e, he, rfl⟩)
    have hfound : Table.get? (restoreSpelling spelled read.properties) e.1 = some t := by
      rw [hrestored.spelled e.1 (hfile ▸ List.mem_map_of_mem he), ht, Option.some_or]
    exact ⟨t, htext.symm.trans ht, hfound⟩

/-- Restoring the spelling loses no property: what is restored has the names and the values that it
should have, whatever the order, and so a file is loaded with its properties as it spells them. -/
theorem spelling_is_restored :
    (∀ file layered : Properties, NamesApart file → (∀ l ∈ layered.keys, Text.toSmall l = l) →
      Restored file layered (restoreSpelling file layered) ∧
      ∀ file' layered' : Properties, file.toList.Perm file'.toList →
        layered.toList.Perm layered'.toList →
        (restoreSpelling file layered).toList.Perm (restoreSpelling file' layered').toList) ∧
    ∀ (library : ConfigLibrary) (file : ConfigFile) (env : Environment)
      (document entries : List (String × Setting)) (c : MeshConfig), library.Documented →
      KeepsSpelling file → document? (some file) library = some document →
      (∀ e ∈ document, PathStep.IsPlain e.1) → (document.map fun e => Text.toSmall e.1).Nodup →
      document.lookup "properties" = some (.table entries) →
      (entries.map fun e => Text.toSmall e.1).Nodup → SparesProperties env →
      load (some file) env library = .ok c →
      (∀ k, k ∈ c.properties.keys ↔ k ∈ entries.map Prod.fst) ∧
        ∀ e ∈ entries, ∃ t, e.2.text? = some t ∧ Table.get? c.properties e.1 = some t := by
  refine ⟨fun file layered h hsmall => ⟨restored_restoreSpelling h hsmall, ?_⟩, ?_⟩
  · exact fun file' layered' => restoreSpelling_perm h hsmall
  · intro library file env document entries c hdoc hkeeps hdocument hplain hnames hproperties hkeys
      henv hload
    exact load_properties hdoc hkeeps hdocument hplain hnames hproperties hkeys henv hload

/-- A file with properties in letters of both cases. -/
def spelledFile : ConfigFile :=
  ⟨"cfg.json", some "\x7b\"properties\":\x7b\"Prod.parent\":\"Root\",\"x\":true\x7d\x7d"⟩

def spelledEntries : List (String × Setting) := [("Prod.parent", .text "Root"), ("x", .bool true)]

theorem document?_spelledFile :
    document? (some spelledFile) = some [("properties", .table spelledEntries)] := by
  refine document?_json (j := .object [("properties", .object [("Prod.parent", .text "Root"),
    ("x", .bool true)])]) ?_
  simp [Json.parse, Json.value?, Json.fields?, Json.skipSpace, Json.isSpace, Json.stringBody]

theorem sparesProperties_timeoutOf : SparesProperties (timeoutOf "5000") := by
  intro e he first steps hpath
  have hfirst : ∀ e ∈ (timeoutOf "5000").settings,
      PathStep.ofName e.1 = [.entry "dispatch", .entry "timeout_ms"] := by decide
  rw [hfirst e he] at hpath
  obtain rfl : "dispatch" = first := PathStep.entry.inj (List.cons.inj hpath).1
  decide

/-- A layered value is put under the spelling of the file, one without a spelling is kept, and a file
beside another variable is loaded with both of its properties. -/
theorem spelling_is_restored_sample :
    Restored (Table.ofPairs [("Prod.parent", "file"), ("x", "y")])
      (Table.ofPairs [("prod.parent", "override"), ("env.only", "v")])
      (restoreSpelling (Table.ofPairs [("Prod.parent", "file"), ("x", "y")])
        (Table.ofPairs [("prod.parent", "override"), ("env.only", "v")])) ∧
    ∃ c, load (some spelledFile) (timeoutOf "5000") = .ok c ∧ c.dispatch.timeoutMs = 5000 ∧
      (∀ k, k ∈ c.properties.keys ↔ k ∈ ["Prod.parent", "x"]) ∧
      ∀ e ∈ spelledEntries, ∃ t, e.2.text? = some t ∧ Table.get? c.properties e.1 = some t := by
  have hsmall : ∀ l ∈ (Table.ofPairs [("prod.parent", "override"), ("env.only", "v")]).keys,
      Text.toSmall l = l := by decide
  refine ⟨(spelling_is_restored.1 _ _ (by unfold NamesApart; decide) hsmall).1, ?_⟩
  have hmap : (load (some spelledFile) (timeoutOf "5000")).toOption.map
      (fun c => c.dispatch.timeoutMs) = some 5000 := by decide +kernel
  obtain ⟨c, hload, htimeout⟩ := load_eq_ok_of_map hmap
  have hplain : ∀ e ∈ [("properties", Setting.table spelledEntries)], PathStep.IsPlain e.1 := by
    simp only [List.forall_mem_singleton]
    decide
  exact ⟨c, hload, htimeout, spelling_is_restored.2 .running spelledFile (timeoutOf "5000") _
    spelledEntries c ConfigLibrary.running_documented (Or.inr (by decide)) document?_spelledFile
    hplain (List.nodup_singleton _) rfl (by decide) sparesProperties_timeoutOf hload⟩

end MeshConfig

end ClusterMesh
