import ClusterMesh.Proofs.Config.Properties
import Mathlib.Data.List.TakeWhile

/-!
# Variables for properties

The variable for a property of a file is named after it. Where the name of the property is made of
ASCII letters, digits, blanks, hyphens and single underscores, the variable sets the property, under
the spelling of the file, and nothing else. The name of the variable is a longer path for most other
names, and then no configuration is loaded; else it is not a path at all, and does not count.
-/

namespace ClusterMesh

open Setting

namespace Environment

variable {cs : List Char} {k : String}

/-! ### The name of the variable -/

/-- The variable for a property. -/
def variableOf (key : String) : String := "MESHSYNC__PROPERTIES__" ++ key

/-- The name under which the variable for a property is laid over a file. -/
def settingOf (key : String) : String :=
  String.ofList ("properties.".toList ++ dotted (Text.toSmall key).toList)

theorem toList_settingOf (key : String) :
    (settingOf key).toList = "properties.".toList ++ dotted (Text.toSmall key).toList :=
  String.toList_ofList

theorem toSmall_variableOf (key : String) :
    Text.toSmall (variableOf key) = "meshsync__properties__" ++ Text.toSmall key := by
  have hopening : Text.toSmall "MESHSYNC__PROPERTIES__" = "meshsync__properties__" := by decide
  have hsigma : 'Σ' ∉ "MESHSYNC__PROPERTIES__".toList := by decide
  have hend : Text.meetsCased "MESHSYNC__PROPERTIES__".toList.reverse = false := by
    decide +kernel
  rw [← hopening]
  exact Text.toSmall_append hsigma hend key

theorem settings_variableOf (key v : String) :
    settings [(variableOf key, v)] = [(settingOf key, value v)] := by
  have hopening : "meshsync__properties__".toList = opening ++ "properties__".toList := by decide
  have hname : (Text.toSmall (variableOf key)).toList =
      opening ++ ("properties__".toList ++ (Text.toSmall key).toList) := by
    rw [toSmall_variableOf, String.toList_append, hopening, List.append_assoc]
  have hdotted : dotted ("properties__".toList ++ (Text.toSmall key).toList) =
      "properties.".toList ++ dotted (Text.toSmall key).toList := by
    simp [dotted]
  rw [settings, List.filterMap_cons, name?_of_opening hname, hdotted]
  rfl

theorem dotted_of_single (h : ¬['_', '_'] <:+: cs) : dotted cs = cs := by
  fun_induction dotted cs with
  | case1 rest ih => exact absurd ⟨[], rest, rfl⟩ h
  | case2 c rest _ ih =>
    rw [ih fun hrest => h (List.infix_cons hrest)]
  | case3 => rfl

theorem single_of_not_mem_dotted (h : '.' ∉ dotted cs) : ¬['_', '_'] <:+: cs := by
  fun_induction dotted cs with
  | case1 rest ih => exact absurd List.mem_cons_self h
  | case2 c rest hpair ih =>
    rw [List.infix_cons_iff]
    rintro (hstarts | hrest)
    · obtain ⟨tail, heq⟩ := hstarts
      obtain ⟨rfl, rfl⟩ := List.cons.inj heq
      exact hpair tail rfl rfl
    · exact ih (fun hmem => h (List.mem_cons_of_mem c hmem)) hrest
  | case3 => simp

theorem mem_of_mem_dotted {c : Char} (h : c ∈ dotted cs) : c = '.' ∨ c ∈ cs := by
  fun_induction dotted cs with
  | case1 rest ih =>
    rcases List.mem_cons.mp h with rfl | hrest
    · exact Or.inl rfl
    · exact (ih hrest).imp_right fun hmem => List.mem_cons_of_mem _ (List.mem_cons_of_mem _ hmem)
  | case2 d rest _ ih =>
    rcases List.mem_cons.mp h with rfl | hrest
    · exact Or.inr List.mem_cons_self
    · exact (ih hrest).imp_right (List.mem_cons_of_mem d)
  | case3 => exact Or.inr h

theorem toSmall_settingOf (key : String) : Text.toSmall (settingOf key) = settingOf key := by
  have hopening : Text.toSmall "properties." = "properties." := by decide
  have hdot : '.' ∈ "properties.".toList := by decide
  refine Text.toSmall_of_isSettled fun c hc => ?_
  rcases List.mem_append.mp (toList_settingOf key ▸ hc) with hfirst | hrest
  · exact Text.isSettled_of_mem_toSmall (hopening.symm ▸ hfirst)
  · rcases mem_of_mem_dotted hrest with rfl | hkey
    · exact Text.isSettled_of_mem_toSmall (hopening.symm ▸ hdot)
    · exact Text.isSettled_of_mem_toSmall hkey

end Environment

/-! ### Where the name leads to -/

namespace PathStep

variable {fuel : Nat} {cs first ds : List Char} {name : String}

/-- A name that leads through a table or a list. -/
def IsPath (name : String) : Prop :=
  ∃ first second steps, ofName name = first :: second :: steps

theorem eq_nil_of_steps? (h : steps? fuel cs = some []) : cs = [] := by
  fun_cases steps? fuel cs <;> simp_all [steps?]

theorem steps?_dot (fuel : Nat) (ds : List Char) : steps? (fuel + 1) ('.' :: ds) =
    if (ds.takeWhile isNameChar).isEmpty then none
    else (steps? fuel (ds.drop (ds.takeWhile isNameChar).length)).map
      (entry (String.ofList (ds.takeWhile isNameChar)) :: ·) := rfl

theorem ofName_of_dot (h : name.toList = first ++ '.' :: ds) (hne : first ≠ [])
    (hfirst : ∀ c ∈ first, isNameChar c = true) : ofName name =
      ((steps? name.toList.length ('.' :: ds)).map (entry (String.ofList first) :: ·)).getD
        [entry name] := by
  have hdot : isNameChar '.' = false := by decide
  have htake : name.toList.takeWhile isNameChar = first := by
    rw [h, List.takeWhile_append_of_pos hfirst, List.takeWhile_cons_of_neg (by simp [hdot]),
      List.append_nil]
  have hempty : first.isEmpty = false := by simpa using hne
  have hdrop : name.toList.drop first.length = '.' :: ds := by
    rw [h, List.drop_left]
  simp only [ofName, htake, hempty, hdrop, Bool.false_eq_true, if_false]

end PathStep

namespace Environment

open PathStep

variable {key : String}

/-- A property whose name is made of ASCII letters, digits, blanks, hyphens and underscores, once it
is in small letters, and has no two underscores in a row. -/
structure IsOverridable (key : String) : Prop where
  nonempty : (Text.toSmall key).toList ≠ []
  chars : ∀ c ∈ (Text.toSmall key).toList, isNameChar c = true
  single : ¬['_', '_'] <:+: (Text.toSmall key).toList

/-- The name of a setting leads into the properties if what is behind its dot leads anywhere. -/
theorem ofName_settingOf {ds : List Char} (hds : dotted (Text.toSmall key).toList = ds) :
    ∃ fuel, ofName (settingOf key) =
      ((if (ds.takeWhile isNameChar).isEmpty then none
        else (steps? fuel (ds.drop (ds.takeWhile isNameChar).length)).map
          (entry (String.ofList (ds.takeWhile isNameChar)) :: ·)).map
        (entry "properties" :: ·)).getD [entry (settingOf key)] := by
  have hopening : "properties.".toList = "properties".toList ++ ['.'] := by decide
  have hchars : "properties".toList.all isNameChar = true := by decide
  have hne : "properties".toList ≠ [] := by decide
  have hname : (settingOf key).toList = "properties".toList ++ '.' :: ds := by
    rw [toList_settingOf, hds, hopening, List.append_assoc]
    rfl
  have hpath := ofName_of_dot hname hne (List.all_eq_true.mp hchars)
  rw [String.ofList_toList] at hpath
  have hlength : (settingOf key).toList.length = "properties".toList.length + ds.length + 1 := by
    rw [hname, List.length_append]
    rfl
  rw [hlength, steps?_dot] at hpath
  exact ⟨_, hpath⟩

theorem path_of_isOverridable (h : IsOverridable key) :
    ofName (settingOf key) = [.entry "properties", .entry (Text.toSmall key)] := by
  obtain ⟨fuel, hpath⟩ := ofName_settingOf (dotted_of_single h.single)
  have htake := List.takeWhile_eq_self_iff.mpr h.chars
  have hend : ∀ fuel, steps? fuel [] = some [] := fun fuel => by cases fuel <;> rfl
  have hempty : (Text.toSmall key).toList.isEmpty = false := by simpa using h.nonempty
  rw [hpath, htake, hempty, List.drop_length, hend, String.ofList_toList]
  rfl

/-- The name of a setting leads to a property, or farther, or it leads nowhere. -/
theorem path_cases (key : String) : IsOverridable key ∨
    (∃ n s steps, ofName (settingOf key) = .entry "properties" :: .entry n :: s :: steps) ∨
    ofName (settingOf key) = [.entry (settingOf key)] := by
  generalize hds : dotted (Text.toSmall key).toList = ds
  obtain ⟨fuel, hpath⟩ := ofName_settingOf hds
  cases hempty : (ds.takeWhile isNameChar).isEmpty with
  | true =>
    rw [hempty] at hpath
    exact Or.inr (Or.inr hpath)
  | false =>
    rw [hempty] at hpath
    cases hsteps : steps? fuel (ds.drop (ds.takeWhile isNameChar).length) with
    | none =>
      rw [hsteps] at hpath
      exact Or.inr (Or.inr hpath)
    | some steps =>
      rw [hsteps] at hpath
      cases steps with
      | cons s steps => exact Or.inr (Or.inl ⟨_, s, steps, hpath⟩)
      | nil =>
        have htake : ds.takeWhile isNameChar = ds := by
          have hsplit := List.prefix_iff_eq_append.mp (List.takeWhile_prefix (l := ds) isNameChar)
          rwa [eq_nil_of_steps? hsteps, List.append_nil] at hsplit
        have hchars : ∀ c ∈ ds, isNameChar c = true := List.takeWhile_eq_self_iff.mp htake
        have hdot : '.' ∉ dotted (Text.toSmall key).toList := by
          rw [hds]
          exact fun hmem => absurd (hchars '.' hmem) (by decide)
        have hsingle := single_of_not_mem_dotted hdot
        rw [dotted_of_single hsingle] at hds
        rw [htake] at hempty
        exact Or.inl ⟨hds ▸ by simpa using hempty, hds ▸ hchars, hsingle⟩

example : ofName (settingOf "a[-1]") = [.entry "properties", .entry "a", .position (-1)] := by
  decide +kernel

/-- A number that does not fit into 64 bits makes no path. -/
example : ofName (settingOf "a[99999999999999999999]") =
    [.entry "properties.a[99999999999999999999]"] := by decide +kernel

theorem path_of_isPath (h : ¬IsOverridable key) (hpath : IsPath (settingOf key)) :
    ∃ n s steps, ofName (settingOf key) = .entry "properties" :: .entry n :: s :: steps := by
  obtain ⟨first, second, steps, hsteps⟩ := hpath
  rcases path_cases key with hoverridable | hfarther | hitself
  · exact absurd hoverridable h
  · exact hfarther
  · rw [hitself] at hsteps
    cases hsteps

theorem path_of_not_isPath (h : ¬IsOverridable key) (hpath : ¬IsPath (settingOf key)) :
    ofName (settingOf key) = [.entry (settingOf key)] := by
  rcases path_cases key with hoverridable | ⟨n, s, steps, hfarther⟩ | hitself
  · exact absurd hoverridable h
  · exact absurd ⟨_, _, _, hfarther⟩ hpath
  · exact hitself

end Environment

/-! ### Loading with the variable -/

theorem Environment.text?_value (v : String) : ∃ t, (value v).text? = some t := by
  simp only [value]
  split
  · exact ⟨_, rfl⟩
  split
  · exact ⟨_, rfl⟩
  split <;> exact ⟨_, rfl⟩

namespace MeshConfig

open Environment

variable {library : ConfigLibrary} {c c' read : MeshConfig} {file : ConfigFile}
  {document entries : List (String × Setting)} {key v : String}

theorem layers_of_settings (hdoc : library.Documented) {env : Environment} {name : String}
    {value : Setting} (h : env.settings = [(name, value)]) (document : List (String × Setting)) :
    layers document env library =
      library.write value (PathStep.ofName name) (layers document [] library) := by
  rw [layers, hdoc.settings_eq, h, ← hdoc.steps_eq]
  rfl

theorem isTidy_properties (hdoc : library.Documented) (document : List (String × Setting))
    (env : Environment) :
    (((layers document env library).child? "properties").getD .null).IsTidy :=
  (hasTidyChildren_layers hdoc document env).isTidy_getD (isTidy_of_entriesOrNone rfl)

theorem texts_of_defaulted? {o : Option Setting} {p : Properties}
    (h : defaulted? properties? ∅ o = some p) :
    ∀ e ∈ (o.getD .null).entriesOrNone, e.2.text?.isSome = true := by
  cases o with
  | none =>
    intro e he
    cases he
  | some s =>
    cases s with
    | table es =>
      refine isSome_texts?.mp ?_
      change properties? (.table es) = some p at h
      rw [properties?_table] at h
      obtain ⟨pairs, hpairs, -⟩ := Option.map_eq_some_iff.mp h
      exact hpairs ▸ rfl
    | _ => cases h

section

variable (hdoc : library.Documented)

include hdoc

theorem write_table (value : Setting) (es : List (String × Setting)) (name : String)
    (steps : List PathStep) :
    ∃ es', library.write value (.entry name :: steps) (.table es) = .table es' ∧
      ∀ n, n ≠ Text.toSmall name → es'.lookup n = es.lookup n := by
  obtain ⟨es', hes'⟩ := write_eq_table hdoc value (.table es) name steps
  refine ⟨es', hes', fun n hn => ?_⟩
  have hchild := child?_write_of_ne hdoc value (.table es) steps hn
  rwa [hes'] at hchild

/-- A value at the end of a path into the properties changes nothing but what is read of them. -/
theorem ofSetting?_into_properties (hread : ofSetting? (layers document [] library) = some read)
    {steps : List PathStep} (hsteps : steps ≠ []) (value : Setting) :
    ofSetting? (library.write value (.entry "properties" :: steps) (layers document [] library)) =
      (properties? (library.write value steps
        (((layers document [] library).child? "properties").getD .null))).map
        fun p => { read with properties := p } := by
  obtain ⟨es, hes⟩ := layers_eq_table hdoc document []
  rw [hes] at hread ⊢
  obtain ⟨es', hes', hothers⟩ := write_table hdoc value es "properties" steps
  rw [toSmall_properties] at hothers
  have hsections : ∀ n ∈ typedSections, es'.lookup n = es.lookup n := by
    intro n hn
    refine hothers n ?_
    rintro rfl
    exact absurd hn (by decide)
  have hchild := child?_write_self hdoc value (.table es) "properties" hsteps
  rw [toSmall_properties, hes', child?_table] at hchild
  rw [hes', (ofSetting?_table hsections hread).2, hchild]
  rfl

theorem ofSetting?_beside (hread : ofSetting? (layers document [] library) = some read)
    {name : String} (hname : Text.toSmall name ∉ "properties" :: typedSections) (value : Setting) :
    ofSetting? (library.write value [.entry name] (layers document [] library)) = some read := by
  obtain ⟨es, hes⟩ := layers_eq_table hdoc document []
  rw [hes] at hread ⊢
  obtain ⟨es', hes', hothers⟩ := write_table hdoc value es name []
  obtain ⟨hproperties, hsections⟩ := not_or.mp (mt List.mem_cons.mpr hname)
  obtain ⟨hold, hnew⟩ := ofSetting?_table
    (fun n hn => hothers n fun he => hsections (he ▸ hn)) hread
  rw [hes', hnew, hothers "properties" (Ne.symm hproperties), hold]
  rfl

/-- A value at the end of a path to a property is read as that property. -/
theorem ofSetting?_property (hread : ofSetting? (layers document [] library) = some read)
    {value : Setting} {t : String} (ht : value.text? = some t) {name : String}
    (hname : Text.toSmall name = name) :
    ∃ p : Properties, ofSetting? (library.write value [.entry "properties", .entry name]
        (layers document [] library)) = some { read with properties := p } ∧
      (∀ n ∈ p.keys, Text.toSmall n = n) ∧
      ∀ n, Table.get? p n = if n = name then some t else Table.get? read.properties n := by
  have hinto := ofSetting?_into_properties hdoc hread (List.cons_ne_nil (.entry name) []) value
  have hreads := isReadAs_of_layers hdoc hread
  have htidy := isTidy_properties hdoc document []
  have htexts := texts_of_defaulted? (defaulted?_of_layers hdoc hread)
  rw [hdoc.write_entry] at hinto
  generalize hbelow : ((layers document [] library).child? "properties").getD .null = below
    at hreads htidy htexts hinto
  have hne : ∀ entries, value ≠ .table entries := by
    rintro entries rfl
    cases ht
  -- the table of properties with the value among them is again one of texts
  have hput : put below name value = .table (writeEntry name value below.entriesOrNone) := by
    rw [put_of_ne_table hne, hname]
  have hsome : (texts? (writeEntry name value below.entriesOrNone)).isSome = true := by
    refine isSome_texts?.mpr fun e he => ?_
    rcases mem_writeEntry he with hold | rfl
    · exact htexts e hold
    · exact Option.isSome_iff_exists.mpr ⟨t, ht⟩
  obtain ⟨pairs, hpairs⟩ := Option.isSome_iff_exists.mp hsome
  have hproperties : properties? (put below name value) = some (Table.ofPairs pairs) := by
    rw [hput, properties?_table, hpairs, Option.map_some]
  have hnew := isReadAs_of_properties? (htidy.put name value).nodup hproperties
  refine ⟨Table.ofPairs pairs, ?_, fun n hn => ?_, fun n => ?_⟩
  · rw [hinto, hproperties, Option.map_some]
  · exact (htidy.put name value).small n (hnew.keys ▸ hn)
  · rw [hnew.get?, hreads.get?]
    by_cases hn : n = name
    · rw [if_pos hn, hn, hput, child?_table, lookup_writeEntry_self]
      exact ht
    · rw [if_neg hn, child?_put_of_ne (hname.symm ▸ hn)]

/-- A value farther below the properties is not read as a property, and neither is anything else. -/
theorem ofSetting?_farther (hread : ofSetting? (layers document [] library) = some read)
    (name : String) (step : PathStep) (steps : List PathStep) (value : Setting) :
    ofSetting? (library.write value (.entry "properties" :: .entry name :: step :: steps)
      (layers document [] library)) = none := by
  have hinto := ofSetting?_into_properties hdoc hread
    (List.cons_ne_nil (PathStep.entry name) (step :: steps)) value
  have htidy := isTidy_properties hdoc document []
  generalize ((layers document [] library).child? "properties").getD .null = below at htidy hinto
  have hchild := child?_write_self hdoc value below name (List.cons_ne_nil step steps)
  rw [hinto, Option.map_eq_none_iff]
  refine Option.eq_none_iff_forall_ne_some.mpr fun p hp => ?_
  have hwritten := htidy.write hdoc value (List.cons_ne_nil (PathStep.entry name) (step :: steps))
  have hreads := isReadAs_of_properties? hwritten.nodup hp
  have hnone : Table.get? p (Text.toSmall name) = none := by
    rw [hreads.get?, hchild, Option.bind_some]
    exact text?_write hdoc (List.cons_ne_nil step steps)
  refine Table.get?_eq_none_iff.mp hnone ?_
  rw [hreads.keys, ← not_not (a := Text.toSmall name ∈ _), ← child?_eq_none_iff, hchild]
  exact Option.some_ne_none _

end

/-- A configuration with one property set: the property has the text of the value, and everything
else is as it was. -/
structure Overrides (c : MeshConfig) (key : String) (value : Setting) (c' : MeshConfig) : Prop where
  sections : c' = { c with properties := c'.properties }
  value : ∃ t, value.text? = some t ∧ Table.get? c'.properties key = some t
  others : ∀ k, k ≠ key → Table.get? c'.properties k = Table.get? c.properties k

theorem overrides_respelled {spelled p : Properties} {value : Setting} {t : String}
    (hapart : NamesApart spelled) (hkey : key ∈ spelled.keys) (ht : value.text? = some t)
    (hsmall : ∀ l ∈ read.properties.keys, Text.toSmall l = l)
    (hsmall' : ∀ l ∈ p.keys, Text.toSmall l = l)
    (hget : ∀ n, Table.get? p n =
      if n = Text.toSmall key then some t else Table.get? read.properties n) :
    Overrides (respelled spelled read) key value
      (respelled spelled { read with properties := p }) where
  sections := rfl
  value := by
    refine ⟨t, ht, ?_⟩
    change Table.get? (restoreSpelling spelled p) key = some t
    rw [get?_restoreSpelling hapart hsmall', if_pos (spelling_of_mem hapart hkey), hget, if_pos rfl,
      Option.some_or]
  others k hk := by
    change Table.get? (restoreSpelling spelled p) k =
      Table.get? (restoreSpelling spelled read.properties) k
    rw [get?_restoreSpelling hapart hsmall', get?_restoreSpelling hapart hsmall]
    split
    next hspelling =>
      have hne : Text.toSmall k ≠ Text.toSmall key := by
        intro he
        rw [he, spelling_of_mem hapart hkey] at hspelling
        exact hk hspelling.symm
      rw [hget, if_neg hne]
    next => rfl

theorem settingOf_not_mem (key : String) :
    Text.toSmall (settingOf key) ∉ "properties" :: typedSections := by
  have hdot : '.' ∈ (settingOf key).toList := by
    rw [toList_settingOf]
    exact List.mem_append_left _ (by decide)
  have hnone : ∀ n ∈ "properties" :: typedSections, '.' ∉ n.toList := by decide
  rw [toSmall_settingOf]
  exact fun hmem => hnone _ hmem hdot

/-- The variable for a property sets it if its name is one that a variable can spell. For any other
name the file is not loaded at all with the variable, or as if the variable were not there. -/
theorem load_variableOf (hdoc : library.Documented) (hkeeps : KeepsSpelling file)
    (hdocument : document? (some file) library = some document)
    (hproperties : document.lookup "properties" = some (.table entries))
    (hkeys : (entries.map fun e => Text.toSmall e.1).Nodup)
    (hload : load (some file) [] library = .ok c) (hkey : key ∈ entries.map Prod.fst) (v : String) :
    (IsOverridable key → ∃ c', load (some file) [(variableOf key, v)] library = .ok c' ∧
      Overrides c key (value v) c') ∧
    (¬IsOverridable key → PathStep.IsPath (settingOf key) →
      ∃ text, load (some file) [(variableOf key, v)] library = .error (.configuration text)) ∧
    (¬IsOverridable key → ¬PathStep.IsPath (settingOf key) →
      load (some file) [(variableOf key, v)] library = .ok c) ∧
    (Table.get? c.properties key ≠ (value v).text? →
      ((∃ c', load (some file) [(variableOf key, v)] library = .ok c' ∧ Overrides c key (value v) c') ↔
        IsOverridable key)) := by
  obtain ⟨spelled, hspelled, ⟨read, hread, hfault, rfl⟩, hall⟩ :=
    load_spelled hkeeps hdocument hload
  rw [hproperties] at hspelled
  have hfile := ConfigFormat.keys_of_spelledProperties? hkeys hspelled
  have hapart := ConfigFormat.namesApart_of_spelledProperties? hkeys hspelled
  have hlayers := layers_of_settings hdoc (settings_variableOf key v) document
  have hsmall : ∀ l ∈ read.properties.keys, Text.toSmall l = l := fun l hl =>
    (isTidy_properties hdoc document []).small l ((isReadAs_of_layers hdoc hread).keys ▸ hl)
  have hset : IsOverridable key → ∃ c', load (some file) [(variableOf key, v)] library = .ok c' ∧
      Overrides (respelled spelled read) key (value v) c' := by
    intro h
    obtain ⟨t, ht⟩ := text?_value v
    obtain ⟨p, hread', hsmall', hget⟩ := ofSetting?_property hdoc hread ht (Text.toSmall_toSmall key)
    rw [← path_of_isOverridable h, ← hlayers] at hread'
    refine ⟨respelled spelled { read with properties := p }, ?_,
      overrides_respelled hapart (hfile ▸ hkey) ht hsmall hsmall' hget⟩
    rw [hall, ofLayers_of_some hread']
    exact validate_respelled hfault
  have hfarther : ¬IsOverridable key → PathStep.IsPath (settingOf key) →
      ∃ text, load (some file) [(variableOf key, v)] library = .error (.configuration text) := by
    intro h hpath
    obtain ⟨name, step, steps, hlong⟩ := path_of_isPath h hpath
    have hread' := ofSetting?_farther hdoc hread name step steps (value v)
    rw [← hlong, ← hlayers] at hread'
    obtain ⟨text, herror⟩ := ofLayers_of_none hread'
    exact ⟨text, by rw [hall, herror]; rfl⟩
  have hbeside : ¬IsOverridable key → ¬PathStep.IsPath (settingOf key) →
      load (some file) [(variableOf key, v)] library = .ok (respelled spelled read) := by
    intro h hpath
    have hread' := ofSetting?_beside hdoc hread (settingOf_not_mem key) (value v)
    rw [← path_of_not_isPath h hpath, ← hlayers] at hread'
    rw [hall, ofLayers_of_some hread']
    exact validate_respelled hfault
  refine ⟨hset, hfarther, hbeside, fun hnew => ⟨?_, hset⟩⟩
  -- without the right name there is no configuration, or one that has the old text still
  rintro ⟨c', hok, hoverrides⟩
  by_contra h
  by_cases hpath : PathStep.IsPath (settingOf key)
  · obtain ⟨text, herror⟩ := hfarther h hpath
    rw [herror] at hok
    cases hok
  · obtain rfl := Except.ok.inj ((hbeside h hpath).symm.trans hok)
    obtain ⟨t, ht, hget⟩ := hoverrides.value
    exact hnew (hget.trans ht.symm)

/-- A file with properties whose names are of the three kinds. -/
def threeNames : ConfigFile :=
  ⟨"cfg.json", some
    "\x7b\"properties\":\x7b\"Prod-a\":\"x\",\"prod.parent\":\"root\",\"a:b\":\"z\"\x7d\x7d"⟩

def threeEntries : List (String × Setting) :=
  [("Prod-a", .text "x"), ("prod.parent", .text "root"), ("a:b", .text "z")]

theorem keepsSpelling_threeNames : KeepsSpelling threeNames := Or.inr (by decide)

theorem document?_threeNames :
    document? (some threeNames) = some [("properties", .table threeEntries)] := by
  refine document?_json (j := .object [("properties", .object [("Prod-a", .text "x"),
    ("prod.parent", .text "root"), ("a:b", .text "z")])]) ?_
  simp [Json.parse, Json.value?, Json.fields?, Json.skipSpace, Json.isSpace, Json.stringBody]

theorem namesApart_threeEntries : (threeEntries.map fun e => Text.toSmall e.1).Nodup := by decide

theorem load_threeNames : ∃ c, load (some threeNames) [] = .ok c ∧
    Table.get? c.properties "prod.parent" = some "root" :=
  load_eq_ok_of_map (g := fun c => Table.get? c.properties "prod.parent") (by decide +kernel)

/-- A variable sets the first property, no configuration is loaded with the one for the second, and
the one for the third does not count. -/
theorem load_variableOf_threeNames : ∃ c, load (some threeNames) [] = .ok c ∧
    (∃ c', load (some threeNames) [(variableOf "Prod-a", "TRUE")] = .ok c' ∧
      Overrides c "Prod-a" (.bool true) c') ∧
    (∃ text, load (some threeNames) [(variableOf "prod.parent", "eu")] =
      .error (.configuration text)) ∧
    load (some threeNames) [(variableOf "a:b", "w")] = .ok c := by
  obtain ⟨c, hload, -⟩ := load_threeNames
  have hvariable := fun (key : String) (hkey : key ∈ threeEntries.map Prod.fst) =>
    load_variableOf ConfigLibrary.running_documented keepsSpelling_threeNames document?_threeNames rfl
      namesApart_threeEntries hload hkey
  have hfirst : IsOverridable "Prod-a" :=
    ⟨by decide, List.all_eq_true.mp (by decide), by decide +kernel⟩
  have hsecond : ¬IsOverridable "prod.parent" := fun h =>
    absurd (h.chars '.' (by decide)) (by decide)
  have hthird : ¬IsOverridable "a:b" := fun h =>
    absurd (h.chars ':' (by decide)) (by decide)
  have hpath : PathStep.ofName (settingOf "prod.parent") =
      [.entry "properties", .entry "prod", .entry "parent"] := by decide
  have hitself : ¬PathStep.IsPath (settingOf "a:b") := by
    have hname : PathStep.ofName (settingOf "a:b") = [.entry "properties.a:b"] := by decide
    rintro ⟨first, second, steps, hsteps⟩
    rw [hname] at hsteps
    cases hsteps
  have hvalue : value "TRUE" = .bool true := by
    have hword : Text.toSmall "TRUE" = "true" := by decide
    rw [value, hword]
    rfl
  exact ⟨c, hload, hvalue ▸ (hvariable "Prod-a" (by decide) "TRUE").1 hfirst,
    (hvariable "prod.parent" (by decide) "eu").2.1 hsecond ⟨_, _, _, hpath⟩,
    (hvariable "a:b" (by decide) "w").2.2.1 hthird hitself⟩

/-- The parent of a group cannot be set by the variable that is named after it. -/
theorem load_variable_not_overrides :
    KeepsSpelling threeNames ∧
      document? (some threeNames) = some [("properties", .table threeEntries)] ∧
      (threeEntries.map fun e => Text.toSmall e.1).Nodup ∧
      Properties.parentKey "prod" ∈ threeEntries.map Prod.fst ∧
      (∃ c, load (some threeNames) [] = .ok c) ∧
      ∃ text, load (some threeNames) [("MESHSYNC__PROPERTIES__prod.parent", "eu")] =
        .error (.configuration text) := by
  obtain ⟨c, hload, -⟩ := load_threeNames
  refine ⟨keepsSpelling_threeNames, document?_threeNames, namesApart_threeEntries, by decide,
    ⟨c, hload⟩, ?_⟩
  exact load_error_of_toOption document?_threeNames (by decide +kernel)

end MeshConfig

end ClusterMesh
