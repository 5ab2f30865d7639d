import Residency.Proofs.Json
import Residency.Proofs.Settings.Laws
import Residency.Proofs.Settings.Standard

/-!
# Which source settles a setting

Each field by itself, and then the filter of the log, which variables always spell.
-/

/-!
## Which source settles a field

Each field is settled on its own, by the environment if a variable is set for it, else
by the file if the field is there, else by its default (`loadFrom_fields`). Only
variables that lead to a table of the fields as a whole, into it by an index, or below
a field are left out; `loadFrom_indexed` shows what an index does.
-/

namespace Residency.Settings

variable {σ ε : Type} {library : Library σ ε} {files : Files σ} {environment : Environment} {file : Source}

section
variable (library) (environment) (file)

/-- What settles a field, unless that is its default. -/
def Field.settled? (field : Field) : Option Setting :=
  (library.given? environment field.key).or (field.value? (.table file))

/-- Each of the three fields is set by one variable or none, no variable obstructs a
field, and those that set anything have texts. -/
structure Unobstructed : Prop where
  textual : library.Textual environment
  spared : ∀ field ∈ fields, field.Spared library environment

/-- What settles each field converts to the field's value in the settings. -/
structure Settles (settings : Settings) : Prop where
  version : versionOf library (Field.version.settled? library environment file) = .ok settings.hsm.apiVersion
  filter : filterOf library (Field.filter.settled? library environment file) = .ok settings.logging.filter
  json : jsonOf library (Field.json.settled? library environment file) = .ok settings.logging.json

end

theorem Field.value?_congr {field : Field} {a b : List (String × Setting)}
    (same : a.lookup field.table = b.lookup field.table) : field.value? (.table a) = field.value? (.table b) :=
  congrArg (fun below : Option Setting => below.bind fun below => below.entries.lookup field.name) same

/-- The settings of two sources are read field by field. -/
theorem combine_fields (names : library.ReadsVariables) (layers : library.Layers) (converts : library.Converts)
    (keyed : Keyed Setting.Distinct file) (plain : ∀ entry ∈ file, Plain entry.1)
    (tabled : ∀ field ∈ fields, Tabled field.table file) (unobstructed : Unobstructed library environment)
    (settings : Settings) :
    combine library environment file = .ok settings ↔ Settles library environment file settings := by
  obtain ⟨assigned, read⟩ := names.reads.mpr unobstructed.textual
  -- the source of the variables is only known key by key, so the table after it is, too
  obtain ⟨base, after, leaves⟩ := exists_leaves layers file read
  have kept := layers.plain keyed plain leaves.first
  have standing : ∀ field ∈ fields, field.value? (.table after) = field.settled? library environment file := by
    intro field known
    rw [value?_leaves names layers leaves (simple_of_mem known) (unobstructed.spared field known),
      Field.value?_congr (kept field.table)]
    rfl
  have tables : ∀ field ∈ fields, Tabled field.table after := by
    intro field known
    refine tabled_leaves names layers leaves (simple_of_mem known) (unobstructed.spared field known) fun below there => ?_
    rw [kept] at there
    exact tabled field known below there
  rw [combine_eq_ok_iff converts leaves, hostOf_eq_ok_iff converts (tables .version (by decide)),
    loggingOf_eq_ok_iff converts (tables .filter (by decide)), standing .version (by decide),
    standing .filter (by decide), standing .json (by decide)]
  exact ⟨fun ⟨version, filter, json⟩ => ⟨version, filter, json⟩,
    fun settles => ⟨settles.version, settles.filter, settles.json⟩⟩

/-- Every field is settled on its own, and settings are loaded just if all of them
convert, from a file that is named and from the only one of the default name. -/
theorem loadFrom_fields (lawful : library.Lawful files) (plain : ∀ entry ∈ file, Plain entry.1)
    (tabled : ∀ field ∈ fields, Tabled field.table file) (unobstructed : Unobstructed library environment) :
    (∀ path world, library.file path true world = .ok file → ∀ settings,
      loadFrom library environment path world = .ok settings ↔ Settles library environment file settings) ∧
    ∀ extension world, FileTree.slash ∉ extension → FileTree.dot ∉ extension →
      library.file (defaultName ++ FileTree.dot :: extension) true world = .ok file →
        OnlyExtension files defaultName extension world → ∀ settings,
          load library environment world = .ok settings ↔ Settles library environment file settings := by
  have loaded {path : RawText} {required : Bool} {world : σ} (read : library.file path required world = .ok file)
      (settings : Settings) : library.file path required world >>= combine library environment = .ok settings ↔
        Settles library environment file settings := by
    rw [read]
    exact combine_fields lawful.toReadsVariables lawful.toLayers lawful.toConverts (lawful.keyed read) plain tabled
      unobstructed settings
  constructor
  · intro path world read settings
    exact loaded read settings
  · intro extension world slashless dotless read only settings
    exact loaded (lawful.extended (by decide) (by decide) (by decide) slashless dotless read only) settings

/-- The list in the file is masked and the name `config` is no field. -/
theorem loadFrom_fields_masked :
    let document := Json.object [("hsm", .object [("api_version", .array [])]), ("logging", .object [("json", .text "on")])]
    let tree := FileTree.ofList [("hsmdump.json", RawText.ofString document.document)]
    let library : Library Unit LoadError := .standard tree
    let environment : Environment := [("HSMDUMP_HSM__API_VERSION", "2"), ("hsmdump_Logging__Level", "no"),
      ("HSMDUMP_CONFIG", "x"), ("LS_COLORS", [255])]
    loadFrom library environment "hsmdump.json" () = .ok ⟨⟨2⟩, ⟨"hsmdump=info", true⟩⟩ ∧
      load library environment () = .ok ⟨⟨2⟩, ⟨"hsmdump=info", true⟩⟩ := by
  intro document tree library environment
  let file : Source := [("hsm", .table [("api_version", .array [])]), ("logging", .table [("json", .text "on")])]
  have lawful : library.Lawful tree.files := Library.standard_lawful (FileTree.rooted_ofList _)
  have located : locate tree "hsmdump.json" =
      .ok ("/tmp/work/hsmdump.json", .json, RawText.ofString document.document) := by decide +kernel
  have text : fileText (RawText.ofString document.document) = document.document := by decide +kernel
  have table : settingOf? 0 document.tree = some (.table file) := rfl
  have read : library.file "hsmdump.json" true () = .ok file := Library.standard_document located text table true ()
  have plain : ∀ entry ∈ file, Plain entry.1 := by
    simp only [file, List.forall_mem_cons, Plain]
    decide
  have tabled : ∀ field ∈ fields, Tabled field.table file := by
    refine forall_mem_fields.mpr ⟨fun below there => ?_, fun below there => ?_, fun below there => ?_⟩
    · cases there
      exact ⟨_, rfl⟩
    · cases there
      exact ⟨_, rfl⟩
    · cases there
      exact ⟨_, rfl⟩
  have unobstructed : Unobstructed library environment := ⟨by decide +kernel, by decide +kernel⟩
  have only : OnlyExtension tree.files defaultName "json" () :=
    onlyExtension_of_alone (by decide) (by decide) (by decide) (by decide +kernel)
  obtain ⟨named, default⟩ := loadFrom_fields lawful plain tabled unobstructed
  have settles : Settles library environment file ⟨⟨2⟩, ⟨"hsmdump=info", true⟩⟩ :=
    ⟨by decide +kernel, by decide +kernel, by decide +kernel⟩
  exact ⟨(named _ () read _).mpr settles, (default "json" () (by decide) (by decide) read only _).mpr settles⟩

/-- An index puts a list in place of the table, and the version is read from that list. A
variable of any key that is not text keeps all settings from being loaded. -/
theorem loadFrom_indexed :
    let document := Json.object [("hsm", .object [("api_version", .number 1)])]
    let tree := FileTree.ofList [("conf.json", RawText.ofString document.document)]
    let library : Library Unit LoadError := .standard tree
    let file : Source := [("hsm", .table [("api_version", .integer 1)])]
    let indexed : Environment := [("HSMDUMP_HSM[0]", "4")]
    let textless : Environment := [("HSMDUMP_OTHER", [255])]
    library.Lawful tree.files ∧ library.file "conf.json" true () = .ok file ∧ (∀ entry ∈ file, Plain entry.1) ∧
      library.key? "HSMDUMP_HSM[0]" = some "hsm[0]" ∧
      Field.version.settled? library indexed file = some (.integer 1) ∧
      loadFrom library indexed "conf.json" () = .ok ⟨⟨4⟩, .default⟩ ∧
      (∀ field ∈ fields, library.given? textless field.key = none) ∧
      loadFrom library textless "conf.json" () = .error (.notText ⟨"other"⟩) := by
  intro document tree library file indexed textless
  have located : locate tree "conf.json" =
      .ok ("/tmp/work/conf.json", .json, RawText.ofString document.document) := by decide +kernel
  have text : fileText (RawText.ofString document.document) = document.document := by decide +kernel
  have plain : ∀ entry ∈ file, Plain entry.1 := by
    simp only [file, List.forall_mem_cons, Plain]
    decide
  exact ⟨Library.standard_lawful (FileTree.rooted_ofList _), Library.standard_document located text rfl true (), plain,
    by decide +kernel, rfl, by decide +kernel, forall_mem_fields.mpr ⟨rfl, rfl, rfl⟩, by decide +kernel⟩

end Residency.Settings

/-!
## A filter from the environment

A variable that is the only one to lead to the logging settings decides their filter,
whatever a file holds (`loadFor_filter`). The filter is the text of the variable in the
spelling of what it looks like; `loadFrom_respelled` shows three texts that do not stay
as they were.
-/

namespace Residency.Settings

variable {σ ε : Type} {library : Library σ ε}

/-- The variables with one for the filter among them. -/
def withFilter (before : Environment) (text : String) (after : Environment) : Environment :=
  before ++ (RawText.ofString "HSMDUMP_LOGGING__FILTER", RawText.ofString text) :: after

/-! ### The variable for the filter -/

section
variable (names : library.ReadsVariables) {before after : Environment} (text : String)
include names

theorem key?_filter : library.key? (RawText.ofString "HSMDUMP_LOGGING__FILTER") = some Field.filter.key := by
  have named : environmentKey? "HSMDUMP_LOGGING__FILTER" = some Field.filter.key := by decide +kernel
  rw [names.key?_ascii (by decide), named]

theorem mem_withFilter {assignment : RawText × RawText} (listed : assignment ∈ withFilter before text after) :
    assignment ∈ before ++ after ∨ library.key? assignment.1 = some Field.filter.key := by
  obtain front | rfl | back := List.mem_append.mp listed |>.imp_right List.mem_cons.mp
  · exact .inl (List.mem_append_left _ front)
  · exact .inr (key?_filter names)
  · exact .inl (List.mem_append_right _ back)

theorem given?_withFilter {key : String} (other : Field.filter.key ≠ key) :
    library.given? (withFilter before text after) key = library.given? (before ++ after) key := by
  have skip : decide (library.key? (RawText.ofString "HSMDUMP_LOGGING__FILTER") = some key) = false := by
    rw [key?_filter names]
    simpa using other
  simp only [Library.given?, withFilter, List.find?_append, List.find?_cons, skip]

theorem setOnce_withFilter_iff {key : String} (other : Field.filter.key ≠ key) :
    library.SetOnce (withFilter before text after) key ↔ library.SetOnce (before ++ after) key := by
  have skip : decide (library.key? (RawText.ofString "HSMDUMP_LOGGING__FILTER") = some key) = false := by
    rw [key?_filter names]
    simpa using other
  simp only [Library.SetOnce, withFilter, List.filter_append, List.filter_cons, skip, Bool.false_eq_true, if_false]

variable (apart : Apart library (before ++ after) "logging")
include apart

omit names in
theorem others_withFilter {key : String} (leads : Leads "logging" key) :
    ∀ assignment ∈ before ++ after, library.key? assignment.1 ≠ some key :=
  fun assignment listed named => apart assignment listed key named leads

omit names in
theorem setOnce_withFilter {key : String} (leads : Leads "logging" key) :
    library.SetOnce (withFilter before text after) key := by
  have others := others_withFilter apart leads
  have front : before.filter (fun assignment => library.key? assignment.1 = some key) = [] :=
    List.filter_eq_nil_iff.mpr fun assignment listed => by simpa using others assignment (List.mem_append_left _ listed)
  have back : after.filter (fun assignment => library.key? assignment.1 = some key) = [] :=
    List.filter_eq_nil_iff.mpr fun assignment listed => by simpa using others assignment (List.mem_append_right _ listed)
  rw [Library.SetOnce, withFilter, List.filter_append, front, List.nil_append, List.filter_cons, back]
  split
  · simp
  · simp

theorem spared_withFilter {field : Field} (logging : field.table = "logging") (other : ¬ field.Obstructs Field.filter.key) :
    field.Spared library (withFilter before text after) := by
  refine ⟨setOnce_withFilter text apart (logging ▸ field.leads_key), ?_⟩
  intro assignment listed key named obstructs
  obtain beside | own := mem_withFilter names text listed
  · exact apart assignment beside key named (logging ▸ obstructs.leads)
  · rw [own] at named
    cases named
    exact other obstructs

theorem given?_filter : library.given? (withFilter before text after) Field.filter.key = some (environmentValue text) := by
  have others := others_withFilter apart Field.filter.leads_key
  have front : before.find? (fun assignment => library.key? assignment.1 = some Field.filter.key) = none :=
    List.find?_eq_none.mpr fun assignment listed => by simpa using others assignment (List.mem_append_left _ listed)
  have named := key?_filter names
  rw [Library.given?, withFilter, List.find?_append, front, Option.none_or, List.find?_cons_of_pos (by simpa using named),
    Option.bind_some, RawText.text?_ofString, Option.map_some]

theorem given?_json : library.given? (withFilter before text after) Field.json.key = none := by
  have none : (before ++ after).find? (fun assignment => library.key? assignment.1 = some Field.json.key) = none :=
    List.find?_eq_none.mpr fun assignment listed => by
      simpa using others_withFilter apart Field.json.leads_key assignment listed
  rw [given?_withFilter names text (by decide +kernel), Library.given?, none, Option.bind_none]

variable (layers : library.Layers) (converts : library.Converts) {file assigned : Source}
  {base merged : List (String × Setting)}
include layers converts

/-- The variable gives the filter, and the truth value stays that of the file. -/
theorem loggingOf_withFilter (leaves : library.Leaves (withFilter before text after) file assigned base merged)
    {logging : LoggingSettings} : loggingOf library merged = .ok logging ↔
      jsonOf library (Field.json.value? (.table base)) = .ok logging.json ∧ logging.filter = canonicalText text := by
  have filter := value?_leaves names layers leaves (simple_of_mem (show Field.filter ∈ fields by decide))
    (spared_withFilter names text apart rfl (by decide +kernel))
  have json := value?_leaves names layers leaves (simple_of_mem (show Field.json ∈ fields by decide))
    (spared_withFilter names text apart rfl (by decide +kernel))
  rw [given?_filter names text apart, Option.some_or] at filter
  rw [given?_json names text apart, Option.none_or] at json
  have same : filterOf library (some (environmentValue text)) = .ok (canonicalText text) :=
    toText_environmentValue converts text
  rw [loggingOf_eq_ok_iff converts (Field.tabled_of_value? filter), filter, json, same, Except.ok.injEq]
  exact ⟨fun ⟨written, kept⟩ => ⟨kept, written.symm⟩, fun ⟨kept, written⟩ => ⟨written.symm, kept⟩⟩

end

/-- What is accepted as logging settings has a truth value, or none. -/
theorem exists_json_of_loggingOf (converts : library.Converts) {entries : List (String × Setting)}
    {logging : LoggingSettings} (converted : loggingOf library entries = .ok logging) :
    ∃ json, jsonOf library (Field.json.value? (.table entries)) = .ok json := by
  have untabled : Field.json.value? (.table entries) = none →
      ∃ json, jsonOf library (Field.json.value? (.table entries)) = .ok json := by
    intro missing
    rw [missing]
    exact ⟨_, rfl⟩
  have value : Field.json.value? (.table entries) =
      (entries.lookup "logging").bind fun below => below.entries.lookup "json" := rfl
  cases there : entries.lookup "logging" with
  | none => exact untabled (by rw [value, there]; rfl)
  | some below =>
    cases below with
    | table inner =>
      have tabled : Tabled Field.filter.table entries := by
        intro below found
        rw [show entries.lookup Field.filter.table = entries.lookup "logging" from rfl, there] at found
        cases found
        exact ⟨inner, rfl⟩
      exact ⟨_, ((loggingOf_eq_ok_iff converts tabled).mp converted).2⟩
    | nil | bool | integer | real | text | array => exact untabled (by rw [value, there]; rfl)

/-- The half of the version does not see the variable for the filter. -/
theorem hostOf_withFilter (names : library.ReadsVariables) (layers : library.Layers) (converts : library.Converts)
    {before after : Environment} (text : String) {file assigned others : Source}
    {base merged rest : List (String × Setting)}
    (settled : Apart library (before ++ after) "hsm" ∨ Field.version.Spared library (before ++ after) ∧
      (library.given? (before ++ after) Field.version.key ≠ none ∨ Tabled "hsm" base))
    (leaves : library.Leaves (withFilter before text after) file assigned base merged)
    (without : library.Leaves (before ++ after) file others base rest) {host : HostSettings} :
    hostOf library merged = .ok host ↔ hostOf library rest = .ok host := by
  -- either no variable leads to the table, or those that do leave the field to one of them
  cases settled with
  | inl apart =>
    have still : Apart library (withFilter before text after) "hsm" := by
      intro assignment listed key named
      obtain beside | own := mem_withFilter names text listed
      · exact apart assignment beside key named
      · rw [own] at named
        cases named
        decide +kernel
    unfold hostOf
    rw [lookup_leaves names layers leaves (by decide) still, lookup_leaves names layers without (by decide) apart]
  | inr settled =>
    obtain ⟨spared, stands⟩ := settled
    have other : Field.filter.key ≠ Field.version.key := by decide +kernel
    have same : library.given? (withFilter before text after) Field.version.key = _ :=
      given?_withFilter names text other
    have still : Field.version.Spared library (withFilter before text after) := by
      refine ⟨(setOnce_withFilter_iff names text other).mpr spared.once, ?_⟩
      intro assignment listed key named
      obtain beside | own := mem_withFilter names text listed
      · exact spared.clear assignment beside key named
      · rw [own] at named
        cases named
        decide +kernel
    rw [hostOf_leaves names layers converts leaves still (by rw [same]; exact stands),
      hostOf_leaves names layers converts without spared stands, same]

/-- Where one variable alone leads to the logging settings and sets the filter, the
filter is its text as it is spelled for what it looks like, and stays as it was just if
it was spelled so. The other settings are those that would be loaded without it. -/
theorem loadFor_filter {files : Files σ} (lawful : library.Lawful files) (config : Option RawText) (world : σ)
    {before after : Environment} (text : String) (apart : Apart library (before ++ after) "logging") :
    let environment := withFilter before text after
    (∀ settings, loadFor library environment config world = .ok settings →
      settings.logging.filter = canonicalText text) ∧
    (∀ settings, loadFor library environment config world = .ok settings ↔
      ∃ file assigned base merged, library.sourceOf config world = .ok file ∧
        library.Leaves environment file assigned base merged ∧ hostOf library merged = .ok settings.hsm ∧
        jsonOf library (Field.json.value? (.table base)) = .ok settings.logging.json ∧
        settings.logging.filter = canonicalText text) ∧
    (Apart library (before ++ after) "hsm" ∨ Field.version.Spared library (before ++ after) ∧
        (library.given? (before ++ after) Field.version.key ≠ none ∨ ∀ file base,
          library.sourceOf config world = .ok file → library.layer (.table []) file = .table base → Tabled "hsm" base) →
      ∀ accepted, loadFor library (before ++ after) config world = .ok accepted →
        ∃ settings, loadFor library environment config world = .ok settings ∧ settings.hsm = accepted.hsm ∧
          settings.logging.filter = canonicalText text) ∧
    (canonicalText text = text ↔ Verbatim text) := by
  intro environment
  have names := lawful.toReadsVariables
  have layers := lawful.toLayers
  have converts := lawful.toConverts
  have exactly : ∀ settings, loadFor library environment config world = .ok settings ↔
      ∃ file assigned base merged, library.sourceOf config world = .ok file ∧
        library.Leaves environment file assigned base merged ∧ hostOf library merged = .ok settings.hsm ∧
        jsonOf library (Field.json.value? (.table base)) = .ok settings.logging.json ∧
        settings.logging.filter = canonicalText text := by
    intro settings
    rw [loadFor_eq_ok_iff layers converts]
    constructor
    · rintro ⟨file, assigned, base, merged, read, leaves, host, logging⟩
      exact ⟨file, assigned, base, merged, read, leaves, host,
        (loggingOf_withFilter names text apart layers converts leaves).mp logging⟩
    · rintro ⟨file, assigned, base, merged, read, leaves, host, logging⟩
      exact ⟨file, assigned, base, merged, read, leaves, host,
        (loggingOf_withFilter names text apart layers converts leaves).mpr logging⟩
  refine ⟨fun settings loaded => ?_, exactly, fun settled accepted loaded => ?_, canonicalText_eq_self_iff text⟩
  · obtain ⟨file, assigned, base, merged, -, -, -, -, written⟩ := (exactly settings).mp loaded
    exact written
  · obtain ⟨file, others, base, rest, read, without, host, logging⟩ := (loadFor_eq_ok_iff layers converts).mp loaded
    have textual : library.Textual environment := by
      have shown := names.reads.mp ⟨others, without.environment⟩
      intro assignment listed named
      obtain front | rfl | back := List.mem_append.mp listed |>.imp_right List.mem_cons.mp
      · exact shown assignment (List.mem_append_left _ front) named
      · simp
      · exact shown assignment (List.mem_append_right _ back) named
    obtain ⟨assigned, made⟩ := names.reads.mpr textual
    obtain ⟨merged, second⟩ := layers.total base assigned
    have leaves : library.Leaves environment file assigned base merged := ⟨made, without.first, second⟩
    have kept : rest.lookup "logging" = base.lookup "logging" := lookup_leaves names layers without (by decide) apart
    have unchanged : loggingOf library base = .ok accepted.logging := by
      rw [← logging, loggingOf, loggingOf, kept]
    obtain ⟨json, converted⟩ := exists_json_of_loggingOf converts unchanged
    have host := (hostOf_withFilter names layers converts text
      (settled.imp_right (And.imp_right (Or.imp_right fun tabled => tabled file base read without.first)))
      leaves without).mpr host
    exact ⟨⟨accepted.hsm, ⟨canonicalText text, json⟩⟩, (exactly _).mpr ⟨file, assigned, base, merged, read, leaves,
      host, converted, rfl⟩, rfl, rfl⟩

/-- The file gives the logging settings as a list. -/
theorem loadFor_filter_fraction :
    let document := Json.object [("logging", .array [.text "info", .text "on"])]
    let tree := FileTree.ofList [("hsmdump.json", RawText.ofString document.document)]
    let library : Library Unit LoadError := .standard tree
    let before : Environment := [("HSMDUMP_HSM__API_VERSION", "2")]
    let after : Environment := [("Hsmdump_Log", "no"), ("HSMDUMP_CONFIG", "x")]
    Apart library (before ++ after) "logging" ∧
      loadFor library (before ++ after) none () = .ok ⟨⟨2⟩, ⟨"info", true⟩⟩ ∧
      (∃ settings, loadFor library (withFilter before "-0.50" after) none () = .ok settings ∧ settings.hsm = ⟨2⟩ ∧
        settings.logging.filter = "-0.5") ∧
      ¬ Verbatim "-0.50" := by
  intro document tree library before after
  have lawful : library.Lawful tree.files := Library.standard_lawful (FileTree.rooted_ofList _)
  have apart : Apart library (before ++ after) "logging" := by decide +kernel
  have spared : Field.version.Spared library (before ++ after) := by decide +kernel
  have set : library.given? (before ++ after) Field.version.key = some (.integer 2) := rfl
  have accepted : loadFor library (before ++ after) none () = .ok ⟨⟨2⟩, ⟨"info", true⟩⟩ := by decide +kernel
  have spelled : canonicalText "-0.50" = "-0.5" := by decide +kernel
  obtain ⟨-, -, loads, verbatim⟩ := loadFor_filter lawful none () "-0.50" apart
  obtain ⟨settings, loaded, host, filter⟩ := loads (.inr ⟨spared, .inl (by simp [set])⟩) _ accepted
  refine ⟨apart, accepted, ⟨settings, loaded, host, filter.trans spelled⟩, fun same => ?_⟩
  have kept := verbatim.mpr same
  rw [spelled] at kept
  exact absurd kept (by decide)

/-- A truth value in capitals, an integer with a sign and zeros, and a number with an
exponent are loaded in another spelling. -/
theorem loadFrom_respelled :
    let tree := FileTree.ofList [("conf.json", "\x7b\x7d")]
    let library : Library Unit LoadError := .standard tree
    library.Lawful tree.files ∧
      ∀ pair ∈ [("TRUE", "true"), ("+007", "7"), ("1e3", "1000")],
        loadFrom library (withFilter [] pair.1 []) "conf.json" () = .ok ⟨.default, ⟨pair.2, false⟩⟩ ∧
          pair.2 ≠ pair.1 :=
  ⟨Library.standard_lawful (FileTree.rooted_ofList _), by decide +kernel⟩

end Residency.Settings
