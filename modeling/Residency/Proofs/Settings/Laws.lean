import Residency.Proofs.Bytes
import Residency.Proofs.Settings.Distinct
import Residency.Settings.Load
import Residency.Settings.Value

/-!
# Laws of a library of settings

What is relied on of a library, and what settings and variables then are.
-/

/-!
## What a library of settings is relied on for

Settings are read by a library that is a parameter. `Library.Lawful` lists what is used
of it: sources have each key once, variables spell keys and values, a source goes over
what was there key by key, and values convert. Nothing is used of keys that lead to the
same place, for which a library has no order. From the laws follows what settings are
made of: three fields in two tables (`loadFor_eq_ok_iff`).
-/

namespace Residency

/-! ### Places in a table -/

/-- Anything but a table. -/
def Setting.Leaf (setting : Setting) : Prop := ∀ entries, setting ≠ .table entries

namespace Settings

/-- A key that is a single name. -/
def Plain (key : String) : Prop := '.' ∉ key.toList ∧ '[' ∉ key.toList

/-- Letters, digits, underscores and hyphens. -/
def Named (text : String) : Prop := text ≠ "" ∧ ∀ c ∈ text.toList, isNameChar c = true

-- The characters of the text are what is gone through, not all that there are.
instance (text : String) : Decidable (Named text) :=
  @instDecidableAnd _ _ _ (List.decidableBAll (fun c : Char => isNameChar c = true) text.toList)

def Ascii (text : String) : Prop := ∀ c ∈ text.toList, c.toNat < 128

instance (text : String) : Decidable (Ascii text) := List.decidableBAll (fun c : Char => c.toNat < 128) text.toList

/-- Keys of an entry: its name, and its name with a path behind it. -/
inductive Leads (name : String) : String → Prop
  | whole : Leads name name
  | below (rest : String) : Leads name (name ++ "." ++ rest)
  | index (rest : String) : Leads name (name ++ "[" ++ rest)

theorem exists_append_iff {front key : String} :
    (∃ rest, key = front ++ rest) ↔ front.toList <+: key.toList := by
  constructor
  · rintro ⟨rest, rfl⟩
    rw [String.toList_append]
    exact List.prefix_append ..
  · rintro ⟨rest, whole⟩
    exact ⟨String.ofList rest, String.toList_injective (by rw [String.toList_append, String.toList_ofList, whole])⟩

theorem leads_iff {name key : String} : Leads name key ↔
    key = name ∨ (name ++ ".").toList <+: key.toList ∨ (name ++ "[").toList <+: key.toList := by
  rw [← exists_append_iff, ← exists_append_iff]
  constructor
  · rintro (_ | rest | rest)
    · exact .inl rfl
    · exact .inr (.inl ⟨rest, rfl⟩)
    · exact .inr (.inr ⟨rest, rfl⟩)
  · rintro (rfl | ⟨rest, rfl⟩ | ⟨rest, rfl⟩)
    · exact .whole
    · exact .below rest
    · exact .index rest

instance (name key : String) : Decidable (Leads name key) := decidable_of_iff' _ leads_iff

/-- What stands at a name is a table, if anything is. -/
def Tabled (name : String) (entries : List (String × Setting)) : Prop :=
  ∀ below, entries.lookup name = some below → ∃ inner, below = .table inner

/-- A field by the table it stands in and its name there. -/
structure Field where
  table : String
  name : String
deriving DecidableEq

namespace Field

def version : Field := ⟨"hsm", "api_version"⟩

def filter : Field := ⟨"logging", "filter"⟩

def json : Field := ⟨"logging", "json"⟩

/-- The key that sets a field alone. -/
def key (field : Field) : String := field.table ++ "." ++ field.name

/-- Both names need no quotes. -/
def Simple (field : Field) : Prop := Named field.table ∧ Named field.name

instance (field : Field) : Decidable field.Simple := inferInstanceAs (Decidable (_ ∧ _))

def value? (field : Field) (setting : Setting) : Option Setting :=
  (setting.entries.lookup field.table).bind fun below => below.entries.lookup field.name

/-- Keys that set the table of a field as a whole or by an index, or something inside the
field. -/
inductive Obstructs (field : Field) : String → Prop
  | whole : Obstructs field field.table
  | index (rest : String) : Obstructs field (field.table ++ "[" ++ rest)
  | below (rest : String) : Obstructs field (field.key ++ "." ++ rest)
  | inside (rest : String) : Obstructs field (field.key ++ "[" ++ rest)

theorem obstructs_iff {field : Field} {key : String} : field.Obstructs key ↔
    key = field.table ∨ (field.table ++ "[").toList <+: key.toList ∨
      (field.key ++ ".").toList <+: key.toList ∨ (field.key ++ "[").toList <+: key.toList := by
  rw [← exists_append_iff, ← exists_append_iff, ← exists_append_iff]
  constructor
  · rintro (_ | rest | rest | rest)
    · exact .inl rfl
    · exact .inr (.inl ⟨rest, rfl⟩)
    · exact .inr (.inr (.inl ⟨rest, rfl⟩))
    · exact .inr (.inr (.inr ⟨rest, rfl⟩))
  · rintro (rfl | ⟨rest, rfl⟩ | ⟨rest, rfl⟩ | ⟨rest, rfl⟩)
    · exact .whole
    · exact .index rest
    · exact .below rest
    · exact .inside rest

instance (field : Field) (key : String) : Decidable (field.Obstructs key) := decidable_of_iff' _ obstructs_iff

end Field

/-- The fields that settings are made of. -/
def fields : List Field := [.version, .filter, .json]

theorem forall_mem_fields {holds : Field → Prop} :
    (∀ field ∈ fields, holds field) ↔ holds .version ∧ holds .filter ∧ holds .json := by
  rw [fields, List.forall_mem_cons, List.forall_mem_cons, List.forall_mem_singleton]

theorem simple_of_mem {field : Field} (known : field ∈ fields) : field.Simple := by
  revert field
  decide +kernel

end Settings

open Settings

/-! ### Laws -/

section
variable {σ ε : Type} (library : Library σ ε)

/-- At most one variable sets the key. -/
def Library.SetOnce (environment : Environment) (key : String) : Prop :=
  (environment.filter fun assignment => library.key? assignment.1 = some key).length ≤ 1

/-- The value of the first variable that sets a key. -/
def Library.given? (environment : Environment) (key : String) : Option Setting :=
  (environment.find? fun assignment => library.key? assignment.1 = some key).bind fun assignment =>
    assignment.2.text?.map environmentValue

/-- A variable that sets a key has a text. -/
def Library.Textual (environment : Environment) : Prop :=
  ∀ assignment ∈ environment, library.key? assignment.1 ≠ none → assignment.2.text? ≠ none

instance (environment : Environment) (key : String) : Decidable (library.SetOnce environment key) :=
  inferInstanceAs (Decidable (_ ≤ _))

instance (environment : Environment) : Decidable (library.Textual environment) :=
  inferInstanceAs (Decidable (∀ assignment ∈ environment, library.key? assignment.1 ≠ none → assignment.2.text? ≠ none))

/-- Of all files that have a name with an extension or without one, only that of one
extension is there. -/
structure OnlyExtension {σ : Type} (files : Files σ) (name extension : RawText) (world : σ) : Prop where
  bare : files.isFile name world = false
  others : ∀ other, FileTree.slash ∉ other → other ≠ extension → files.isFile (name ++ FileTree.dot :: other) world = false

structure Library.ReadsFiles (files : Files σ) : Prop where
  keyed {path : RawText} {required : Bool} {world : σ} {source : Source} :
    library.file path required world = .ok source → Keyed Setting.Distinct source
  /-- A name stands for the only file that has it with an extension. -/
  extended {name extension : RawText} {world : σ} {source : Source} :
    name ≠ [] → FileTree.slash ∉ name → FileTree.dot ∉ name → FileTree.slash ∉ extension → FileTree.dot ∉ extension →
    library.file (name ++ FileTree.dot :: extension) true world = .ok source →
      OnlyExtension files name extension world → library.file name false world = .ok source

structure Library.ReadsVariables : Prop where
  /-- Names are lower-cased, cut at two underscores and looked up by their start. -/
  key?_ascii {name : String} : Ascii name → library.key? name = environmentKey? name
  /-- Variables that set nothing are not read. -/
  reads {environment : Environment} :
    (∃ source, library.environment environment = .ok source) ↔ library.Textual environment
  once {environment : Environment} {source : Source} :
    library.environment environment = .ok source → (source.map Prod.fst).Nodup
  known {environment : Environment} {source : Source} {entry : String × Setting} :
    library.environment environment = .ok source → entry ∈ source →
      ∃ assignment ∈ environment, library.key? assignment.1 = some entry.1 
  /-- Values are truth values in any letter case, else integers, else numbers, else texts. -/
  value {environment : Environment} {source : Source} {key : String} :
    library.environment environment = .ok source → library.SetOnce environment key →
      source.lookup key = library.given? environment key

structure Library.Layers : Prop where
  total (entries : List (String × Setting)) (source : Source) :
    ∃ after, library.layer (.table entries) source = .table after
  /-- Single names set over nothing stand as they are. -/
  plain {source : Source} {after : List (String × Setting)} :
    Keyed Setting.Distinct source → (∀ entry ∈ source, Plain entry.1) →
      library.layer (.table []) source = .table after → ∀ key, after.lookup key = source.lookup key
  /-- Where nothing else leads to a field, it has the value that is set, or else stays. -/
  field {entries after : List (String × Setting)} {source : Source} {field : Field} :
    field.Simple → (source.map Prod.fst).Nodup → (∀ entry ∈ source, ¬ field.Obstructs entry.1) →
      (∀ value, source.lookup field.key = some value → value.Leaf) →
        library.layer (.table entries) source = .table after →
          field.value? (.table after) = (source.lookup field.key).or (field.value? (.table entries))
  /-- A table stays one where nothing is set in its place or by an index of it. -/
  table {entries after : List (String × Setting)} {source : Source} {name : String} :
    Named name → (∀ entry ∈ source, entry.1 ≠ name ∧ ∀ rest, entry.1 ≠ name ++ "[" ++ rest) →
      library.layer (.table entries) source = .table after → Tabled name entries → Tabled name after
  beside {entries after : List (String × Setting)} {source : Source} {name : String} :
    Named name → (∀ entry ∈ source, ¬ Leads name entry.1) →
      library.layer (.table entries) source = .table after → after.lookup name = entries.lookup name

structure Library.Converts : Prop where
  named (entries : List (String × Setting)) : library.fields (.table entries) = .ok (.named entries)
  /-- A number of 32 bits is an integer in range, and no other integer is one. -/
  fits (n : UInt32) : library.toUInt32 (.integer n.toNat) = .ok n
  exact {n : Int} {number : UInt32} : library.toUInt32 (.integer n) = .ok number → (number.toNat : Int) = n
  truth (value : Bool) : library.toText (.bool value) = .ok (toString value)
  integer (n : Int) : library.toText (.integer n) = .ok (toString n)
  real (x : Binary64) : library.toText (.real x) = .ok x.text
  text (text : String) : library.toText (.text text) = .ok text

structure Library.Lawful (files : Files σ) : Prop extends
  library.ReadsFiles files, library.ReadsVariables, library.Layers, library.Converts

end

/-! ### Settings of a table -/

namespace Settings

variable {σ ε : Type} {library : Library σ ε}

section
variable (library) (entries : List (String × Setting))

def hostOf : Except ε HostSettings := fieldOr .default (HostSettings.ofSetting library) (entries.lookup "hsm")

def loggingOf : Except ε LoggingSettings := fieldOr .default (LoggingSettings.ofSetting library) (entries.lookup "logging")

def versionOf (value : Option Setting) : Except ε UInt32 :=
  fieldOr HostSettings.default.apiVersion library.toUInt32 value

def filterOf (value : Option Setting) : Except ε String := fieldOr LoggingSettings.default.filter library.toText value

def jsonOf (value : Option Setting) : Except ε Bool := fieldOr LoggingSettings.default.json library.toBool value

end

variable (converts : library.Converts)
include converts

theorem ofSetting_eq_ok_iff {entries : List (String × Setting)} {settings : Settings} :
    ofSetting library (.table entries) = .ok settings ↔
      hostOf library entries = .ok settings.hsm ∧ loggingOf library entries = .ok settings.logging := by
  have whole : ofSetting library (.table entries) =
      hostOf library entries >>= fun hsm => loggingOf library entries >>= fun logging => .ok ⟨hsm, logging⟩ := by
    unfold ofSetting
    rw [converts.named]
    rfl
  rw [whole, Except.bind_eq_ok_iff]
  constructor
  · rintro ⟨hsm, host, rest⟩
    obtain ⟨logging, kept, made⟩ := Except.bind_eq_ok_iff.mp rest
    cases made
    exact ⟨host, kept⟩
  · rintro ⟨host, kept⟩
    exact ⟨_, host, Except.bind_eq_ok_iff.mpr ⟨_, kept, rfl⟩⟩

theorem hostSettings_table (entries : List (String × Setting)) :
    HostSettings.ofSetting library (.table entries) =
      versionOf library (entries.lookup Field.version.name) >>= fun version => .ok ⟨version⟩ := by
  unfold HostSettings.ofSetting
  rw [converts.named]
  rfl

theorem loggingSettings_table (entries : List (String × Setting)) :
    LoggingSettings.ofSetting library (.table entries) =
      filterOf library (entries.lookup Field.filter.name) >>= fun filter =>
        jsonOf library (entries.lookup Field.json.name) >>= fun json => .ok ⟨filter, json⟩ := by
  unfold LoggingSettings.ofSetting
  rw [converts.named]
  rfl

theorem hostOf_eq_ok_iff {entries : List (String × Setting)} (tabled : Tabled Field.version.table entries)
    {host : HostSettings} : hostOf library entries = .ok host ↔
      versionOf library (Field.version.value? (.table entries)) = .ok host.apiVersion := by
  have read : hostOf library entries =
      versionOf library (Field.version.value? (.table entries)) >>= fun version => .ok ⟨version⟩ := by
    have table : entries.lookup Field.version.table = entries.lookup "hsm" := rfl
    rw [hostOf, Field.value?, Setting.entries, table]
    cases found : entries.lookup "hsm" with
    | none => rfl
    | some below =>
      obtain ⟨inner, rfl⟩ := tabled below found
      exact hostSettings_table converts inner
  rw [read, Except.bind_eq_ok_iff]
  constructor
  · rintro ⟨version, converted, made⟩
    cases made
    exact converted
  · intro converted
    exact ⟨_, converted, rfl⟩

theorem loggingOf_eq_ok_iff {entries : List (String × Setting)} (tabled : Tabled Field.filter.table entries)
    {logging : LoggingSettings} : loggingOf library entries = .ok logging ↔
      filterOf library (Field.filter.value? (.table entries)) = .ok logging.filter ∧
        jsonOf library (Field.json.value? (.table entries)) = .ok logging.json := by
  have read : loggingOf library entries =
      filterOf library (Field.filter.value? (.table entries)) >>= fun filter =>
        jsonOf library (Field.json.value? (.table entries)) >>= fun json => .ok ⟨filter, json⟩ := by
    have filter : entries.lookup Field.filter.table = entries.lookup "logging" := rfl
    have json : entries.lookup Field.json.table = entries.lookup "logging" := rfl
    rw [loggingOf, Field.value?, Field.value?, Setting.entries, filter, json]
    cases found : entries.lookup "logging" with
    | none => rfl
    | some below =>
      obtain ⟨inner, rfl⟩ := tabled below found
      exact loggingSettings_table converts inner
  rw [read, Except.bind_eq_ok_iff]
  constructor
  · rintro ⟨filter, first, rest⟩
    obtain ⟨json, second, made⟩ := Except.bind_eq_ok_iff.mp rest
    cases made
    exact ⟨first, second⟩
  · rintro ⟨first, second⟩
    exact ⟨_, first, Except.bind_eq_ok_iff.mpr ⟨_, second, rfl⟩⟩

end Settings

/-! ### Loading -/

section
variable {σ ε : Type} (library : Library σ ε)

/-- The source of the named file, or else of the default one, which may be missing. -/
def Library.sourceOf (config : Option RawText) (world : σ) : Except ε Source :=
  match config with
  | some path => library.file path true world
  | none => library.file defaultName false world

/-- The tables that the sources of a run leave, the file first and the variables over it. -/
structure Library.Leaves (environment : Environment) (file assigned : Source)
    (base after : List (String × Setting)) : Prop where
  environment : library.environment environment = .ok assigned
  first : library.layer (.table []) file = .table base
  second : library.layer (.table base) assigned = .table after

end

namespace Settings

variable {σ ε : Type} {library : Library σ ε} {environment : Environment} {config : Option RawText} {world : σ}
  {file assigned : Source} {settings : Settings}

theorem loadFor_eq : loadFor library environment config world =
    library.sourceOf config world >>= combine library environment := by
  cases config with
  | some path => rfl
  | none => rfl

theorem exists_leaves (layers : library.Layers) (file : Source) (read : library.environment environment = .ok assigned) :
    ∃ base after, library.Leaves environment file assigned base after := by
  obtain ⟨base, first⟩ := layers.total [] file
  obtain ⟨after, second⟩ := layers.total base assigned
  exact ⟨base, after, read, first, second⟩

theorem combine_eq_ok_iff (converts : library.Converts) {base after : List (String × Setting)}
    (leaves : library.Leaves environment file assigned base after) :
    combine library environment file = .ok settings ↔
      hostOf library after = .ok settings.hsm ∧ loggingOf library after = .ok settings.logging := by
  unfold combine
  rw [leaves.environment, ← ofSetting_eq_ok_iff converts, ← leaves.second, ← leaves.first]
  rfl

theorem loadFor_eq_ok_iff (layers : library.Layers) (converts : library.Converts) :
    loadFor library environment config world = .ok settings ↔
      ∃ file assigned base after, library.sourceOf config world = .ok file ∧
        library.Leaves environment file assigned base after ∧
        hostOf library after = .ok settings.hsm ∧ loggingOf library after = .ok settings.logging := by
  rw [loadFor_eq, Except.bind_eq_ok_iff]
  constructor
  · rintro ⟨file, read, combined⟩
    obtain ⟨assigned, named, -⟩ := Except.bind_eq_ok_iff.mp combined
    obtain ⟨base, after, leaves⟩ := exists_leaves layers file named
    exact ⟨file, assigned, base, after, read, leaves, (combine_eq_ok_iff converts leaves).mp combined⟩
  · rintro ⟨file, assigned, base, after, read, leaves, halves⟩
    exact ⟨file, read, (combine_eq_ok_iff converts leaves).mpr halves⟩

theorem validate_eq_ok_iff : settings.validate = .ok () ↔ settings.hsm.apiVersion = supportedApiVersion := by
  unfold validate
  split
  · next same => exact ⟨fun _ => same, fun _ => rfl⟩
  · next other =>
    refine ⟨fun accepted => ?_, fun same => absurd same other⟩
    cases accepted

/-! ### Fields -/

theorem Field.tabled_of_value? {field : Field} {entries : List (String × Setting)} {value : Setting}
    (there : field.value? (.table entries) = some value) : Tabled field.table entries := by
  intro below found
  rw [Field.value?, Setting.entries, found] at there
  cases below with
  | table inner => exact ⟨inner, rfl⟩
  | nil | bool | integer | real | text | array => cases there

theorem leaf_environmentValue (text : String) : (environmentValue text).Leaf := by
  intro entries
  unfold environmentValue
  split
  · exact nofun
  · split
    · exact nofun
    · split
      · exact nofun
      · exact nofun
      · exact nofun

theorem Library.leaf_given? {key : String} {value : Setting}
    (set : library.given? environment key = some value) : value.Leaf := by
  obtain ⟨assignment, -, read⟩ := Option.bind_eq_some_iff.mp set
  obtain ⟨text, -, rfl⟩ := Option.map_eq_some_iff.mp read
  exact leaf_environmentValue text

/-! ### What the variables leave -/

section
variable (library) (environment : Environment)

/-- No variable leads to a table or into it. -/
def Apart (name : String) : Prop := ∀ assignment ∈ environment, ∀ key ∈ library.key? assignment.1, ¬ Leads name key

instance (name : String) : Decidable (Apart library environment name) :=
  inferInstanceAs (Decidable (∀ assignment ∈ environment, ∀ key ∈ library.key? assignment.1, ¬ Leads name key))

/-- At most one variable sets the field, and none obstructs it. -/
structure Field.Spared (field : Field) : Prop where
  once : library.SetOnce environment field.key
  clear : ∀ assignment ∈ environment, ∀ key ∈ library.key? assignment.1, ¬ field.Obstructs key

instance (field : Field) : Decidable (field.Spared library environment) :=
  decidable_of_iff (library.SetOnce environment field.key ∧
      ∀ assignment ∈ environment, ∀ key ∈ library.key? assignment.1, ¬ field.Obstructs key)
    ⟨fun ⟨once, clear⟩ => ⟨once, clear⟩, fun spared => ⟨spared.once, spared.clear⟩⟩

end

theorem Field.Obstructs.leads {field : Field} {key : String} (obstructs : field.Obstructs key) : Leads field.table key := by
  cases obstructs with
  | whole => exact .whole
  | index rest => exact .index rest
  | below rest =>
    have whole : field.key ++ "." ++ rest = field.table ++ "." ++ (field.name ++ "." ++ rest) := by
      simp only [key, String.append_assoc]
    rw [whole]
    exact .below _
  | inside rest =>
    have whole : field.key ++ "[" ++ rest = field.table ++ "." ++ (field.name ++ "[" ++ rest) := by
      simp only [key, String.append_assoc]
    rw [whole]
    exact .below _

theorem Field.leads_key (field : Field) : Leads field.table field.key := .below field.name

section
variable {environment : Environment} {file assigned : Source} {base after : List (String × Setting)}
  (names : library.ReadsVariables) (layers : library.Layers) (converts : library.Converts)
  (leaves : library.Leaves environment file assigned base after) {field : Field}
include names layers leaves

theorem value?_leaves (simple : field.Simple) (spared : field.Spared library environment) :
    field.value? (.table after) = (library.given? environment field.key).or (field.value? (.table base)) := by
  have set := names.value leaves.environment spared.once
  rw [← set]
  refine layers.field simple (names.once leaves.environment) (fun entry there => ?_) (fun value there => ?_) leaves.second
  · obtain ⟨assignment, listed, named⟩ := names.known leaves.environment there
    exact spared.clear assignment listed entry.1 named
  · rw [set] at there
    exact Library.leaf_given? there

theorem tabled_leaves (simple : field.Simple) (spared : field.Spared library environment)
    (tabled : Tabled field.table base) : Tabled field.table after := by
  refine layers.table simple.1 (fun entry there => ?_) leaves.second tabled
  obtain ⟨assignment, listed, named⟩ := names.known leaves.environment there
  have free := spared.clear assignment listed entry.1 named
  refine ⟨fun whole => free ?_, fun rest index => free ?_⟩
  · rw [whole]
    exact .whole
  · rw [index]
    exact .index rest

theorem lookup_leaves {name : String} (named : Named name) (apart : Apart library environment name) :
    after.lookup name = base.lookup name := by
  refine layers.beside named (fun entry there => ?_) leaves.second
  obtain ⟨assignment, listed, named⟩ := names.known leaves.environment there
  exact apart assignment listed entry.1 named

include converts

theorem hostOf_leaves (spared : Field.version.Spared library environment)
    (stands : library.given? environment Field.version.key ≠ none ∨ Tabled Field.version.table base)
    {host : HostSettings} : hostOf library after = .ok host ↔
      versionOf library ((library.given? environment Field.version.key).or (Field.version.value? (.table base))) =
        .ok host.apiVersion := by
  have simple : Field.version.Simple := simple_of_mem (by decide)
  have there := value?_leaves names layers leaves simple spared
  have tabled : Tabled Field.version.table after := by
    cases stands with
    | inl set =>
      obtain ⟨value, set⟩ := Option.ne_none_iff_exists'.mp set
      rw [set, Option.some_or] at there
      exact Field.tabled_of_value? there
    | inr tabled => exact tabled_leaves names layers leaves simple spared tabled
  rw [hostOf_eq_ok_iff converts tabled, there]

end

end Settings

end Residency

/-!
## What variables say

The text of a variable counts as what it looks like: an integer is that integer
(`environmentValue_integer`). As a text again it is written as such a value is
(`toText_environmentValue`), which is how it was only if it was written so before
(`canonicalText_eq_self_iff`).
-/

namespace Residency

/-! ### Texts that look like a value -/

theorem Text.lowerForm_low {c : Char} (low : c.toNat < 65) : lowerForm c = [c] := by
  have kelvin : c ≠ '\u212A' := by
    rintro rfl
    exact absurd low (by decide)
  have dotted : c ≠ '\u0130' := by
    rintro rfl
    exact absurd low (by decide)
  have same : c.toLower = c := by
    apply Char.toNat_inj.mp
    rw [Hex.toNat_toLower, if_neg (by omega)]
  rw [lowerForm, if_neg kelvin, if_neg dotted, same]

theorem exists_cons_of_readNat? {text : List Char} {n : Nat} (read : readNat? text = some n) :
    ∃ first rest, text = first :: rest ∧ first.toNat < 65 := by
  unfold readNat? at read
  split at read
  · next digits =>
    match text with
    | [] => cases digits
    | first :: rest =>
      simp only [List.all_cons, Bool.and_eq_true, isDigit, decide_eq_true_eq] at digits
      exact ⟨first, rest, rfl, by omega⟩
  · cases read

theorem exists_cons_of_readInt? {text : List Char} {n : Int} (read : readInt? text = some n) :
    ∃ first rest, text = first :: rest ∧ first.toNat < 65 := by
  unfold readInt? at read
  split at read
  · exact ⟨_, _, rfl, by decide⟩
  · exact ⟨_, _, rfl, by decide⟩
  · obtain ⟨_, lifted, -⟩ := Option.map_eq_some_iff.mp read
    obtain ⟨_, digits, -⟩ := Option.bind_eq_some_iff.mp lifted
    exact exists_cons_of_readNat? digits

namespace Settings

theorem lower_ne_of_readInt64? {text : String} {n : Int} (read : readInt64? text.toList = some n) (value : Bool) :
    Text.lower text ≠ toString value := by
  obtain ⟨integer, -⟩ := Option.filter_eq_some_iff.mp read
  obtain ⟨first, rest, spelled, low⟩ := exists_cons_of_readInt? integer
  intro word
  have letters := congrArg String.toList word
  rw [Text.lower, String.toList_ofList, spelled, Text.lowerChars, List.flatMap_cons, Text.lowerForm_low low] at letters
  cases value with
  | true =>
    cases (List.cons.inj letters).1
    exact absurd low (by decide)
  | false =>
    cases (List.cons.inj letters).1
    exact absurd low (by decide)

theorem environmentValue_integer {text : String} {n : Int} (read : readInt64? text.toList = some n) :
    environmentValue text = .integer n := by
  have noTrue : Text.lower text ≠ "true" := lower_ne_of_readInt64? read true
  have noFalse : Text.lower text ≠ "false" := lower_ne_of_readInt64? read false
  rw [environmentValue, if_neg noTrue, if_neg noFalse, read]

/-- A text in the spelling of what it looks like: a truth value in any letter case, an
integer, a number, or nothing but itself. -/
def canonicalText (text : String) : String :=
  if Text.lower text = "true" then "true"
  else if Text.lower text = "false" then "false"
  else
    match readInt64? text.toList, Binary64.ofText? text.toList with
    | some n, _ => toString n
    | none, some x => x.text
    | none, none => text

theorem toText_environmentValue {σ ε : Type} {library : Library σ ε} (converts : library.Converts) (text : String) :
    library.toText (environmentValue text) = .ok (canonicalText text) := by
  unfold environmentValue canonicalText
  split
  · exact converts.truth true
  · split
    · exact converts.truth false
    · cases readInt64? text.toList with
      | some n => exact converts.integer n
      | none =>
        cases Binary64.ofText? text.toList with
        | some x => exact converts.real x
        | none => exact converts.text text

/-- What a text looks like is spelled as it is written. -/
structure Verbatim (text : String) : Prop where
  word : ∀ value : Bool, Text.lower text = toString value → text = toString value
  integer : ∀ n, readInt64? text.toList = some n → text = toString n
  real : ∀ x, readInt64? text.toList = none → Binary64.ofText? text.toList = some x → text = x.text

theorem canonicalText_word {text : String} {value : Bool} (word : Text.lower text = toString value) :
    canonicalText text = toString value := by
  unfold canonicalText
  rw [word]
  cases value with
  | true => rfl
  | false => rfl

theorem canonicalText_wordless {text : String} (wordless : ∀ value : Bool, Text.lower text ≠ toString value) :
    canonicalText text =
      match readInt64? text.toList, Binary64.ofText? text.toList with
      | some n, _ => toString n
      | none, some x => x.text
      | none, none => text := by
  have noTrue : Text.lower text ≠ "true" := wordless true
  have noFalse : Text.lower text ≠ "false" := wordless false
  rw [canonicalText, if_neg noTrue, if_neg noFalse]

theorem readInt64?_word (value : Bool) : readInt64? (toString value).toList = none := by
  cases value with
  | true => rfl
  | false => rfl

theorem ofText?_word (value : Bool) : Binary64.ofText? (toString value).toList = none := by
  cases value with
  | true => rfl
  | false => rfl

theorem canonicalText_eq_self_iff (text : String) : canonicalText text = text ↔ Verbatim text := by
  by_cases word : ∃ value : Bool, Text.lower text = toString value
  · obtain ⟨value, word⟩ := word
    rw [canonicalText_word word]
    constructor
    · rintro rfl
      refine ⟨fun other same => by rw [← word, ← same], fun n read => ?_, fun x _ read => ?_⟩
      · rw [readInt64?_word] at read
        cases read
      · rw [ofText?_word] at read
        cases read
    · exact fun verbatim => (verbatim.word value word).symm
  · have wordless : ∀ value : Bool, Text.lower text ≠ toString value := fun value same => word ⟨value, same⟩
    rw [canonicalText_wordless wordless]
    constructor
    · intro same
      refine ⟨fun value spelled => absurd spelled (wordless value), fun n read => ?_, fun x whole read => ?_⟩
      · rw [read] at same
        exact same.symm
      · rw [whole, read] at same
        exact same.symm
    · intro verbatim
      cases whole : readInt64? text.toList with
      | some n => exact (verbatim.integer n whole).symm
      | none =>
        cases real : Binary64.ofText? text.toList with
        | some x => exact (verbatim.real x whole real).symm
        | none => rfl

end Settings

end Residency
