import Residency.Bytes
import Residency.Json
import Residency.Settings.Load
import Residency.Settings.Value
import Residency.System
import Residency.Toml.Document

/-!
# A library of settings that runs

Files in two formats and variables, read as they would be by the program.
-/

/-!
## Settings from JSON

As a source of settings a document may hold anything that JSON has, within
limits: texts are whole characters, numbers are in range, and containers are not
nested too deeply. Settings written out as JSON are read strictly instead: each
value has its own kind, and no setting is named twice.
-/

namespace Residency

/-- Most containers that may be open at once. -/
def Json.nestingLimit : Nat := 127

def Json.NumberValue.toSetting : NumberValue → Setting
  | .integer n => .integer n
  | .real x => .real x

namespace Settings

open Json (Tree)

mutual

/-- The setting that a tree spells inside so many containers. -/
def settingOf? (depth : Nat) : Tree → Option Setting
  | .null => some .nil
  | .bool value => some (.bool value)
  | .number number => number.value?.map Json.NumberValue.toSetting
  | .text value => value.map .text
  | .array items => if depth < Json.nestingLimit then (itemsOf? (depth + 1) items).map .array else none
  | .object members => if depth < Json.nestingLimit then (entriesOf? (depth + 1) members).map .table else none

def itemsOf? (depth : Nat) : List Tree → Option (List Setting)
  | [] => some []
  | item :: rest => do
    let item ← settingOf? depth item
    let rest ← itemsOf? depth rest
    pure (item :: rest)

/-- The last of the members of one name stays. -/
def entriesOf? (depth : Nat) : List (Option String × Tree) → Option (List (String × Setting))
  | [] => some []
  | member :: rest => do
    let (key, value) ← entryOf? depth member
    let rest ← entriesOf? depth rest
    pure (if (rest.lookup key).isSome then rest else (key, value) :: rest)

def entryOf? (depth : Nat) : Option String × Tree → Option (String × Setting)
  | (key, value) => do
    let key ← key
    let value ← settingOf? depth value
    pure (key, value)

end

/-- The table that a document spells. -/
def jsonEntries? (text : String) : Option (List (String × Setting)) :=
  match (Tree.ofText? text).bind (settingOf? 0) with
  | some (.table entries) => some entries
  | _ => none

/-- The value of a member that may be missing but not repeated. -/
def memberValue? (members : List (Option String × Tree)) (name : String) : Option (Option Tree) :=
  match members.filter fun member => member.1 = some name with
  | [] => some none
  | [member] => some (some member.2)
  | _ => none

/-- The values of some fields, in an object by name and in an array by place. -/
def fieldValues? (names : List String) : Tree → Option (List (Option Tree))
  | .object members => if members.all (·.1.isSome) then names.mapM (memberValue? members) else none
  | .array items =>
    if items.length ≤ names.length then some ((List.range names.length).map fun place => items[place]?) else none
  | _ => none

def treeUInt32? : Tree → Option UInt32
  | .number number =>
    match number.value? with
    | some (.integer n) => Setting.uint32? n
    | _ => none
  | _ => none

def treeBool? : Tree → Option Bool
  | .bool value => some value
  | _ => none

def treeText? : Tree → Option String
  | .text value => value
  | _ => none

def hostOfTree? (tree : Tree) : Option HostSettings := do
  match ← fieldValues? ["api_version"] tree with
  | [version] => (fieldOr HostSettings.default.apiVersion treeUInt32? version).map .mk
  | _ => none

def loggingOfTree? (tree : Tree) : Option LoggingSettings := do
  match ← fieldValues? ["filter", "json"] tree with
  | [filter, json] => do
    let filter ← fieldOr LoggingSettings.default.filter treeText? filter
    let json ← fieldOr LoggingSettings.default.json treeBool? json
    pure ⟨filter, json⟩
  | _ => none

def ofTree? (tree : Tree) : Option Settings := do
  match ← fieldValues? ["hsm", "logging"] tree with
  | [hsm, logging] => do
    let hsm ← fieldOr .default hostOfTree? hsm
    let logging ← fieldOr .default loggingOfTree? logging
    pure ⟨hsm, logging⟩
  | _ => none

/-- The settings that a text of JSON writes out. -/
def ofJson? (text : String) : Option Settings := (Tree.ofText? text).bind ofTree?

end Settings

end Residency

/-!
## A library of settings

A library that reads two formats of files. A file is found by its exact path, which
must then end in one of the known extensions, or by its path without the extension.
-/

namespace Residency.Settings

inductive Format where
  | toml
  | json
deriving DecidableEq

def Format.extension : Format → RawText
  | .toml => "toml"
  | .json => "json"

/-- In the order in which they are tried. -/
def formats : List Format := [.toml, .json]

def Format.read (format : Format) (text : String) : Option (List (String × Setting)) :=
  match format with
  | .toml => Toml.Document.ofText? text
  | .json => jsonEntries? text

inductive LoadError where
  | notFound (path : RawText)
  /-- The file's extension says no known format. -/
  | unknownFormat (path : RawText)
  | malformed (path : RawText)
  /-- A variable of the program is not text. -/
  | notText (error : NotText)
  /-- A value is not of its setting's kind. -/
  | mistyped
deriving DecidableEq

def LoadError.message : LoadError → String
  | .notFound path => s!"configuration file \"{path.shown}\" not found"
  | .unknownFormat path => s!"configuration file \"{path.shown}\" is not of a registered file format"
  | .malformed path => s!"malformed configuration file \"{path.shown}\""
  | .notText error => s!"variable for {error.key} is not text"
  | .mistyped => "invalid configuration value"

/-- A name before and behind its last point, unless it begins with that point. -/
def splitExtension (name : RawText) : RawText × Option RawText :=
  let reversed := name.reverse
  let extension := reversed.takeWhile (· ≠ FileTree.dot)
  let stem := reversed.drop (extension.length + 1)
  if stem.isEmpty then (name, none) else (stem.reverse, some extension.reverse)

def Format.ofName? (name : RawText) : Option Format :=
  (splitExtension name).2.bind fun extension => formats.find? fun format => format.extension = extension

/-- The last name of a path, with what leads there. -/
def lastName? (path : RawText) : Option (RawText × List RawText) :=
  match (path.splitOn FileTree.slash).reverse.dropWhile fun name => name = [] || name = FileTree.here with
  | [] => none
  | last :: above => if last = FileTree.parent then none else some (last, above.reverse)

/-- The path with an extension in place of that of its last name; what follows the
name is dropped. -/
def withExtension (path extension : RawText) : Option RawText :=
  (lastName? path).map fun (last, above) =>
    [FileTree.slash].intercalate (above ++ [(splitExtension last).1 ++ FileTree.dot :: extension])

/-- The path to which the formats give their extensions. Where the last name has
one already, it stays, because a placeholder behind it is replaced instead. -/
def withoutFormat (path : RawText) : RawText :=
  match (lastName? path).bind fun (last, _) => (splitExtension last).2 with
  | some _ => path ++ RawText.ofString ".dummy"
  | none => path

/-- The file that a path from the root means: its path, its format and its contents. -/
def locateAbsolute (tree : FileTree) (path : RawText) : Except LoadError (RawText × Format × List UInt8) :=
  match tree.plainFile? path with
  | some bytes =>
    match (lastName? path).bind fun (last, _) => Format.ofName? last with
    | some format => .ok (path, format, bytes)
    | none => .error (.unknownFormat path)
  | none =>
    let found := formats.findSome? fun format => do
      let path ← withExtension (withoutFormat path) format.extension
      let bytes ← tree.plainFile? path
      pure (path, format, bytes)
    match found with
    | some found => .ok found
    | none => .error (.notFound path)

/-- The file that a name means. It is looked up from the root, so the name of the
working directory counts for the length of the path. -/
def locate (tree : FileTree) (name : RawText) : Except LoadError (RawText × Format × List UInt8) :=
  match locateAbsolute tree (tree.absolute name) with
  | .error (.notFound _) => .error (.notFound name)
  | found => found

/-- Text of a file, without the byte order mark that it may begin with. -/
def fileText (bytes : List UInt8) : String :=
  let bytes := if bytes.take 3 = [0xEF, 0xBB, 0xBF] then bytes.drop 3 else bytes
  String.ofList (Utf8.decodeLossy bytes)

def readFile (file : RawText × Format × List UInt8) : Except LoadError (List (String × Setting)) :=
  match file.2.1.read (fileText file.2.2) with
  | some entries => .ok entries
  | none => .error (.malformed file.1)

/-- The source that a path means. -/
def fileSource (tree : FileTree) (path : RawText) (required : Bool) : Except LoadError (List (String × Setting)) :=
  match locate tree path with
  | .ok file => readFile file
  | .error error => if required then .error error else .ok []

def fieldsOf : Setting → Except LoadError Fields
  | .table entries => .ok (.named entries)
  | .array items => .ok (.placed items)
  | _ => .error .mistyped

/-- A value of a kind, or the error that it is not of that kind. -/
def typed {α : Type} (value : Option α) : Except LoadError α := value.elim (.error .mistyped) .ok

end Residency.Settings

namespace Residency

/-- The library over the files of a tree. -/
def Library.standard {σ : Type} (tree : FileTree) : Library σ Settings.LoadError where
  file path required _ := Settings.fileSource tree path required
  key? name := name.text?.bind Settings.environmentKey?
  environment assigned := (Settings.environmentSource assigned).mapError .notText
  layer := Settings.setAll
  fields := Settings.fieldsOf
  toUInt32 setting := Settings.typed setting.toUInt32?
  toText setting := Settings.typed setting.toText?
  toBool setting := Settings.typed setting.toBool?
  message := Settings.LoadError.message

end Residency
