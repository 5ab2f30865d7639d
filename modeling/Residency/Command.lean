import Residency.Attribute
import Residency.Bytes
import Residency.Context
import Residency.Json
import Residency.Session
import Residency.Settings.Load
import Residency.System
import Residency.Text
import Residency.Xfs

/-!
# The commands

Arguments, outcomes, and the two commands of the program.
-/

/-!
## Outcomes of a run

What a run prints and how it ends. A failure has a text and the causes below it,
outermost first. What is written to the standard error stream is not part of an
outcome, since lines of the log stand there as well; `Failure.text` is how a failure
ends it.
-/

namespace Residency

structure Failure where
  message : String
  causes : List String
deriving DecidableEq

namespace Failure

/-- A text whose later lines begin with some blanks. -/
def indentLines (indent : String) (text : String) : String :=
  ("\n" ++ indent).intercalate ((text.toList.splitOn '\n').map String.ofList)

/-- A cause with its number, which is five characters wide. -/
def numbered (number : Nat) (cause : String) : String :=
  let digits := toString number
  String.ofList (List.replicate (5 - digits.length) ' ') ++ digits ++ ": " ++ indentLines "       " cause

def causeLines : List String → List String
  | [cause] => ["    " ++ indentLines "    " cause]
  | causes => causes.zipIdx.map fun (cause, number) => numbered number cause

/-- A failure with its causes, numbered if there are several. -/
def text (failure : Failure) : String :=
  let causes :=
    if failure.causes.isEmpty then ""
    else "\n\nCaused by:\n" ++ "\n".intercalate (causeLines failure.causes)
  "Error: " ++ failure.message ++ causes ++ "\n"

end Failure

inductive Ending where
  | success
  /-- The arguments are no command. -/
  | misuse
  | failure (failure : Failure)
  | fault (fault : Fault)
deriving DecidableEq

/-- The exit status. -/
def Ending.status : Ending → UInt8
  | .success => 0
  | .failure _ => 1
  | .misuse => 2
  | .fault _ => 101

structure Outcome where
  stdout : String
  ending : Ending
deriving DecidableEq

def Outcome.status (outcome : Outcome) : UInt8 := outcome.ending.status

/-- The outcome of printing some documents before the run ends. -/
def Outcome.ofDocuments (documents : List Json) (ending : Ending) : Outcome :=
  ⟨String.join (documents.map Json.document), ending⟩

/-!
## Arguments of the program

Options have long names; their value follows behind an equals sign or as the next
argument, which must then not begin with a hyphen. Behind two hyphens nothing is
an option. Arguments are looked at in their order, and the first that is wrong
or asks for help or the version settles the run.
-/

structure DecodeOptions where
  hex : Option String
  file : Option RawText
  /-- Size of the file for which a replacement is shown. -/
  size : Option Int64
deriving DecidableEq

inductive Command where
  | decode (options : DecodeOptions)
  | check (mount : RawText) (paths : List RawText)
deriving DecidableEq

/-- What help is asked for. -/
inductive Topic where
  | program
  | decode
  | check
  | help
deriving DecidableEq

/-- Why no command is run. -/
inductive Detour where
  | help (topic : Topic)
  | version
  | misuse
deriving DecidableEq


namespace Command

inductive Argument where
  | option (name : String) (value : Option RawText)
  /-- What stands behind a single hyphen. -/
  | letters (letters : RawText)
  /-- Two hyphens alone. -/
  | separator
  | plain (raw : RawText)
deriving DecidableEq

/-- Options that have a value. -/
def valued : List String := ["config", "hex", "size"]

/-- The byte that options begin with. -/
def hyphen : UInt8 := 45

/-- The byte between an option and its value. -/
def equals : UInt8 := 61

/-- An argument can be the value of an option before it. -/
def isValue (argument : RawText) : Bool := argument.head? != some hyphen || argument.length == 1

/-- The name in front of an equals sign and the value behind it, if there is one. -/
def splitOption (raw : RawText) : String × Option RawText :=
  (RawText.shown (raw.takeWhile (· ≠ equals)),
    if raw.contains equals then some ((raw.dropWhile (· ≠ equals)).drop 1) else none)

def argumentsOf : List RawText → List Argument
  | [] => []
  | argument :: rest =>
    if argument = [hyphen, hyphen] then .separator :: rest.map .plain
    else if [hyphen, hyphen].isPrefixOf argument then
      match splitOption (argument.drop 2), rest with
      | (name, some value), rest => .option name (some value) :: argumentsOf rest
      | (name, none), [] => [.option name none]
      | (name, none), next :: rest =>
        if valued.contains name && isValue next then .option name (some next) :: argumentsOf rest
        else .option name none :: argumentsOf (next :: rest)
    else if isValue argument then .plain argument :: argumentsOf rest
    else .letters (argument.drop 1) :: argumentsOf rest

/-- Sets what may be set once. -/
def setOnce {α : Type} (old : Option α) (value : α) : Except Detour (Option α) :=
  if old.isSome then .error .misuse else .ok (some value)

/-- Sets a path, which may be set once and is not empty. -/
def setPath (old : Option RawText) (path : RawText) : Except Detour (Option RawText) :=
  if path = [] then .error .misuse else setOnce old path

/-- What asks for help, and everything that a command does not know. -/
def detour (topic : Topic) : Argument → Detour
  | .option "help" none => .help topic
  | .letters letters => if letters.head? = some 'h'.toUInt8 then .help topic else .misuse
  | _ => .misuse

def decodeStep (options : DecodeOptions) : Argument → Except Detour DecodeOptions
  | .option "hex" (some value) =>
    match value.text? with
    | some text => (setOnce options.hex text).map fun hex => { options with hex }
    | none => .error .misuse
  | .option "size" (some value) =>
    match options.size, value.text?.bind fun text => readInt64? text.toList with
    | none, some size => .ok { options with size := some (.ofInt size) }
    | _, _ => .error .misuse
  | .separator => .ok options
  | .plain path => (setPath options.file path).map fun file => { options with file }
  | argument => .error (detour .decode argument)

/-- A value comes as text or from a file, not both. -/
def decodeCommand (arguments : List Argument) : Except Detour Command := do
  let options ← arguments.foldlM decodeStep ⟨none, none, none⟩
  if options.hex.isSome && options.file.isSome then .error .misuse else .ok (.decode options)

def checkStep (paths : List RawText) : Argument → Except Detour (List RawText)
  | .separator => .ok paths
  | .plain path => if path = [] then .error .misuse else .ok (paths ++ [path])
  | argument => .error (detour .check argument)

def checkCommand (arguments : List Argument) : Except Detour Command := do
  match ← arguments.foldlM checkStep [] with
  | mount :: path :: paths => .ok (.check mount (path :: paths))
  | _ => .error .misuse

/-- The help that the names behind the command for help ask for. -/
def helpTopic : List Argument → Detour
  | [] => .help .program
  | [.plain name] =>
    match name.shown with
    | "decode" => .help .decode
    | "check" => .help .check
    | "help" => .help .help
    | _ => .misuse
  | _ => .misuse

def programStep : Argument → Detour
  | .option "version" none => .version
  | .letters letters =>
    if letters.head? = some 'V'.toUInt8 then .version else detour .program (.letters letters)
  | argument => detour .program argument

/-- The command of a name, read from the arguments behind it. -/
def readCommand (name : RawText) (rest : List Argument) : Except Detour Command :=
  match name.shown with
  | "decode" => decodeCommand rest
  | "check" => checkCommand rest
  | "help" => .error (helpTopic rest)
  | _ => .error .misuse

/-- Options of the program stand before the command. -/
def read (config : Option RawText) : List Argument → Except Detour (Option RawText × Command)
  | [] => .error .misuse
  | .option "config" (some value) :: rest => do
    let config ← setPath config value
    read config rest
  | .plain name :: rest => (readCommand name rest).map (config, ·)
  | argument :: _ => .error (programStep argument)

/-- The variable that names the settings file where no option does. -/
def configVariable : RawText := "HSMDUMP_CONFIG"

/-- The settings file and the command that some arguments ask for. -/
def ofArguments (environment : Environment) (arguments : List RawText) :
    Except Detour (Option RawText × Command) := do
  match ← read none (argumentsOf arguments) with
  | (some config, command) => .ok (some config, command)
  | (none, command) =>
    match environment.lookup configVariable with
    | some config => if config = [] then .error .misuse else .ok (some config, command)
    | none => .ok (none, command)

end Command

/-!
## Help and version
-/

def versionText : String := "hsmdump 0.1.0\n"

/-- The text of a topic, given the value of the variable for the settings file. -/
def Topic.text (config : String) : Topic → String
  | .program => "\n".intercalate [
      "Inspect how DMF dual-residency files are dumped",
      "",
      "Usage: hsmdump [OPTIONS] <COMMAND>",
      "",
      "Commands:",
      "  decode  Decode a raw SGI_DMI_DMFATTR value",
      "  check   Run the dump-time HSM calls against files on a mounted XFS filesystem",
      "  help    Print this message or the help of the given subcommand(s)",
      "",
      "Options:",
      s!"      --config <CONFIG>  Configuration file (defaults to ./hsmdump.* if present) [env: HSMDUMP_CONFIG={config}]",
      "  -h, --help             Print help",
      "  -V, --version          Print version",
      ""]
  | .decode => "\n".intercalate [
      "Decode a raw SGI_DMI_DMFATTR value",
      "",
      "Usage: hsmdump decode [OPTIONS] [FILE]",
      "",
      "Arguments:",
      "  [FILE]  File holding the raw value",
      "",
      "Options:",
      "      --hex <HEX>    Value as a hex string",
      "      --size <SIZE>  Also show the offline replacement for a file of this size",
      "  -h, --help         Print help",
      ""]
  | .check => "\n".intercalate [
      "Run the dump-time HSM calls against files on a mounted XFS filesystem",
      "",
      "Usage: hsmdump check <MOUNT> <PATHS>...",
      "",
      "Arguments:",
      "  <MOUNT>     Mount point of the filesystem",
      "  <PATHS>...  Files to check",
      "",
      "Options:",
      "  -h, --help  Print help",
      ""]
  | .help => "\n".intercalate [
      "Print this message or the help of the given subcommand(s)",
      "",
      "Usage: hsmdump help [COMMAND]...",
      "",
      "Arguments:",
      "  [COMMAND]...  Print help for the subcommand(s)",
      ""]

/-- A misuse prints nothing that is part of the program's answers. -/
def Detour.outcome (environment : Environment) : Detour → Outcome
  | .help topic => ⟨topic.text ((environment.lookup Command.configVariable).getD []).shown, .success⟩
  | .version => ⟨versionText, .success⟩
  | .misuse => ⟨"", .misuse⟩

/-!
## Decoding a value

Reads a value from hexadecimal text or from a file, and reports its view and, if
a size is given, the replacement for a file of that size.
-/

structure DecodeReport where
  length : Nat
  view : View
  replacement : Option View
deriving DecidableEq

namespace DecodeReport

def replacementJson (view : View) : Json := .object [("attribute", view.toJson), ("hex", .ofBytes view.encode)]

def toJson (report : DecodeReport) : Json :=
  .object ([("attribute", report.view.toJson), ("length", .number report.length)]
    ++ (report.replacement.map fun view => ("replacement", replacementJson view)).toList)

/-- The report on a value. -/
def ofValue (size : Option Int64) (raw : List UInt8) : Except LayoutError DecodeReport :=
  (View.decode raw).map fun view => ⟨raw.length, view, size.map view.offlineReplacement⟩

end DecodeReport

namespace DecodeOptions

variable {σ : Type} (files : Files σ) (options : DecodeOptions) (world : σ)

/-- The value to decode. Blanks around hexadecimal text are dropped. -/
def value : Except Failure (List UInt8) :=
  match options.hex, options.file with
  | some hex, _ =>
    (Hex.decode (String.ofList (Text.trim hex.toList)).toUTF8.toList).mapError fun error =>
      ⟨"Invalid hex value", [error.message]⟩
  | none, some path =>
    (files.contents path world).mapError fun error => ⟨s!"Failed to read {path.shown}", [error.message]⟩
  | none, none => .error ⟨"Either --hex or a file must be given", []⟩

def report : Except Failure DecodeReport := do
  let raw ← options.value files world
  (DecodeReport.ofValue options.size raw).mapError fun error => ⟨error.message, []⟩

def run : Outcome :=
  match options.report files world with
  | .ok report => .ofDocuments [report.toJson] .success
  | .error failure => .ofDocuments [] (.failure failure)

end DecodeOptions

/-!
## Checking files

Runs everything that a dump would ask about each file, in one context that is
reused for all of them. The first file whose record cannot be had ends the run, and
so does a fault on the way to a report or in writing it.
-/

/-- What a dump would do with one file. -/
structure CheckReport where
  path : RawText
  /-- The record before projection. -/
  stat : InodeStat
  classification : Classification
  spaceEstimate : Option Int64
  offsetEstimate : Option Int64
  /-- The event mask after projection. -/
  projectedMask : UInt32
  filter : Except ProjectionError AttributeFilter
  replacement : Option (List UInt8)
  extents : Except ProjectionError (List ExtentRecord)

namespace CheckReport

def classificationText : Classification → String
  | .candidate _ => "candidate"
  | .rejected reason => reason.message

def filterText : Except ProjectionError AttributeFilter → String
  | .ok filter => filter.word
  | .error error => error.message

def recordJson (record : ExtentRecord) : Json := .object [
  ("block", .number record.block.toInt),
  ("count", .number record.count.toInt),
  ("entries", .number record.entries.toInt),
  ("iflags", .number record.iflags.toInt),
  ("length", .number record.length.toInt),
  ("offset", .number record.offset.toInt),
  ("oflags", .number record.oflags.toInt)]

def extentsJson : Except ProjectionError (List ExtentRecord) → Json
  | .ok (header :: first :: _) => .object [("entries", .number header.entries.toInt), ("extent", recordJson first)]
  | .ok _ => .null
  | .error error => .text error.message

/-- The document of a report whose path has a text. -/
def jsonOf (report : CheckReport) (path : String) : Json := .object [
  ("classification", .text (classificationText report.classification)),
  ("dmevmask", .object [
    ("after", .number report.projectedMask.toNat),
    ("before", .number report.stat.dmevmask.toNat)]),
  ("dmf_attribute", .text (filterText report.filter)),
  ("extents", extentsJson report.extents),
  ("ino", .number report.stat.ino.toNat),
  ("offset_estimate", .ofOption (fun size => .number size.toInt) report.offsetEstimate),
  ("path", .text path),
  ("replacement", .ofOption .ofBytes report.replacement),
  ("size", .number report.stat.size.toInt),
  ("space_estimate", .ofOption (fun size => .number size.toInt) report.spaceEstimate)]

/-- Texts in a document are UTF-8, and a path need not be. -/
def toJson (report : CheckReport) : Checked Json :=
  match report.path.text? with
  | some path => .ok (report.jsonOf path)
  | none => .error .notUtf8

end CheckReport

/-- The reports of a run, what it printed of them, and how it ended. -/
structure CheckRun where
  reports : List CheckReport
  printed : List Json
  ending : Ending

def CheckRun.outcome (run : CheckRun) : Outcome := .ofDocuments run.printed run.ending

def Failure.ofXfs (failure : Xfs.Failure) : Failure := ⟨failure.message, failure.chain.drop 1⟩

/-- Extent map of a file in one extent, as a page of two slots. -/
def wholeMap (size : Int64) : List ExtentRecord := [.header 2 1, .extent 0 0 (basicBlocks size)]

namespace FileContext

variable {σ ε : Type}

/-- The report on one file, and the context as it leaves it. -/
def check (backend : Backend σ ε) (context : FileContext) (path : RawText) (stat : InodeStat) (world : σ) :
    (CheckReport × FileContext) × σ :=
  let ((classification, context), world) := context.classify backend stat world
  let (offset, world) := context.filesystem.estimateOffset backend stat 0 world
  let report : CheckReport := {
    path, stat, classification
    spaceEstimate := Filesystem.estimateSpace stat
    offsetEstimate := offset
    projectedMask := (context.projectMetadata stat).dmevmask
    filter := context.filterAttribute managedAttributeName (UInt32.ofNat context.rawAttribute.length) .root
    replacement := (context.newAttribute? 0 .root).map NewAttribute.value
    extents := context.projectExtents (wholeMap stat.size) }
  ((report, context), world)

end FileContext

namespace Check

variable {σ : Type} (host : Host σ)

/-- The record of the inode behind a path. -/
def statOf (path : RawText) (world : σ) : Except Failure InodeStat × σ :=
  match host.files.inode path world with
  | .error error => (.error ⟨s!"Failed to stat {path.shown}", [error.message]⟩, world)
  | .ok ino =>
    let (answer, world) := Xfs.bulkStat host.kernel ino world
    (answer.mapError .ofXfs, world)

/-- Checks paths one after the other, until one of them has no record or a fault
stops the run. -/
def runPaths (context : FileContext) : List RawText → σ → CheckRun × σ
  | [], world => (⟨[], [], .success⟩, world)
  | path :: rest, world =>
    match statOf host path world with
    | (.error failure, world) => (⟨[], [], .failure failure⟩, world)
    | (.ok stat, world) =>
      let ((report, context), machine) := context.check (Xfs.backend host.kernel) path stat (.running world)
      match machine.fault, report.toJson with
      | some fault, _ => (⟨[], [], .fault fault⟩, machine.world)
      | none, .error fault => (⟨[report], [], .fault fault⟩, machine.world)
      | none, .ok document =>
        let (run, world) := runPaths context rest machine.world
        (⟨report :: run.reports, document :: run.printed, run.ending⟩, world)

/-- The filesystem of a mount. -/
def mountOf (settings : Settings) (mount : RawText) (world : σ) : Except Failure Filesystem × σ :=
  match Xfs.openMount host.files mount world with
  | .error failure => (.error (.ofXfs failure), world)
  | .ok () =>
    let (answer, machine) := Filesystem.init (Xfs.backend host.kernel) mount settings.hsm.apiVersion (.running world)
    let failed (error : MountError Xfs.Failure) : Failure :=
      let causes :=
        match error with
        | .unsupportedApiVersion .. => []
        | .unresolved _ source => source.chain
      ⟨error.message Xfs.Failure.message, causes⟩
    (answer.mapError failed, machine.world)

def run (settings : Settings) (mount : RawText) (paths : List RawText) (world : σ) : CheckRun × σ :=
  match mountOf host settings mount world with
  | (.error failure, world) => (⟨[], [], .failure failure⟩, world)
  | (.ok filesystem, world) => runPaths host filesystem.allocate paths world

end Check

/-!
## Runs of the program

Arguments come first, then the settings and the version that they ask for, and
only then the command.
-/

variable {σ ε : Type}

def Settings.checked (library : Library σ ε) (environment : Environment) (config : Option RawText) (world : σ) :
    Except Failure Settings := do
  let settings ← (Settings.loadFor library environment config world).mapError fun error =>
    ⟨library.message error, []⟩
  settings.validate.mapError fun error => ⟨error.message, []⟩
  pure settings

namespace Command

def perform (host : Host σ) (settings : Settings) (command : Command) (world : σ) : Outcome × σ :=
  match command with
  | .decode options => (options.run host.files world, world)
  | .check mount paths =>
    let (run, world) := Check.run host settings mount paths world
    (run.outcome, world)

/-- A whole run on a host, with a library for its settings. -/
def run (library : Library σ ε) (host : Host σ) (environment : Environment) (arguments : List RawText) (world : σ) :
    Outcome × σ :=
  match ofArguments environment arguments with
  | .error detour => (detour.outcome environment, world)
  | .ok (config, command) =>
    match Settings.checked library environment config world with
    | .error failure => (.ofDocuments [] (.failure failure), world)
    | .ok settings => perform host settings command world

end Command

end Residency
