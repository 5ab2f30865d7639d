import Residency.Context
import Residency.Settings.Value
import Residency.System

/-!
# Settings of the program

The library that reads sources is a parameter of the settings made of them.
-/

/-!
## Libraries of settings

Files and variables are read, set over each other and converted by a library. Here
it is a parameter: the program goes on with what it answers. `Library.Lawful` says
what is relied on, and `Library.standard` is a library that runs.
-/

namespace Residency

/-- Keys of one source and their values, in no order. -/
abbrev Source := List (String × Setting)

/-- What has fields hands them over by name or by place. -/
inductive Fields where
  | named (entries : List (String × Setting))
  | placed (items : List Setting)

def Fields.get? (name : String) (place : Nat) : Fields → Option Setting
  | .named entries => entries.lookup name
  | .placed items => items[place]?

/-- A field that is missing has its default. -/
def fieldOr {m : Type → Type} [Pure m] {α β : Type} (default : α) (convert : β → m α) : Option β → m α
  | none => pure default
  | some value => convert value

structure Library (σ ε : Type) where
  /-- The source that a path means. If it is not required, there may be none. -/
  file : (path : RawText) → (required : Bool) → σ → Except ε Source
  /-- The key that a variable of some name sets. -/
  key? : RawText → Option String
  /-- The source that the variables make. -/
  environment : Environment → Except ε Source
  /-- A source set over what the sources before it left. -/
  layer : Setting → Source → Setting
  fields : Setting → Except ε Fields
  toUInt32 : Setting → Except ε UInt32
  toText : Setting → Except ε String
  toBool : Setting → Except ε Bool
  message : ε → String

/-!
## Settings of the program

Every setting has a default. Entries that no setting is named for say nothing. A
file gives settings first and the environment sets its own over them; the file of
the default name may be missing.
-/

structure HostSettings where
  /-- Version of the host interface that is asked for. -/
  apiVersion : UInt32
deriving DecidableEq

structure LoggingSettings where
  filter : String
  json : Bool
deriving DecidableEq

structure Settings where
  hsm : HostSettings
  logging : LoggingSettings
deriving DecidableEq

def HostSettings.default : HostSettings := ⟨supportedApiVersion⟩

def LoggingSettings.default : LoggingSettings := ⟨"hsmdump=info", false⟩

namespace Settings

def default : Settings := ⟨.default, .default⟩

/-- The settings ask for a version of the host interface that is not spoken. -/
structure UnsupportedVersion where
  requested : UInt32
deriving DecidableEq

def UnsupportedVersion.message (error : UnsupportedVersion) : String :=
  s!"hsm.api_version {error.requested.toNat} is not supported (expected {supportedApiVersion.toNat})"

def validate (settings : Settings) : Except UnsupportedVersion Unit :=
  if settings.hsm.apiVersion = supportedApiVersion then .ok () else .error ⟨settings.hsm.apiVersion⟩

end Settings

section
variable {σ ε : Type} (library : Library σ ε)

def HostSettings.ofSetting (setting : Setting) : Except ε HostSettings := do
  let fields ← library.fields setting
  let version ← fieldOr HostSettings.default.apiVersion library.toUInt32 (fields.get? "api_version" 0)
  pure ⟨version⟩

def LoggingSettings.ofSetting (setting : Setting) : Except ε LoggingSettings := do
  let fields ← library.fields setting
  let filter ← fieldOr LoggingSettings.default.filter library.toText (fields.get? "filter" 0)
  let json ← fieldOr LoggingSettings.default.json library.toBool (fields.get? "json" 1)
  pure ⟨filter, json⟩

namespace Settings

/-- The settings that a table spells, if each is of its kind. -/
def ofSetting (setting : Setting) : Except ε Settings := do
  let fields ← library.fields setting
  let hsm ← fieldOr .default (HostSettings.ofSetting library) (fields.get? "hsm" 0)
  let logging ← fieldOr .default (LoggingSettings.ofSetting library) (fields.get? "logging" 1)
  pure ⟨hsm, logging⟩

/-- Settings of a file and of the environment over it. -/
def combine (environment : Environment) (file : Source) : Except ε Settings := do
  let assigned ← library.environment environment
  ofSetting library (library.layer (library.layer (.table []) file) assigned)

/-- Settings of a named file and the environment. -/
def loadFrom (environment : Environment) (path : RawText) (world : σ) : Except ε Settings :=
  library.file path true world >>= combine library environment

def defaultName : RawText := "hsmdump"

/-- Settings of the file of the default name, if there is one, and the environment. -/
def load (environment : Environment) (world : σ) : Except ε Settings :=
  library.file defaultName false world >>= combine library environment

/-- The settings of a run: of the named file or of the default one. -/
def loadFor (environment : Environment) (config : Option RawText) (world : σ) : Except ε Settings :=
  match config with
  | some path => loadFrom library environment path world
  | none => load library environment world

end Settings

end

end Residency
