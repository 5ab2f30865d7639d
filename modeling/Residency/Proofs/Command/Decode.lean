import Mathlib.Data.List.TakeWhile
import Residency.Command
import Residency.Proofs.Attribute.Rewriting
import Residency.Proofs.Attribute.Spelling
import Residency.Proofs.Bytes
import Residency.Proofs.Command.Report
import Residency.Proofs.Json
import Residency.Settings.Standard
import Residency.Xfs

/-!
# Runs of the decoding command

Arguments and their values, the two places a value is read from, and what a report
shows of it.
-/

/-!
## Spellings of options

The value of an option may stand behind an equals sign or in the next argument.
However the settings file is named, the command behind it is the same
(`ofArguments_decode`).
-/

namespace Residency

/-! ### Texts as arguments -/

theorem RawText.ofString_eq (text : String) : ofString text = text.toList.flatMap String.utf8EncodeChar := by
  have whole : text.toList.utf8Encode = text.toByteArray := String.utf8Encode_toList
  have bytes : ofString text = text.toByteArray.data.toList := rfl
  rw [bytes, ← whole, List.utf8Encode]
  simp

theorem eq_hyphen_of_head {c : Char} (first : (String.utf8EncodeChar c).head? = some Command.hyphen) : c = '-' := by
  have byte {n : Nat} (same : UInt8.ofNat n = Command.hyphen) : n % 256 = 45 := by
    have numbers := congrArg UInt8.toNat same
    rwa [UInt8.toNat_ofNat'] at numbers
  unfold String.utf8EncodeChar at first
  dsimp only at first
  split at first
  · next small =>
    have same := byte (Option.some.inj first)
    exact Char.toNat_inj.mp (show c.val.toNat = 45 by omega)
  · split at first
    · have same := byte (Option.some.inj first)
      omega
    · split at first
      · have same := byte (Option.some.inj first)
        omega
      · have same := byte (Option.some.inj first)
        omega

namespace Command

theorem isValue_ofString {text : String} (absent : '-' ∉ text.toList) : isValue (RawText.ofString text) = true := by
  have other : (RawText.ofString text).head? ≠ some hyphen := by
    rw [RawText.ofString_eq]
    match letters : text.toList with
    | [] => exact nofun
    | c :: rest =>
      rw [letters] at absent
      intro first
      have start : (String.utf8EncodeChar c).head? = some hyphen := by
        obtain ⟨byte, bytes, cons⟩ := List.exists_cons_of_ne_nil (String.utf8EncodeChar_ne_nil (c := c))
        rw [List.flatMap_cons, cons] at first
        rw [cons]
        exact first
      exact absent (eq_hyphen_of_head start ▸ .head rest)
  have differs : ((RawText.ofString text).head? != some hyphen) = true := bne_iff_ne.mpr other
  rw [isValue, differs, Bool.true_or]

/-! ### Single arguments -/

section
variable {name : RawText}

theorem splitOption_assigned (plain : equals ∉ name) (value : RawText) :
    splitOption (name ++ equals :: value) = (name.shown, some value) := by
  have other : ∀ byte ∈ name, decide (byte ≠ equals) = true := by
    intro byte there
    exact decide_eq_true fun same => plain (same ▸ there)
  have there : (name ++ equals :: value).contains equals = true := by simp
  have front : (name ++ equals :: value).takeWhile (· ≠ equals) = name := by
    rw [List.takeWhile_append_of_pos other, List.takeWhile_cons_of_neg (by simp), List.append_nil]
  have back : (name ++ equals :: value).dropWhile (· ≠ equals) = equals :: value := by
    rw [List.dropWhile_append_of_pos other, List.dropWhile_cons_of_neg (by simp)]
  rw [splitOption, if_pos there, front, back]
  rfl

theorem splitOption_plain (plain : equals ∉ name) : splitOption name = (name.shown, none) := by
  have other : ∀ byte ∈ name, decide (byte ≠ equals) = true := by
    intro byte there
    exact decide_eq_true fun same => plain (same ▸ there)
  have absent : ¬ name.contains equals = true := by simpa using plain
  have front : name.takeWhile (· ≠ equals) = name := List.takeWhile_eq_self_iff.mpr other
  rw [splitOption, if_neg absent, front]

theorem argumentsOf_assigned (plain : equals ∉ name) (value : RawText) (rest : List RawText) :
    argumentsOf ((hyphen :: hyphen :: (name ++ equals :: value)) :: rest) =
      .option name.shown (some value) :: argumentsOf rest := by
  have long : hyphen :: hyphen :: (name ++ equals :: value) ≠ [hyphen, hyphen] := by simp
  have start : [hyphen, hyphen].isPrefixOf (hyphen :: hyphen :: (name ++ equals :: value)) = true := by
    simp [List.isPrefixOf]
  rw [argumentsOf.eq_def]
  simp only [if_neg long, start, if_true, List.drop_succ_cons, List.drop_zero, splitOption_assigned plain]

theorem argumentsOf_apart (nonempty : name ≠ []) (plain : equals ∉ name) (known : valued.contains name.shown = true)
    {next : RawText} (value : isValue next = true) (rest : List RawText) :
    argumentsOf ((hyphen :: hyphen :: name) :: next :: rest) = .option name.shown (some next) :: argumentsOf rest := by
  have long : hyphen :: hyphen :: name ≠ [hyphen, hyphen] := by simpa using nonempty
  have start : [hyphen, hyphen].isPrefixOf (hyphen :: hyphen :: name) = true := by simp [List.isPrefixOf]
  rw [argumentsOf.eq_def]
  simp only [if_neg long, start, if_true, List.drop_succ_cons, List.drop_zero, splitOption_plain plain, known, value,
    Bool.and_self]

theorem argumentsOf_plain {argument : RawText} (value : isValue argument = true) (rest : List RawText) :
    argumentsOf (argument :: rest) = .plain argument :: argumentsOf rest := by
  have short : argument ≠ [hyphen, hyphen] := by
    rintro rfl
    exact absurd value (by decide)
  have start : ¬ [hyphen, hyphen].isPrefixOf argument = true := by
    intro front
    obtain ⟨rest, rfl⟩ := List.isPrefixOf_iff_prefix.mp front
    simp [isValue] at value
  rw [argumentsOf.eq_def]
  simp only [if_neg short, if_neg start, value, if_true]

end

/-! ### The settings file -/

/-- Arguments and an environment in which no settings file is named, or one is named
by the option or else by the variable. -/
inductive Selects (environment : Environment) : List RawText → Option RawText → Prop
  | absent (unset : environment.lookup configVariable = none) : Selects environment [] none
  | inherited {path : RawText} (set : environment.lookup configVariable = some path) (named : path ≠ []) :
    Selects environment [] (some path)
  | assigned {path : RawText} (named : path ≠ []) : Selects environment [RawText.ofString "--config=" ++ path] (some path)
  | apart {path : RawText} (value : isValue path = true) (named : path ≠ []) :
    Selects environment ["--config", path] (some path)

section
variable {environment : Environment} {front : List RawText} {config : Option RawText} {rest : List RawText}
  {command : Command}

theorem read_option {path : RawText} (named : path ≠ []) (rest : List Argument) :
    read none (.option "config" (some path) :: rest) = read (some path) rest := by
  have first : setPath none path = .ok (some path) := if_neg named
  rw [read, first]
  rfl

theorem read_decode (config : Option RawText) (accepted : decodeCommand (argumentsOf rest) = .ok command) :
    read config (argumentsOf (RawText.ofString "decode" :: rest)) = .ok (config, command) := by
  have plain : argumentsOf (RawText.ofString "decode" :: rest) = .plain "decode" :: argumentsOf rest :=
    argumentsOf_plain (by decide +kernel) rest
  have shown : RawText.shown "decode" = "decode" := by decide +kernel
  rw [plain, read, readCommand, shown]
  simp only [accepted]
  rfl

theorem ofArguments_decode (selects : Selects environment front config)
    (accepted : decodeCommand (argumentsOf rest) = .ok command) :
    ofArguments environment (front ++ RawText.ofString "decode" :: rest) = .ok (config, command) := by
  have shown : RawText.shown (RawText.ofString "config") = "config" := by decide +kernel
  unfold ofArguments
  cases selects with
  | absent unset =>
    rw [List.nil_append, read_decode none accepted]
    simp only [unset]
    rfl
  | inherited set named =>
    rw [List.nil_append, read_decode none accepted]
    simp only [set, bind, Except.bind, if_neg named]
  | @assigned path named =>
    have spelled : RawText.ofString "--config=" ++ path = hyphen :: hyphen :: (RawText.ofString "config" ++ equals :: path) := by
      have front : RawText.ofString "--config=" = hyphen :: hyphen :: (RawText.ofString "config" ++ [equals]) := by
        decide +kernel
      simp [front]
    rw [List.singleton_append, spelled, argumentsOf_assigned (by decide +kernel), shown, read_option named,
      read_decode (some path) accepted]
    rfl
  | @apart path value named =>
    have spelled : RawText.ofString "--config" = hyphen :: hyphen :: RawText.ofString "config" := by decide +kernel
    have option : argumentsOf ("--config" :: path :: RawText.ofString "decode" :: rest) =
        .option "config" (some path) :: argumentsOf (RawText.ofString "decode" :: rest) := by
      rw [spelled, argumentsOf_apart (by decide +kernel) (by decide +kernel) (by decide +kernel) value, shown]
    rw [List.cons_append, List.singleton_append, option, read_option named, read_decode (some path) accepted]
    rfl

/-- What a run does once its arguments ask for a decoding and its settings are accepted. -/
theorem run_decode {σ ε : Type} {library : Library σ ε} (host : Host σ) {settings : Settings} {options : DecodeOptions}
    {world : σ} (selects : Selects environment front config)
    (accepted : Settings.checked library environment config world = .ok settings)
    (asked : decodeCommand (argumentsOf rest) = .ok (.decode options)) :
    run library host environment (front ++ RawText.ofString "decode" :: rest) world = (options.run host.files world, world) := by
  unfold run
  rw [ofArguments_decode selects asked]
  simp only [accepted, perform]

end

end Command

/-!
## Runs of a decoding

What a decoding prints depends on the value and the size alone, not on how the
value is handed over (`DecodeOptions.run_eq`). The replacement that it prints is a
value whose decoding prints the same replacement (`run_decode_replayed`).
-/

/-! ### Arguments -/

namespace Command

/-- The arguments that give a size. -/
def sizeArguments : Option Int64 → List RawText
  | none => []
  | some size => [RawText.ofString ("--size=" ++ toString size.toInt)]

theorem argumentsOf_size (size : Option Int64) :
    argumentsOf (sizeArguments size) =
      (size.map fun size => .option "size" (some (RawText.ofString (toString size.toInt)))).toList := by
  cases size with
  | none => rfl
  | some size =>
    have front : RawText.ofString "--size=" = hyphen :: hyphen :: (RawText.ofString "size" ++ [equals]) := by
      decide +kernel
    have spelled : RawText.ofString ("--size=" ++ toString size.toInt) =
        hyphen :: hyphen :: (RawText.ofString "size" ++ equals :: RawText.ofString (toString size.toInt)) := by
      simp [RawText.ofString_append, front]
    have shown : RawText.shown (RawText.ofString "size") = "size" := by decide +kernel
    rw [sizeArguments, spelled, argumentsOf_assigned (by decide +kernel), shown]
    rfl

theorem foldlM_size (hex : Option String) (file : Option RawText) (size : Option Int64) :
    (argumentsOf (sizeArguments size)).foldlM decodeStep ⟨hex, file, none⟩ = .ok ⟨hex, file, size⟩ := by
  rw [argumentsOf_size]
  cases size with
  | none => rfl
  | some size =>
    have step : decodeStep ⟨hex, file, none⟩ (.option "size" (some (RawText.ofString (toString size.toInt)))) =
        .ok ⟨hex, file, some size⟩ := by
      simp only [decodeStep, RawText.text?_ofString, Option.bind_some, readInt64?_toString, Int64.ofInt_toInt]
    rw [Option.map_some, Option.toList_some, List.foldlM_cons, step]
    rfl

theorem decodeCommand_hex {text : String} (value : isValue (RawText.ofString text) = true) (size : Option Int64) :
    decodeCommand (argumentsOf ("--hex" :: RawText.ofString text :: sizeArguments size)) =
      .ok (.decode ⟨some text, none, size⟩) := by
  have spelled : RawText.ofString "--hex" = hyphen :: hyphen :: RawText.ofString "hex" := by decide +kernel
  have shown : RawText.shown (RawText.ofString "hex") = "hex" := by decide +kernel
  have first : decodeStep ⟨none, none, none⟩ (.option "hex" (some (RawText.ofString text))) =
      .ok ⟨some text, none, none⟩ := by
    simp only [decodeStep, RawText.text?_ofString]
    rfl
  rw [spelled, argumentsOf_apart (by decide +kernel) (by decide +kernel) (by decide +kernel) value, shown, decodeCommand,
    List.foldlM_cons, first]
  simp only [bind, Except.bind, foldlM_size]
  rfl

theorem decodeCommand_file {path : RawText} (value : isValue path = true) (named : path ≠ []) (size : Option Int64) :
    decodeCommand (argumentsOf (path :: sizeArguments size)) = .ok (.decode ⟨none, some path, size⟩) := by
  have first : decodeStep ⟨none, none, none⟩ (.plain path) = .ok ⟨none, some path, none⟩ := by
    simp only [decodeStep, setPath, if_neg named]
    rfl
  rw [argumentsOf_plain value, decodeCommand, List.foldlM_cons, first]
  simp only [bind, Except.bind, foldlM_size]
  rfl

end Command

theorem Hex.Spells.isValue {raw : List UInt8} {text : String} (spells : Spells raw text) :
    Command.isValue (RawText.ofString text) = true := by
  obtain ⟨before, digits, after, whole, spelled, front, back⟩ := spells
  have absent : '-' ∉ text.toList := by
    rw [whole, List.mem_append, List.mem_append]
    rintro ((there | there) | there)
    · exact absurd (front _ there) (by decide)
    · obtain ⟨n, small, digit⟩ := mem_encodeChars (spelled ▸ List.mem_map_of_mem there)
      have place := toNat_spelled small digit
      have hyphen : '-'.toNat = 45 := rfl
      omega
    · exact absurd (back _ there) (by decide)
  exact Command.isValue_ofString absent

/-! ### Reports -/

/-- How a decoding of a value ends. -/
def DecodeReport.outcome (size : Option Int64) (raw : List UInt8) : Outcome :=
  match View.decode raw with
  | .ok view => .ofDocuments [(DecodeReport.mk raw.length view (size.map view.offlineReplacement)).toJson] .success
  | .error error => .ofDocuments [] (.failure ⟨error.message, []⟩)

theorem DecodeOptions.run_eq {σ : Type} {files : Files σ} {options : DecodeOptions} {world : σ} {raw : List UInt8}
    (read : options.value files world = .ok raw) :
    options.run files world = DecodeReport.outcome options.size raw := by
  unfold DecodeOptions.run DecodeOptions.report DecodeReport.outcome DecodeReport.ofValue
  rw [read]
  cases decoded : View.decode raw with
  | ok view =>
    simp only [bind, Except.bind, decoded]
    rfl
  | error error =>
    simp only [bind, Except.bind, decoded]
    rfl

theorem DecodeReport.outcome_ok {raw : List UInt8} {view : View} (decoded : View.decode raw = .ok view)
    (size : Option Int64) :
    outcome size raw = ⟨(mk raw.length view (size.map view.offlineReplacement)).toJson.document, .success⟩ := by
  rw [outcome, decoded]
  simp [Outcome.ofDocuments, String.join]

theorem DecodeReport.outcome_error {raw : List UInt8} {error : LayoutError} (decoded : View.decode raw = .error error)
    (size : Option Int64) : outcome size raw = ⟨"", .failure ⟨error.message, []⟩⟩ := by
  rw [outcome, decoded]
  rfl

theorem DecodeReport.at?_toJson (report : DecodeReport) :
    report.toJson.at? ["attribute"] = some report.view.toJson ∧
      report.toJson.at? ["length"] = some (.number report.length) ∧
      report.toJson.at? ["replacement"] = report.replacement.map replacementJson := by
  obtain ⟨length, view, replacement⟩ := report
  cases replacement with
  | none => simp [toJson, Json.at?, List.lookup_cons]
  | some other => simp [toJson, Json.at?, List.lookup_cons]

/-! ### Runs -/

section
variable {σ ε : Type} {library : Library σ ε} (host : Host σ) {environment : Environment} {front : List RawText}
  {config : Option RawText} {settings : Settings} {world : σ} (selects : Command.Selects environment front config)
  (accepted : Settings.checked library environment config world = .ok settings) {raw : List UInt8} (size : Option Int64)

include selects accepted

theorem run_decode_hex {text : String} (spells : Hex.Spells raw text) :
    Command.run library host environment
        (front ++ RawText.ofString "decode" :: "--hex" :: RawText.ofString text :: Command.sizeArguments size) world =
      (DecodeReport.outcome size raw, world) := by
  have value : DecodeOptions.value host.files ⟨some text, none, size⟩ world = .ok raw := by
    simp only [DecodeOptions.value, spells.decode]
    rfl
  rw [Command.run_decode host selects accepted (Command.decodeCommand_hex spells.isValue size),
    DecodeOptions.run_eq value]

theorem run_decode_file {path : RawText} (value : Command.isValue path = true) (named : path ≠ [])
    (held : host.files.contents path world = .ok raw) :
    Command.run library host environment (front ++ RawText.ofString "decode" :: path :: Command.sizeArguments size)
      world = (DecodeReport.outcome size raw, world) := by
  have value? : DecodeOptions.value host.files ⟨none, some path, size⟩ world = .ok raw := by
    simp only [DecodeOptions.value, held]
    rfl
  rw [Command.run_decode host selects accepted (Command.decodeCommand_file value named size),
    DecodeOptions.run_eq value?]

end

/-- Hexadecimal texts and files that hold one value are decoded with one outcome. What is
printed is read back as a report, whose replacement, decoded in turn, is reported with
itself as its replacement. -/
theorem run_decode_replayed {σ ε : Type} {library : Library σ ε} (host : Host σ) {environment : Environment}
    {front : List RawText} {config : Option RawText} {settings : Settings} {world : σ}
    (selects : Command.Selects environment front config)
    (accepted : Settings.checked library environment config world = .ok settings) (raw : List UInt8) (size : Int64) :
    let sized := [RawText.ofString ("--size=" ++ toString size.toInt)]
    let run arguments :=
      (Command.run library host environment (front ++ RawText.ofString "decode" :: (arguments ++ sized)) world).1
    ∃ outcome : Outcome,
      (∀ text, Hex.Spells raw text → run ["--hex", RawText.ofString text] = outcome) ∧
      (∀ path, Command.isValue path = true → path ≠ [] → host.files.contents path world = .ok raw →
        run [path] = outcome) ∧
      (outcome.status = 0 ↔ ∃ view, View.decode raw = .ok view) ∧
      (outcome.status ≠ 0 → outcome.stdout = "") ∧
      ∀ view, View.decode raw = .ok view →
        let replacement := view.offlineReplacement size
        let hex := Hex.encode replacement.encode
        let again := run ["--hex", RawText.ofString hex]
        ∃ (first second : Json) (length : Nat),
          outcome = ⟨first.document, .success⟩ ∧
          Json.Tree.ofText? outcome.stdout = some first.tree ∧
          first.at? ["attribute"] = some view.toJson ∧
          first.at? ["length"] = some (.number raw.length) ∧
          first.at? ["replacement"] = some (.object [("attribute", replacement.toJson), ("hex", .text hex)]) ∧
          again = ⟨second.document, .success⟩ ∧
          Json.Tree.ofText? again.stdout = some second.tree ∧
          second.at? ["attribute"] = some replacement.toJson ∧
          second.at? ["replacement"] = first.at? ["replacement"] ∧
          second.at? ["length"] = some (.number length) ∧
          hex.length = 2 * length := by
  intro sized run
  have hexadecimal : ∀ {raw : List UInt8} (text : String), Hex.Spells raw text →
      run ["--hex", RawText.ofString text] = DecodeReport.outcome (some size) raw := fun text spells =>
    congrArg Prod.fst (run_decode_hex host selects accepted (some size) spells)
  have file : ∀ path, Command.isValue path = true → path ≠ [] → host.files.contents path world = .ok raw →
      run [path] = DecodeReport.outcome (some size) raw := fun path value named held =>
    congrArg Prod.fst (run_decode_file host selects accepted (some size) value named held)
  refine ⟨DecodeReport.outcome (some size) raw, hexadecimal, file, ?_⟩
  cases decoded : View.decode raw with
  | error error =>
    rw [DecodeReport.outcome_error decoded]
    refine ⟨⟨fun succeeded => ?_, fun accepted => ?_⟩, fun _ => rfl, fun view read => ?_⟩
    · exact absurd (show (1 : UInt8) = 0 from succeeded) (by decide)
    · obtain ⟨view, read⟩ := accepted
      cases read
    · cases read
  | ok view =>
    rw [DecodeReport.outcome_ok decoded]
    refine ⟨⟨fun _ => ⟨view, rfl⟩, fun _ => rfl⟩, fun failed => absurd rfl failed, ?_⟩
    rintro _ ⟨⟩ replacement hex again
    have twice : View.decode replacement.encode = .ok replacement :=
      View.decode_encode_offlineReplacement decoded size
    have same : replacement.offlineReplacement size = replacement := View.offlineReplacement_twice view size size
    have repeated : again = ⟨_, .success⟩ :=
      (hexadecimal hex (Hex.spells_encode _)).trans (DecodeReport.outcome_ok twice (some size))
    rw [Option.map_some, same] at repeated
    obtain ⟨shown, length, other⟩ := DecodeReport.at?_toJson ⟨raw.length, view, some replacement⟩
    obtain ⟨shown', length', other'⟩ :=
      DecodeReport.at?_toJson ⟨replacement.encode.length, replacement, some replacement⟩
    refine ⟨_, _, replacement.encode.length, rfl, Json.ofText?_document _, shown, length, other, repeated, ?_, shown',
      other'.trans other.symm, length', Hex.length_encode _⟩
    rw [repeated]
    exact Json.ofText?_document _

/-- A tagged value of two regions. -/
def taggedValue : List UInt8 := [1, 1, 0, 2] ++ zeros 18 ++ [0, 0, 0, 171, 0, 2] ++ zeros 40

def taggedFiles : FileTree := .ofList [("value", taggedValue)]

/-- The value in a file, and in capitals between blanks. -/
theorem run_decode_replayed_tagged :
    let text := String.ofList ([' '] ++ (Hex.encodeChars taggedValue).map Char.toUpper ++ ['\n'])
    let library : Library Xfs.Script Settings.LoadError := .standard taggedFiles
    let host : Host Xfs.Script := ⟨Xfs.Script.kernel, taggedFiles.files⟩
    let run (arguments : List RawText) :=
      (Command.run library host [] (RawText.ofString "decode" :: (arguments ++ [RawText.ofString "--size=-1"])) .empty).1
    Settings.checked library [] none .empty = .ok .default ∧
      run ["--hex", RawText.ofString text] = run ["value"] ∧
      ∃ (first second : Json) (hex : String) (length : Nat),
        Json.Tree.ofText? (run ["value"]).stdout = some first.tree ∧
        Json.Tree.ofText? (run ["--hex", RawText.ofString hex]).stdout = some second.tree ∧
        second.at? ["replacement"] = first.at? ["replacement"] ∧ second.at? ["length"] = some (.number length) ∧
        hex.length = 2 * length := by
  intro text library host run
  have accepted : Settings.checked library [] none .empty = .ok .default := by decide +kernel
  obtain ⟨outcome, hexadecimal, file, -, -, replayed⟩ :=
    run_decode_replayed host (.absent rfl) accepted taggedValue (-1)
  have spells : Hex.Spells taggedValue text := by
    refine ⟨[' '], (Hex.encodeChars taggedValue).map Char.toUpper, ['\n'], ?_, ?_, ?_, ?_⟩
    · exact String.toList_ofList
    · decide +kernel
    · exact List.forall_mem_singleton.mpr (by decide)
    · exact List.forall_mem_singleton.mpr (by decide)
  have held : host.files.contents "value" .empty = .ok taggedValue := by decide +kernel
  have value : run ["value"] = outcome := file "value" (by decide +kernel) (by decide +kernel) held
  obtain ⟨view, decoded⟩ : ∃ view, View.decode taggedValue = .ok view := ⟨_, rfl⟩
  obtain ⟨first, second, length, -, printed, -, -, -, -, again, -, same, half, digits⟩ := replayed view decoded
  rw [← value] at printed
  exact ⟨accepted, (hexadecimal text spells).trans value.symm, first, second, _, length, printed, again, same, half,
    digits⟩

/-!
## What a decoding shows of a value

Different views are shown as different values (`View.toJson_inj`). So a report shows
the length of what was decoded, and of its bytes all that the view is read from
(`run_decode_faithful`).
-/

/-! ### Views -/

section
open Json

theorem Header.eq_of_shown {a b : Header} (fsys : a.fsys.toNat = b.fsys.toNat)
    (version : a.version.toNat = b.version.toNat) (state : a.state.toNat = b.state.toNat)
    (flags : a.flags.toNat = b.flags.toNat) (bfid : Hex.encode a.bfid.toList = Hex.encode b.bfid.toList) : a = b := by
  cases a
  cases b
  congr
  · exact UInt8.toNat_inj.mp fsys
  · exact UInt8.toNat_inj.mp version
  · exact UInt16.toNat_inj.mp state
  · exact UInt16.toNat_inj.mp flags
  · exact FixedBytes.ext (Hex.encode_inj bfid)

theorem Header.toJson_inj {a b : Header} (same : a.toJson.Same b.toJson) : a = b := by
  apply eq_of_shown
  · exact same.number_inj "fsys" rfl rfl
  · exact same.number_inj "version" rfl rfl
  · exact same.number_inj "state" rfl rfl
  · exact same.number_inj "flags" rfl rfl
  · exact same.text_inj "bfid" rfl rfl

theorem MultiRegionHeader.toJson_inj {a b : MultiRegionHeader} (same : a.toJson.Same b.toJson) : a = b := by
  have header : a.header = b.header := by
    apply Header.eq_of_shown
    · exact same.number_inj "fsys" rfl rfl
    · exact same.number_inj "version" rfl rfl
    · exact same.number_inj "state" rfl rfl
    · exact same.number_inj "flags" rfl rfl
    · exact same.text_inj "bfid" rfl rfl
  have siteTag : a.siteTag = b.siteTag := UInt32.toNat_inj.mp (same.number_inj "site_tag" rfl rfl)
  have regionCount : a.regionCount = b.regionCount := UInt16.toNat_inj.mp (same.number_inj "region_count" rfl rfl)
  cases a
  cases b
  congr

theorem Region.toJson_inj {a b : Region} (same : a.toJson.Same b.toJson) : a = b := by
  have offset : a.offset = b.offset := UInt64.toNat_inj.mp (same.number_inj "offset" rfl rfl)
  have size : a.size = b.size := UInt64.toNat_inj.mp (same.number_inj "size" rfl rfl)
  have state : a.state = b.state := UInt16.toNat_inj.mp (same.number_inj "state" rfl rfl)
  have eventFlags : a.eventFlags = b.eventFlags := UInt8.toNat_inj.mp (same.number_inj "event_flags" rfl rfl)
  have flagBits : a.flagBits = b.flagBits := UInt8.toNat_inj.mp (same.number_inj "flag_bits" rfl rfl)
  cases a
  cases b
  congr

theorem View.toJson_inj {a b : View} (same : a.toJson.Same b.toJson) : a = b := by
  cases a with
  | format0 first =>
    cases b with
    | format0 second => rw [Header.toJson_inj same]
    | format1 second regions =>
      have format : "0" = "1" := same.text_inj "format" rfl rfl
      exact absurd format (by decide)
  | format1 first regions =>
    cases b with
    | format0 second =>
      have format : "1" = "0" := same.text_inj "format" rfl rfl
      exact absurd format (by decide)
    | format1 second others =>
      have header : first = second := MultiRegionHeader.toJson_inj (same.member "header" rfl rfl)
      have listed : regions = others := Same.map_inj Region.toJson_inj (same.member "regions" rfl rfl)
      rw [header, listed]

end

/-! ### Reports -/

theorem DecodeReport.same_iff {n m : Nat} {a b : View} :
    (mk n a none).toJson.Same (mk m b none).toJson ↔ n = m ∧ a = b := by
  constructor
  · intro same
    exact ⟨same.number_inj "length" rfl rfl, View.toJson_inj (same.member "attribute" rfl rfl)⟩
  · rintro ⟨rfl, rfl⟩
    exact .refl _

theorem View.eq_iff_of_decode {a b : List UInt8} {x y : View} (first : decode a = .ok x) (second : decode b = .ok y)
    (length : a.length = b.length) : x = y ↔ a.take x.encodedLength = b.take x.encodedLength := by
  constructor
  · rintro rfl
    rw [← wire_decode first, ← wire_decode second]
  · intro front
    have spelled := ((decode_eq_ok_iff a x).mp first).congr length.symm front
    cases ((decode_eq_ok_iff b x).mpr spelled).symm.trans second
    rfl

/-- What is printed of two values is the same report, and the same text, just if the values
have the same length and agree on all that the view is read from. -/
theorem run_decode_faithful {σ ε : Type} {library : Library σ ε} (host : Host σ) {environment : Environment}
    {front : List RawText} {config : Option RawText} {settings : Settings} {world : σ}
    (selects : Command.Selects environment front config)
    (accepted : Settings.checked library environment config world = .ok settings) {a b : List UInt8} {x y : View}
    (first : View.decode a = .ok x) (second : View.decode b = .ok y) :
    let run arguments :=
      (Command.run library host environment (front ++ RawText.ofString "decode" :: arguments) world).1
    let prints (raw : List UInt8) (report : Json) :=
      (∀ text, Hex.Spells raw text → run ["--hex", RawText.ofString text] = ⟨report.document, .success⟩) ∧
        ∀ path, Command.isValue path = true → path ≠ [] → host.files.contents path world = .ok raw →
          run [path] = ⟨report.document, .success⟩
    (∃ left right : Json, prints a left ∧ prints b right ∧
      Json.Tree.ofText? left.document = some left.tree ∧ Json.Tree.ofText? right.document = some right.tree ∧
      left.at? ["attribute"] = some x.toJson ∧ right.at? ["attribute"] = some y.toJson ∧
      (left.Same right ↔ a.length = b.length ∧ a.take x.encodedLength = b.take x.encodedLength) ∧
      (left.document = right.document ↔ left.Same right)) ∧
    ∀ x y : View, x.toJson.Same y.toJson ↔ x = y := by
  intro run prints
  let report (raw : List UInt8) (view : View) := (DecodeReport.mk raw.length view none).toJson
  have printed {raw : List UInt8} {view : View} (read : View.decode raw = .ok view) : prints raw (report raw view) := by
    have outcome : DecodeReport.outcome none raw = ⟨(report raw view).document, .success⟩ :=
      DecodeReport.outcome_ok read none
    constructor
    · intro text spells
      exact (congrArg Prod.fst (run_decode_hex host selects accepted none spells)).trans outcome
    · intro path value named held
      exact (congrArg Prod.fst (run_decode_file host selects accepted none value named held)).trans outcome
  -- equal views are read from equal fronts; what stands behind shows in the length alone
  have same : (report a x).Same (report b y) ↔ a.length = b.length ∧ a.take x.encodedLength = b.take x.encodedLength :=
    DecodeReport.same_iff.trans (and_congr_right fun length => View.eq_iff_of_decode first second length)
  refine ⟨⟨report a x, report b y, printed first, printed second, Json.ofText?_document _, Json.ofText?_document _,
    rfl, rfl, same, ?_⟩, fun x y => ?_⟩
  · constructor
    · intro text
      rw [Json.document_injective text]
      exact .refl _
    · intro equal
      obtain ⟨length, rfl⟩ := DecodeReport.same_iff.mp equal
      simp only [report, length]
  · constructor
    · exact View.toJson_inj
    · rintro rfl
      exact .refl _

/-- Bytes behind the last region are not shown, but their number is. -/
theorem run_decode_faithful_overlong :
    let tree := FileTree.ofList
      [("a", View.overlong), ("b", View.overlong.take 48 ++ zeros 25), ("c", View.overlong.take 60)]
    let library : Library Xfs.Script Settings.LoadError := .standard tree
    let host : Host Xfs.Script := ⟨Xfs.Script.kernel, tree.files⟩
    let run (argument : RawText) := (Command.run library host [] [RawText.ofString "decode", argument] .empty).1
    Settings.checked library [] none .empty = .ok .default ∧ run "a" = run "b" ∧ run "a" ≠ run "c" := by
  intro tree library host run
  have accepted : Settings.checked library [] none .empty = .ok .default := by decide +kernel
  have first : View.decode View.overlong = .ok _ := rfl
  have second : View.decode (View.overlong.take 48 ++ zeros 25) = .ok _ := rfl
  have third : View.decode (View.overlong.take 60) = .ok _ := rfl
  have heldA : host.files.contents "a" .empty = .ok View.overlong := by decide +kernel
  have heldB : host.files.contents "b" .empty = .ok (View.overlong.take 48 ++ zeros 25) := by decide +kernel
  have heldC : host.files.contents "c" .empty = .ok (View.overlong.take 60) := by decide +kernel
  obtain ⟨⟨left, right, ⟨-, fileA⟩, ⟨-, fileB⟩, -, -, -, -, same, shown⟩, -⟩ :=
    run_decode_faithful host (.absent rfl) accepted first second
  obtain ⟨⟨whole, part, ⟨-, fileW⟩, ⟨-, fileC⟩, -, -, -, -, other, apart⟩, -⟩ :=
    run_decode_faithful host (.absent rfl) accepted first third
  have alike : left.document = right.document := shown.mpr (same.mpr ⟨rfl, rfl⟩)
  have differ : whole.document ≠ part.document := fun text => absurd (other.mp (apart.mp text)).1 (by decide)
  refine ⟨accepted, ?_, fun equal => differ ?_⟩
  · have runA : run "a" = ⟨left.document, .success⟩ := fileA "a" (by decide +kernel) (by decide +kernel) heldA
    have runB : run "b" = ⟨right.document, .success⟩ := fileB "b" (by decide +kernel) (by decide +kernel) heldB
    rw [runA, runB, alike]
  · have runA : run "a" = ⟨whole.document, .success⟩ := fileW "a" (by decide +kernel) (by decide +kernel) heldA
    have runC : run "c" = ⟨part.document, .success⟩ := fileC "c" (by decide +kernel) (by decide +kernel) heldC
    rw [runA, runC] at equal
    exact congrArg Outcome.stdout equal

end Residency
