import Residency.Proofs.Settings.Distinct
import Residency.Toml.Document

/-!
# Distinct names in TOML

Tables grow entry by entry, in braces and below headers alike, and none of their
changes gives a name twice (`sound_changeAt`). The reader of statements keeps that of
all tables in braces that are still open (`step_sound`).
-/

namespace Residency.Toml

/-- The tables below a node have distinct names. -/
inductive Node.Distinct : Node → Prop
  | value {value : Setting} (distinct : value.Distinct) : Distinct (.value value)
  | table {origin : Origin} {entries : Entries} (once : (entries.map Prod.fst).Nodup)
    (inside : ∀ entry ∈ entries, entry.2.Distinct) : Distinct (.table origin entries)
  | elements {latest : Entries} {earlier : List Entries}
    (once : ∀ entries ∈ latest :: earlier, (entries.map Prod.fst).Nodup)
    (inside : ∀ entries ∈ latest :: earlier, ∀ entry ∈ entries, entry.2.Distinct) :
    Distinct (.elements latest earlier)

/-- A table with distinct names, down to the last table below it. -/
abbrev Sound (entries : Entries) : Prop := Keyed Node.Distinct entries

namespace Node

theorem Distinct.of_sound {origin : Origin} {entries : Entries} (sound : Sound entries) :
    (Node.table origin entries).Distinct := .table sound.once sound.inside

theorem Distinct.sound_below {origin : Origin} {entries : Entries} (distinct : (Node.table origin entries).Distinct) :
    Sound entries := by
  cases distinct with
  | table once inside => exact ⟨once, inside⟩

theorem Distinct.sound_latest {latest : Entries} {earlier : List Entries}
    (distinct : (Node.elements latest earlier).Distinct) : Sound latest := by
  cases distinct with
  | elements once inside => exact ⟨once _ (.head _), inside _ (.head _)⟩

theorem Distinct.elements_cons {latest next : Entries} {earlier : List Entries}
    (distinct : (Node.elements latest earlier).Distinct) (sound : Sound next) :
    (Node.elements next earlier).Distinct ∧ (Node.elements next (latest :: earlier)).Distinct := by
  cases distinct with
  | elements once inside =>
    refine ⟨.elements ?_ ?_, .elements ?_ ?_⟩
    · rintro _ (_ | ⟨_, there⟩)
      · exact sound.once
      · exact once _ (.tail _ there)
    · rintro _ (_ | ⟨_, there⟩)
      · exact sound.inside
      · exact inside _ (.tail _ there)
    · rintro _ (_ | ⟨_, there⟩)
      · exact sound.once
      · exact once _ there
    · rintro _ (_ | ⟨_, there⟩)
      · exact sound.inside
      · exact inside _ there

end Node

/-! ## Changes of a table -/

section
variable {entries changed : Entries}

theorem sound_changeAt {change : Entries → Option Entries}
    (keeps : ∀ {entries changed}, Sound entries → change entries = some changed → Sound changed) :
    ∀ {path : List String} {entries changed : Entries}, Sound entries →
      changeAt change path entries = some changed → Sound changed
  | [], _, _, sound, made => keeps sound made
  | key :: rest, entries, changed, sound, made => by
    obtain ⟨node, found, rfl⟩ := Option.map_eq_some_iff.mp made
    refine sound.insert ?_
    cases there : entries.lookup key with
    | none =>
      simp only [there] at found
      obtain ⟨below, inside, rfl⟩ := Option.map_eq_some_iff.mp found
      exact .of_sound (sound_changeAt keeps .nil inside)
    | some node =>
      have distinct := sound.lookup there
      cases node with
      | value value =>
        simp only [there] at found
        cases found
      | table origin entries =>
        simp only [there] at found
        obtain ⟨below, inside, rfl⟩ := Option.map_eq_some_iff.mp found
        exact .of_sound (sound_changeAt keeps distinct.sound_below inside)
      | elements latest earlier =>
        simp only [there] at found
        obtain ⟨below, inside, rfl⟩ := Option.map_eq_some_iff.mp found
        exact (distinct.elements_cons (sound_changeAt keeps distinct.sound_latest inside)).1

theorem sound_beginTable {key : String} (sound : Sound entries) (made : beginTable key entries = some changed) :
    Sound changed := by
  unfold beginTable at made
  cases there : entries.lookup key with
  | none =>
    simp only [there] at made
    cases made
    exact sound.insert (.of_sound .nil)
  | some node =>
    have distinct := sound.lookup there
    match node with
    | .table .above below =>
      simp only [there] at made
      cases made
      exact sound.insert (.of_sound distinct.sound_below)
    | .value _ | .table .header _ | .table .points _ | .elements _ _ =>
      simp only [there] at made
      cases made

theorem sound_beginElement {key : String} (sound : Sound entries) (made : beginElement key entries = some changed) :
    Sound changed := by
  unfold beginElement at made
  cases there : entries.lookup key with
  | none =>
    simp only [there] at made
    cases made
    refine sound.insert (.elements ?_ ?_)
    · rintro _ (_ | ⟨_, ⟨⟩⟩)
      exact List.nodup_nil
    · rintro _ (_ | ⟨_, ⟨⟩⟩) _ ⟨⟩
  | some node =>
    have distinct := sound.lookup there
    match node with
    | .elements latest earlier =>
      simp only [there] at made
      cases made
      exact sound.insert (distinct.elements_cons .nil).2
    | .value _ | .table _ _ =>
      simp only [there] at made
      cases made

theorem sound_assign {value : Setting} (distinct : value.Distinct) :
    ∀ {path : List String} {first : String} {entries changed : Entries}, Sound entries →
      assign value first path entries = some changed → Sound changed
  | [], first, entries, changed, sound, made => by
    rw [assign] at made
    split at made
    · cases made
    · cases made
      exact sound.insert (.value distinct)
  | next :: rest, first, entries, changed, sound, made => by
    obtain ⟨node, found, rfl⟩ := Option.map_eq_some_iff.mp made
    refine sound.insert ?_
    cases there : entries.lookup first with
    | none =>
      simp only [there] at found
      obtain ⟨below, inside, rfl⟩ := Option.map_eq_some_iff.mp found
      exact .of_sound (sound_assign distinct .nil inside)
    | some node =>
      have named := sound.lookup there
      match node with
      | .value _ | .table .header _ =>
        simp only [there] at found
        cases found
      | .table .above entries | .table .points entries =>
        simp only [there] at found
        obtain ⟨below, inside, rfl⟩ := Option.map_eq_some_iff.mp found
        exact .of_sound (sound_assign distinct named.sound_below inside)
      | .elements latest earlier =>
        simp only [there] at found
        by_cases last : rest.isEmpty = true
        · rw [if_pos last] at found
          cases found
        · rw [if_neg last] at found
          obtain ⟨below, inside, rfl⟩ := Option.map_eq_some_iff.mp found
          exact (named.elements_cons (sound_assign distinct named.sound_latest inside)).1

end

/-! ## Tables as settings -/

theorem keys_settingsOf : ∀ entries : Entries, (settingsOf entries).map Prod.fst = entries.map Prod.fst
  | [] => rfl
  | (_, _) :: rest => congrArg (_ :: ·) (keys_settingsOf rest)

mutual

theorem Node.Distinct.toSetting : ∀ {node : Node}, node.Distinct → node.toSetting.Distinct
  | .value _, .value distinct => distinct
  | .table _ entries, .table once inside => .of_keyed ⟨by rw [keys_settingsOf]; exact once, inside_settingsOf inside⟩
  | .elements latest earlier, .elements once inside => by
    refine .array fun item there => ?_
    rw [List.mem_reverse] at there
    cases there with
    | head =>
      have first : ∀ entry ∈ latest, entry.2.Distinct := inside latest (.head earlier)
      exact .of_keyed ⟨by rw [keys_settingsOf]; exact once latest (.head earlier), inside_settingsOf first⟩
    | tail _ there =>
      have others : ∀ entries ∈ earlier, (entries.map Prod.fst).Nodup := fun entries there => once entries (.tail _ there)
      have below : ∀ entries ∈ earlier, ∀ entry ∈ entries, entry.2.Distinct :=
        fun entries there => inside entries (.tail _ there)
      exact distinct_elementsOf others below item there

theorem inside_settingsOf : ∀ {entries : Entries}, (∀ entry ∈ entries, entry.2.Distinct) →
    ∀ entry ∈ settingsOf entries, entry.2.Distinct
  | (_, node) :: rest, inside, _, .head _ => (inside _ (.head rest)).toSetting
  | _ :: rest, inside, entry, .tail _ there =>
    inside_settingsOf (fun entry there => inside entry (.tail _ there)) entry there

theorem distinct_elementsOf : ∀ {tables : List Entries}, (∀ entries ∈ tables, (entries.map Prod.fst).Nodup) →
    (∀ entries ∈ tables, ∀ entry ∈ entries, entry.2.Distinct) → ∀ item ∈ elementsOf tables, item.Distinct
  | entries :: rest, once, inside, _, .head _ =>
    .of_keyed ⟨by rw [keys_settingsOf]; exact once entries (.head rest), inside_settingsOf (inside entries (.head rest))⟩
  | _ :: rest, once, inside, item, .tail _ there =>
    distinct_elementsOf (fun entries there => once entries (.tail _ there))
      (fun entries there => inside entries (.tail _ there)) item there

end

theorem keyed_settingsOf {entries : Entries} (sound : Sound entries) : Keyed Setting.Distinct (settingsOf entries) :=
  ⟨by rw [keys_settingsOf]; exact sound.once, inside_settingsOf sound.inside⟩

/-! ## Statements -/

/-- The value of an assignment has distinct names. -/
def Statement.Sound : Statement → Prop
  | .assignment _ value => value.Distinct
  | _ => True

def Frame.Sound : Frame → Prop
  | .items done => ∀ item ∈ done, item.Distinct
  | .members done _ => Toml.Sound done
  | .assignment _ => True

def AllSound (around : List Frame) : Prop := ∀ frame ∈ around, frame.Sound

def KeyUse.Sound : KeyUse → Prop
  | .member done around => Toml.Sound done ∧ AllSound around
  | _ => True

/-- All that waits for more words has distinct names. -/
def Position.Sound : Position → Prop
  | .key purpose _ => purpose.Sound
  | .keyPart purpose _ _ => purpose.Sound
  | .member done around => Toml.Sound done ∧ AllSound around
  | .memberKey done _ around => Toml.Sound done ∧ AllSound around
  | .value around => AllSound around
  | .scalar _ around => AllSound around
  | .afterDate _ around => AllSound around
  | .complete setting around => setting.Distinct ∧ AllSound around
  | _ => True

section
variable {frame : Frame} {around : List Frame}

theorem AllSound.cons (first : frame.Sound) (others : AllSound around) : AllSound (frame :: around) := by
  rintro _ (_ | ⟨_, there⟩)
  · exact first
  · exact others _ there

theorem AllSound.head (sound : AllSound (frame :: around)) : frame.Sound := sound frame (.head around)

theorem AllSound.tail (sound : AllSound (frame :: around)) : AllSound around :=
  fun frame there => sound frame (.tail _ there)

end

theorem distinct_number? {negative : Bool} {text : List Char} {value : Setting}
    (read : number? negative text = some value) : value.Distinct := by
  unfold number? at read
  split at read
  · cases read
    exact .real _
  · split at read
    · cases read
      exact .real _
    · split at read
      · obtain ⟨n, -, rfl⟩ := Option.map_eq_some_iff.mp read
        exact .integer n
      · obtain ⟨x, -, rfl⟩ := Option.map_eq_some_iff.mp read
        exact .real x

theorem distinct_scalarValue? {text : List Char} {value : Setting} (read : scalarValue? text = some value) :
    value.Distinct := by
  unfold scalarValue? at read
  split at read
  · cases read
    exact .bool true
  · cases read
    exact .bool false
  · obtain ⟨n, -, rfl⟩ := Option.map_eq_some_iff.mp read
    exact .integer n
  · obtain ⟨n, -, rfl⟩ := Option.map_eq_some_iff.mp read
    exact .integer n
  · obtain ⟨n, -, rfl⟩ := Option.map_eq_some_iff.mp read
    exact .integer n
  · exact distinct_number? read
  · exact distinct_number? read
  · rcases Option.or_eq_some_iff.mp read with number | ⟨-, moment⟩
    · exact distinct_number? number
    · obtain ⟨moment, -, rfl⟩ := Option.map_eq_some_iff.mp moment
      exact .text _

section
variable {around : List Frame} {token : Token} {next : Position} {statement : Option Statement}

theorem openBracket_sound (inside : Position) (sound : inside.Sound)
    (opened : openBracket around inside = some next) : next.Sound := by
  unfold openBracket at opened
  split at opened
  · cases opened
    exact sound
  · cases opened

theorem stepValue_sound (sound : AllSound around) (stepped : stepValue around token = some next) : next.Sound := by
  cases token with
  | blank _ =>
    cases stepped
    exact sound
  | word _ =>
    cases stepped
    exact sound
  | point =>
    cases stepped
    exact sound
  | text _ _ =>
    cases stepped
    exact ⟨.text _, sound⟩
  | leftBracket => exact openBracket_sound (.value (.items [] :: around)) (sound.cons fun _ none => nomatch none) stepped
  | leftBrace => exact openBracket_sound (.member [] around) ⟨.nil, sound⟩ stepped
  | lineBreak =>
    match around, sound, stepped with
    | .items _ :: _, sound, stepped =>
      cases stepped
      exact sound
    | .members _ _ :: _, sound, stepped =>
      cases stepped
      exact sound
    | [], _, stepped => cases stepped
    | .assignment _ :: _, _, stepped => cases stepped
  | rightBracket =>
    match around, sound, stepped with
    | .items _ :: _, sound, stepped =>
      cases stepped
      exact ⟨.array fun item there => sound.head item (List.mem_reverse.mp there), sound.tail⟩
    | [], _, stepped => cases stepped
    | .members _ _ :: _, _, stepped => cases stepped
    | .assignment _ :: _, _, stepped => cases stepped
  | rightBrace => cases stepped
  | comma => cases stepped
  | equals => cases stepped

/-- A step leads to a sound position, and so is the statement that it completes. -/
def Made (next : Position) (statement : Option Statement) : Prop := next.Sound ∧ ∀ made ∈ statement, made.Sound

theorem Made.silent (sound : next.Sound) : Made next none := ⟨sound, fun _ none => nomatch none⟩

theorem Made.of_map {read : Option Position} (sound : ∀ {position}, read = some position → position.Sound)
    (stepped : read.map (·, none) = some (next, statement)) : Made next statement := by
  obtain ⟨position, here, same⟩ := Option.map_eq_some_iff.mp stepped
  cases same
  exact .silent (sound here)

theorem stepComplete_sound {value : Setting} (distinct : value.Distinct) (sound : AllSound around)
    (stepped : stepComplete value around token = some (next, statement)) : Made next statement := by
  -- the frame comes first, because it is what the definition looks at first
  match around, sound, stepped with
  | [], sound, stepped =>
    cases token with
    | blank _ =>
      cases stepped
      exact .silent ⟨distinct, sound⟩
    | _ => cases stepped
  | [.assignment path], sound, stepped =>
    cases token with
    | blank _ =>
      cases stepped
      exact .silent ⟨distinct, sound⟩
    | lineBreak =>
      cases stepped
      refine ⟨trivial, ?_⟩
      rintro _ ⟨⟩
      exact distinct
    | _ => cases stepped
  | .assignment path :: second :: around, sound, stepped =>
    cases token with
    | blank _ =>
      cases stepped
      exact .silent ⟨distinct, sound⟩
    | _ => cases stepped
  | .items done :: around, sound, stepped =>
    have longer : ∀ item ∈ value :: done, item.Distinct := List.forall_mem_cons.mpr ⟨distinct, sound.head⟩
    cases token with
    | blank _ =>
      cases stepped
      exact .silent ⟨distinct, sound⟩
    | comma =>
      cases stepped
      exact .silent (sound.tail.cons longer)
    | rightBracket =>
      cases stepped
      exact .silent ⟨.array fun item there => longer item (List.mem_reverse.mp there), sound.tail⟩
    | lineBreak =>
      cases stepped
      exact .silent ⟨distinct, sound⟩
    | _ => cases stepped
  | .members done path :: around, sound, stepped =>
    cases token with
    | blank _ =>
      cases stepped
      exact .silent ⟨distinct, sound⟩
    | comma =>
      obtain ⟨done, assigned, more⟩ := Option.map_eq_some_iff.mp stepped
      cases more
      exact .silent ⟨sound_assign distinct sound.head assigned, sound.tail⟩
    | rightBrace =>
      obtain ⟨done, assigned, more⟩ := Option.map_eq_some_iff.mp stepped
      cases more
      exact .silent ⟨.of_keyed (keyed_settingsOf (sound_assign distinct sound.head assigned)), sound.tail⟩
    | lineBreak =>
      cases stepped
      exact .silent ⟨distinct, sound⟩
    | _ => cases stepped

theorem stepKey_sound {purpose : KeyUse} {parts : List String} (sound : purpose.Sound)
    (stepped : stepKey purpose parts token = some next) : next.Sound := by
  unfold stepKey at stepped
  split at stepped
  · cases stepped
    exact sound
  · split at stepped
    · obtain ⟨part, -, rfl⟩ := Option.map_eq_some_iff.mp stepped
      exact sound
    · cases stepped

theorem stepKeyPart_sound {purpose : KeyUse} {last : String} {parts : List String} (sound : purpose.Sound)
    (stepped : stepKeyPart purpose last parts token = some (next, statement)) : Made next statement := by
  cases token with
  | blank _ =>
    cases stepped
    exact .silent sound
  | point =>
    cases stepped
    exact .silent sound
  | rightBracket =>
    cases purpose with
    | table =>
      cases stepped
      refine ⟨trivial, ?_⟩
      rintro _ ⟨⟩
      trivial
    | element =>
      cases stepped
      exact .silent trivial
    | _ => cases stepped
  | equals =>
    cases purpose with
    | assignment =>
      cases stepped
      refine .silent ?_
      rintro _ (_ | ⟨_, ⟨⟩⟩)
      trivial
    | member done around =>
      cases stepped
      exact .silent (sound.2.cons sound.1)
    | _ => cases stepped
  | lineBreak =>
    cases purpose with
    | member done around =>
      cases stepped
      exact .silent sound
    | _ => cases stepped
  | _ => cases stepped

theorem stepScalarValue_sound {text : List Char} (sound : AllSound around)
    (stepped : ((scalarValue? text).bind fun value => stepComplete value around token) = some (next, statement)) :
    Made next statement := by
  obtain ⟨value, read, stepped⟩ := Option.bind_eq_some_iff.mp stepped
  exact stepComplete_sound (distinct_scalarValue? read) sound stepped

theorem stepScalar_sound {text : List Char} (sound : AllSound around)
    (stepped : (if isDate text ∧ token = .blank ' ' then some (.afterDate text around, none)
      else (scalarValue? text).bind fun value => stepComplete value around token) = some (next, statement)) :
    Made next statement := by
  split at stepped
  · cases stepped
    exact .silent sound
  · exact stepScalarValue_sound sound stepped

theorem step_sound {position : Position} (sound : position.Sound)
    (stepped : step position token = some (next, statement)) : Made next statement := by
  unfold step at stepped
  cases position with
  | lineStart =>
    cases token with
    | blank _ =>
      cases stepped
      exact .silent trivial
    | lineBreak =>
      cases stepped
      exact .silent trivial
    | leftBracket =>
      cases stepped
      exact .silent trivial
    | _ => exact .of_map (stepKey_sound (show KeyUse.assignment.Sound from trivial)) stepped
  | bracket =>
    cases token with
    | leftBracket =>
      cases stepped
      exact .silent trivial
    | _ => exact .of_map (stepKey_sound (show KeyUse.table.Sound from trivial)) stepped
  | key purpose parts => exact .of_map (stepKey_sound sound) stepped
  | keyPart purpose last parts => exact stepKeyPart_sound sound stepped
  | closing path =>
    cases token with
    | rightBracket =>
      cases stepped
      refine ⟨trivial, ?_⟩
      rintro _ ⟨⟩
      trivial
    | _ => cases stepped
  | lineEnd =>
    cases token with
    | blank _ =>
      cases stepped
      exact .silent trivial
    | lineBreak =>
      cases stepped
      exact .silent trivial
    | _ => cases stepped
  | member done around =>
    cases token with
    | blank _ =>
      cases stepped
      exact .silent sound
    | lineBreak =>
      cases stepped
      exact .silent sound
    | rightBrace =>
      cases stepped
      exact .silent ⟨.of_keyed (keyed_settingsOf sound.1), sound.2⟩
    | _ => exact .of_map (stepKey_sound (show (KeyUse.member done around).Sound from sound)) stepped
  | memberKey done path around =>
    cases token with
    | blank _ =>
      cases stepped
      exact .silent sound
    | lineBreak =>
      cases stepped
      exact .silent sound
    | equals =>
      cases stepped
      exact .silent (sound.2.cons sound.1)
    | _ => cases stepped
  | value around => exact .of_map (stepValue_sound sound) stepped
  | scalar text around =>
    cases token with
    | word more =>
      cases stepped
      exact .silent sound
    | point =>
      cases stepped
      exact .silent sound
    | _ => exact stepScalar_sound sound stepped
  | afterDate text around =>
    cases token with
    | word more =>
      cases stepped
      exact .silent sound
    | _ => exact stepScalarValue_sound sound stepped
  | complete value around => exact stepComplete_sound sound.1 sound.2 stepped

end

theorem readStatements_sound : ∀ {tokens : List Token} {position : Position} {statements : List Statement},
    position.Sound → readStatements position tokens = some statements → ∀ statement ∈ statements, statement.Sound
  | [], position, statements, sound, read => by
    cases position with
    | lineStart =>
      cases read
      intro statement none
      cases none
    | _ => cases read
  | token :: rest, position, statements, sound, read => by
    have stepped : ((step position token).bind fun made =>
        (readStatements made.1 rest).map (made.2.toList ++ ·)) = some statements := by
      cases position with
      | _ => exact read
    obtain ⟨⟨next, statement⟩, one, more⟩ := Option.bind_eq_some_iff.mp stepped
    obtain ⟨others, further, rfl⟩ := Option.map_eq_some_iff.mp more
    obtain ⟨after, made⟩ := step_sound sound one
    intro found there
    rcases List.mem_append.mp there with here | later
    · exact made found (Option.mem_toList.mp here)
    · exact readStatements_sound after further found later

/-! ## Documents -/

theorem sound_add {document changed : Document} {statement : Statement} (sound : Sound document.entries)
    (made : statement.Sound) (added : document.add statement = some changed) : Sound changed.entries := by
  cases statement with
  | table path =>
    obtain ⟨entries, begun, rfl⟩ := Option.map_eq_some_iff.mp added
    exact sound_changeAt sound_beginTable sound begun
  | element path =>
    obtain ⟨entries, begun, rfl⟩ := Option.map_eq_some_iff.mp added
    exact sound_changeAt sound_beginElement sound begun
  | assignment path value =>
    obtain ⟨entries, assigned, rfl⟩ := Option.map_eq_some_iff.mp added
    exact sound_changeAt (sound_assign made) sound assigned

theorem sound_foldlM_add : ∀ {statements : List Statement} {document filled : Document},
    (∀ statement ∈ statements, statement.Sound) → Sound document.entries →
      statements.foldlM Document.add document = some filled → Sound filled.entries
  | [], _, _, _, sound, read => by
    cases read
    exact sound
  | statement :: rest, document, filled, made, sound, read => by
    rw [List.foldlM_cons] at read
    obtain ⟨next, added, read⟩ := Option.bind_eq_some_iff.mp read
    exact sound_foldlM_add (fun later there => made later (.tail _ there))
      (sound_add sound (made statement (.head rest)) added) read

theorem Document.keyed_ofText? {text : String} {entries : List (String × Setting)}
    (read : ofText? text = some entries) : Keyed Setting.Distinct entries := by
  obtain ⟨statements, spelled, read⟩ := Option.bind_eq_some_iff.mp read
  obtain ⟨document, filled, read⟩ := Option.bind_eq_some_iff.mp read
  cases read
  obtain ⟨tokens, -, spelled⟩ := Option.bind_eq_some_iff.mp spelled
  have start : Position.Sound .lineStart := trivial
  have made := readStatements_sound start spelled
  exact keyed_settingsOf (sound_foldlM_add made .nil filled)

end Residency.Toml
