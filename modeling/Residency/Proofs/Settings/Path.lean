import Residency.Proofs.Settings.Laws
import Residency.Settings.Value

/-!
# The paths that keys spell

A path begins with names, and the key that spells it begins with the same names, joined
by dots (`spelled_pathOf`). So where a path leads is seen from the text of its key:
below a name (`leads_of_pathOf`), and at or beside a field (`Field.leadsTo_pathOf`). A
key without dots and brackets is a path of one name (`pathOf_plain`).
-/

namespace Residency

namespace Settings

/-! ## Steps of the reader -/

/-- What a character does to a reader of paths that goes on. -/
inductive PathPosition.Goes : PathPosition → Char → PathPosition → Prop
  | letter (done : List Step) (reversed : List Char) (c : Char) : Goes (.name done reversed) c (.name done (c :: reversed))
  | dot (done : List Step) (reversed : List Char) :
    Goes (.name done reversed) '.' (.name (.key (String.ofList reversed.reverse) :: done) [])
  | bracket (done : List Step) (reversed : List Char) :
    Goes (.name done reversed) '[' (.index (.key (String.ofList reversed.reverse) :: done) [])
  | inside (done : List Step) (reversed : List Char) (c : Char) :
    Goes (.index done reversed) c (.index done (c :: reversed))
  | close (done : List Step) (reversed : List Char) (n : Int) : Goes (.index done reversed) ']' (.closed (.index n :: done))
  | dotBehind (done : List Step) : Goes (.closed done) '.' (.name done [])
  | bracketBehind (done : List Step) : Goes (.closed done) '[' (.index done [])

theorem closeName_eq_some {done steps : List Step} {reversed : List Char}
    (closed : closeName done reversed = some steps) : steps = .key (String.ofList reversed.reverse) :: done := by
  unfold closeName at closed
  split at closed
  · cases closed
  · exact (Option.some.inj closed).symm

theorem closeIndex_eq_some {done steps : List Step} {reversed : List Char}
    (closed : closeIndex done reversed = some steps) : ∃ n, steps = .index n :: done := by
  unfold closeIndex at closed
  split at closed
  · cases closed
  · obtain ⟨n, -, rfl⟩ := Option.map_eq_some_iff.mp closed
    exact ⟨n, rfl⟩

theorem goes_of_pathStep {position next : PathPosition} {c : Char} (stepped : pathStep position c = some next) :
    position.Goes c next := by
  cases position with
  | name done reversed =>
    simp only [pathStep] at stepped
    split at stepped
    · cases stepped
      exact .letter done reversed c
    · split at stepped
      · next dot =>
        obtain ⟨steps, closed, rfl⟩ := Option.map_eq_some_iff.mp stepped
        rw [dot, closeName_eq_some closed]
        exact .dot done reversed
      · split at stepped
        · next bracket =>
          obtain ⟨steps, closed, rfl⟩ := Option.map_eq_some_iff.mp stepped
          rw [bracket, closeName_eq_some closed]
          exact .bracket done reversed
        · cases stepped
  | index done reversed =>
    simp only [pathStep] at stepped
    split at stepped
    · next bracket =>
      obtain ⟨steps, closed, rfl⟩ := Option.map_eq_some_iff.mp stepped
      obtain ⟨n, rfl⟩ := closeIndex_eq_some closed
      rw [bracket]
      exact .close done reversed n
    · cases stepped
      exact .inside done reversed c
  | closed done =>
    simp only [pathStep] at stepped
    split at stepped
    · next dot =>
      cases stepped
      rw [dot]
      exact .dotBehind done
    · split at stepped
      · next bracket =>
        cases stepped
        rw [bracket]
        exact .bracketBehind done
      · cases stepped

/-- What holds at a position and is kept by every step holds at the end. -/
theorem foldlM_keeps {holds : PathPosition → Prop}
    (kept : ∀ {position c next}, holds position → position.Goes c next → holds next) :
    ∀ {text : List Char} {position last : PathPosition}, holds position →
      text.foldlM pathStep position = some last → holds last
  | [], _, _, here, read => by
    cases read
    exact here
  | c :: text, position, last, here, read => by
    rw [List.foldlM_cons] at read
    obtain ⟨next, stepped, read⟩ := Option.bind_eq_some_iff.mp read
    exact foldlM_keeps kept (kept here (goes_of_pathStep stepped)) read

/-! ## Names in front -/

/-- An index stands right behind these steps, which are in reverse. -/
def Indexed (before done : List Step) : Prop := ∃ n later, done = later ++ .index n :: before

def PathPosition.Indexed (before : List Step) : PathPosition → Prop
  | .name done _ => Settings.Indexed before done
  | .index done _ => done = before ∨ Settings.Indexed before done
  | .closed done => Settings.Indexed before done

theorem Indexed.cons {before done : List Step} (indexed : Indexed before done) (step : Step) :
    Indexed before (step :: done) := by
  obtain ⟨n, later, rfl⟩ := indexed
  exact ⟨n, step :: later, rfl⟩

theorem indexed_goes {before : List Step} {position next : PathPosition} {c : Char}
    (indexed : position.Indexed before) (goes : position.Goes c next) : next.Indexed before := by
  cases goes with
  | letter => exact indexed
  | dot => exact indexed.cons _
  | bracket => exact .inr (indexed.cons _)
  | inside => exact indexed
  | close done reversed n =>
    cases indexed with
    | inl here => exact ⟨n, [], by rw [here]; rfl⟩
    | inr indexed => exact indexed.cons _
  | dotBehind => exact indexed
  | bracketBehind => exact .inr indexed

theorem indexed_of_pathEnd {before : List Step} {position : PathPosition} {steps : List Step}
    (indexed : position.Indexed before) (ended : pathEnd position = some steps) : Indexed before steps := by
  cases position with
  | name done reversed =>
    rw [closeName_eq_some ended]
    exact Indexed.cons indexed _
  | index done reversed => cases ended
  | closed done =>
    cases ended
    exact indexed

/-- A path as it is spelled: names with dots between them, and then nothing or an index. -/
inductive Spelled : List Char → List Step → Prop
  | last (name : String) : Spelled name.toList [.key name]
  | index (name : String) (n : Int) (later : List Step) (rest : List Char) :
    Spelled (name.toList ++ '[' :: rest) (.key name :: .index n :: later)
  | deeper (name : String) {text : List Char} {steps : List Step} (onward : Spelled text steps) :
    Spelled (name.toList ++ '.' :: text) (.key name :: steps)

/-- What the reader makes of a text from the middle of a name on. -/
theorem spelled_of_foldlM : ∀ {text : List Char} {done : List Step} {reversed : List Char} {steps : List Step}
    {last : PathPosition}, text.foldlM pathStep (.name done reversed) = some last → pathEnd last = some steps →
      ∃ onward, steps.reverse = done.reverse ++ onward ∧ Spelled (reversed.reverse ++ text) onward
  | [], done, reversed, steps, last, read, ended => by
    cases read
    rw [closeName_eq_some ended, List.reverse_cons, List.append_nil]
    have last := Spelled.last (String.ofList reversed.reverse)
    rw [String.toList_ofList] at last
    exact ⟨_, rfl, last⟩
  | c :: text, done, reversed, steps, last, read, ended => by
    rw [List.foldlM_cons] at read
    obtain ⟨next, stepped, read⟩ := Option.bind_eq_some_iff.mp read
    cases goes_of_pathStep stepped with
    | letter =>
      have rest := spelled_of_foldlM read ended
      rwa [List.reverse_cons, List.append_assoc] at rest
    | dot =>
      obtain ⟨onward, split, spelled⟩ := spelled_of_foldlM read ended
      have below := Spelled.deeper (String.ofList reversed.reverse) spelled
      rw [String.toList_ofList] at below
      rw [List.reverse_cons, List.append_assoc] at split
      exact ⟨_, split, below⟩
    | bracket =>
      -- what is done before the bracket stays at the bottom
      have inside : PathPosition.Indexed (.key (String.ofList reversed.reverse) :: done)
          (.index (.key (String.ofList reversed.reverse) :: done) []) := .inl rfl
      obtain ⟨n, later, rfl⟩ := indexed_of_pathEnd (foldlM_keeps indexed_goes inside read) ended
      have index := Spelled.index (String.ofList reversed.reverse) n later.reverse text
      rw [String.toList_ofList] at index
      exact ⟨_, by simp, index⟩

theorem spelled_pathOf (key : String) : Spelled key.toList (pathOf key) := by
  unfold pathOf
  cases read : path? key with
  | none => exact .last key
  | some steps =>
    obtain ⟨reversed, ended, rfl⟩ := Option.map_eq_some_iff.mp read
    obtain ⟨last, folded, ended⟩ := Option.bind_eq_some_iff.mp ended
    obtain ⟨onward, split, spelled⟩ := spelled_of_foldlM folded ended
    rw [Option.getD_some, split]
    exact spelled

/-! ## Where a key leads -/

theorem pathOf_cons (key : String) : ∃ name rest, pathOf key = .key name :: rest := by
  have spelled := spelled_pathOf key
  generalize key.toList = letters at spelled
  generalize pathOf key = path at spelled
  cases spelled with
  | last | index | deeper => exact ⟨_, _, rfl⟩

/-- The text of a key begins with the first name of its path. -/
theorem leads_of_pathOf {key name : String} {rest : List Step} (path : pathOf key = .key name :: rest) :
    Leads name key := by
  have spelled := spelled_pathOf key
  rw [path] at spelled
  generalize text : key.toList = letters at spelled
  cases spelled with
  | last =>
    rw [String.toList_injective text]
    exact .whole
  | index _ n later rest =>
    have whole : key = name ++ "[" ++ String.ofList rest := String.toList_injective (by simp [text])
    rw [whole]
    exact .index _
  | @deeper _ rest _ onward =>
    have whole : key = name ++ "." ++ String.ofList rest := String.toList_injective (by simp [text])
    rw [whole]
    exact .below _

theorem below_of_pathOf {key name : String} {rest : List Step} (path : pathOf key = .key name :: rest)
    (whole : key ≠ name) (indexless : ∀ rest, key ≠ name ++ "[" ++ rest) :
    ∃ below later, rest = .key below :: later := by
  have spelled := spelled_pathOf key
  rw [path] at spelled
  generalize text : key.toList = letters at spelled
  cases spelled with
  | last => exact absurd (String.toList_injective text) whole
  | index _ n later rest => exact absurd (String.toList_injective (by simp [text])) (indexless (String.ofList rest))
  | @deeper _ rest _ onward =>
    cases onward with
    | last | index | deeper => exact ⟨_, _, rfl⟩

/-- Paths that a key may have if it obstructs no field of that table and name. -/
inductive Field.LeadsTo (field : Field) (key : String) : List Step → Prop
  | apart {first : String} (other : first ≠ field.table) (rest : List Step) : LeadsTo field key (.key first :: rest)
  | beside {name : String} (other : name ≠ field.name) (rest : List Step) :
    LeadsTo field key (.key field.table :: .key name :: rest)
  | here (own : key = field.key) : LeadsTo field key [.key field.table, .key field.name]

theorem Field.leadsTo_pathOf {field : Field} {key : String} (clear : ¬ field.Obstructs key) :
    field.LeadsTo key (pathOf key) := by
  have spelled := spelled_pathOf key
  generalize text : key.toList = letters at spelled
  generalize pathOf key = path at spelled
  cases spelled with
  | last name =>
    refine .apart (fun same => clear ?_) []
    rw [String.toList_injective text, same]
    exact .whole
  | index name n later rest =>
    refine .apart (fun same => clear ?_) _
    have whole : key = field.table ++ "[" ++ String.ofList rest := String.toList_injective (by simp [text, same])
    rw [whole]
    exact .index _
  | @deeper name rest steps onward =>
    by_cases table : name = field.table
    · subst table
      cases onward with
      | last name =>
        by_cases own : name = field.name
        · subst own
          exact .here (String.toList_injective (by simp [text, Field.key]))
        · exact .beside own []
      | index name n later rest =>
        refine .beside (fun same => clear ?_) _
        have whole : key = field.key ++ "[" ++ String.ofList rest :=
          String.toList_injective (by simp [text, same, Field.key])
        rw [whole]
        exact .inside _
      | @deeper name rest steps onward =>
        refine .beside (fun same => clear ?_) _
        have whole : key = field.key ++ "." ++ String.ofList rest :=
          String.toList_injective (by simp [text, same, Field.key])
        rw [whole]
        exact .below _
    · exact .apart table _

/-! ## Single names -/

theorem foldlM_plain : ∀ {text : List Char} (reversed : List Char), '.' ∉ text → '[' ∉ text →
    text.foldlM pathStep (.name [] reversed) = none ∨
      text.foldlM pathStep (.name [] reversed) = some (.name [] (text.reverse ++ reversed))
  | [], reversed, _, _ => .inr rfl
  | c :: text, reversed, dotless, bracketless => by
    have noDot : c ≠ '.' := fun same => dotless (same ▸ .head text)
    have noBracket : c ≠ '[' := fun same => bracketless (same ▸ .head text)
    rw [List.foldlM_cons]
    by_cases valid : isNameChar c = true
    · have stepped : pathStep (.name [] reversed) c = some (.name [] (c :: reversed)) := if_pos valid
      have rest := foldlM_plain (c :: reversed) (fun there => dotless (.tail c there))
        (fun there => bracketless (.tail c there))
      rw [stepped, List.reverse_cons, List.append_assoc]
      exact rest
    · have stepped : pathStep (.name [] reversed) c = none := by
        simp only [pathStep, if_neg valid, if_neg noDot, if_neg noBracket]
      rw [stepped]
      exact .inl rfl

theorem pathOf_plain {key : String} (dotless : '.' ∉ key.toList) (bracketless : '[' ∉ key.toList) :
    pathOf key = [.key key] := by
  unfold pathOf path?
  rcases foldlM_plain [] dotless bracketless with stuck | read
  · rw [stuck]
    rfl
  · rw [read, List.append_nil]
    simp only [Option.bind_some, pathEnd, closeName]
    split
    · rfl
    · simp

/-! ## Fields -/

theorem foldlM_named : ∀ {text : List Char} (done : List Step) (reversed : List Char),
    (∀ c ∈ text, isNameChar c = true) →
      text.foldlM pathStep (.name done reversed) = some (.name done (text.reverse ++ reversed))
  | [], _, _, _ => rfl
  | c :: text, done, reversed, valid => by
    have stepped : pathStep (.name done reversed) c = some (.name done (c :: reversed)) := if_pos (valid c (.head text))
    rw [List.foldlM_cons, stepped, List.reverse_cons, List.append_assoc]
    exact foldlM_named done (c :: reversed) fun c there => valid c (.tail _ there)

theorem closeName_named {name : String} (named : Named name) (done : List Step) :
    closeName done name.toList.reverse = some (.key name :: done) := by
  have letters : name.toList.reverse.isEmpty = false := by simpa using named.1
  rw [closeName, letters, List.reverse_reverse, String.ofList_toList]
  rfl

theorem Field.Simple.pathOf_key {field : Field} (simple : field.Simple) :
    pathOf field.key = [.key field.table, .key field.name] := by
  obtain ⟨table, name⟩ := simple
  have read : field.key.toList.foldlM pathStep (.name [] []) =
      some (.name [.key field.table] field.name.toList.reverse) := by
    have letters : field.key.toList = field.table.toList ++ '.' :: field.name.toList := by simp [Field.key]
    have dot : pathStep (.name [] field.table.toList.reverse) '.' = some (.name [.key field.table] []) := by
      have closed := closeName_named table []
      simp only [pathStep, closed]
      rfl
    rw [letters, List.foldlM_append, foldlM_named [] [] table.2, List.append_nil, Option.bind_eq_bind, Option.bind_some,
      List.foldlM_cons, dot, Option.bind_eq_bind, Option.bind_some, foldlM_named _ [] name.2, List.append_nil]
  unfold pathOf path?
  rw [read, Option.bind_some, pathEnd, closeName_named name]
  rfl

end Settings

end Residency
