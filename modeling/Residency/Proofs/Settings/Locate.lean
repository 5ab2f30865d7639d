import Mathlib.Data.List.TakeWhile
import Residency.Proofs.Settings.Laws
import Residency.Settings.Standard

/-!
# Files that a name means

A path from the root passes through the working directory, so what it names is there
below the working directory, too (`plainFile?_of_absolute`). Where one file alone has a
name with an extension, the name without it means that file (`fileSource_extended`).
-/

namespace Residency

theorem suffix_intercalate {α : Type} (separator : List α) : ∀ (front : List (List α)) (last : List α),
    last <:+ separator.intercalate (front ++ [last])
  | [], last => by simp
  | first :: front, last => by
    rw [List.cons_append, List.intercalate_cons_of_ne_nil (by simp)]
    exact (suffix_intercalate separator front last).trans (List.suffix_append ..)

theorem intercalate_append_last {α : Type} (separator : List α) : ∀ (front : List (List α)) (last rest : List α),
    separator.intercalate (front ++ [last ++ rest]) = separator.intercalate (front ++ [last]) ++ rest
  | [], _, _ => by simp
  | first :: front, last, rest => by
    rw [List.cons_append, List.cons_append, List.intercalate_cons_of_ne_nil (by simp),
      List.intercalate_cons_of_ne_nil (by simp), intercalate_append_last separator front]
    simp only [List.append_assoc]

namespace FileTree

/-! ## Paths from the root -/

/-- A name of a file, which is no step of its own. -/
structure Proper (name : RawText) : Prop where
  slashless : slash ∉ name
  nonempty : name ≠ []
  ne_here : name ≠ here
  ne_parent : name ≠ parent

instance (name : RawText) : Decidable (Proper name) :=
  decidable_of_iff (slash ∉ name ∧ name ≠ [] ∧ name ≠ here ∧ name ≠ parent)
    ⟨fun ⟨slashless, nonempty, ne_here, ne_parent⟩ => ⟨slashless, nonempty, ne_here, ne_parent⟩,
      fun proper => ⟨proper.slashless, proper.nonempty, proper.ne_here, proper.ne_parent⟩⟩

/-- The working directory is spelled by names of files. -/
def Rooted (tree : FileTree) : Prop := ∀ name ∈ tree.working, Proper name

theorem rooted_ofList (named : List (RawText × List UInt8)) : (ofList named).Rooted := by
  have working : (ofList named).working = ["tmp", "work"] := rfl
  unfold Rooted
  rw [working]
  decide

variable {tree : FileTree} {name : RawText}

theorem walk_names : ∀ {names : List RawText} {rest : List RawText} {place : Place} {found : Place × Node},
    (∀ name ∈ names, Proper name) → tree.walk place (names ++ rest) = .ok found →
      tree.walk (place ++ names) rest = .ok found
  | [], rest, place, found, _, walked => by
    rw [List.append_nil]
    exact walked
  | name :: names, rest, place, found, proper, walked => by
    have first := proper name (.head names)
    have step : ¬ (name = [] ∨ name = here) := not_or.mpr ⟨first.nonempty, first.ne_here⟩
    rw [List.cons_append, walk] at walked
    split at walked
    · cases walked
    · rw [if_neg step, if_neg first.ne_parent] at walked
      split at walked
      · cases walked
      · have onward := walk_names (fun name there => proper name (.tail _ there)) walked
        rwa [List.append_assoc] at onward
    · cases walked

theorem splitOn_slashless (slashless : slash ∉ name) : name.splitOn slash = [name] := by
  have single := List.splitOn_intercalate slash (List.forall_mem_singleton.mpr slashless) (List.cons_ne_nil name [])
  rwa [List.intercalate_singleton] at single

theorem isAbsolute_eq_false (slashless : slash ∉ name) : isAbsolute name = false := by
  match name with
  | [] => rfl
  | first :: rest =>
    have other : first ≠ slash := fun same => slashless (same ▸ .head rest)
    simp [isAbsolute, other]

theorem absolute_eq (slashless : slash ∉ name) :
    tree.absolute name = [slash].intercalate ([] :: tree.working ++ [name]) := by
  rw [absolute, isAbsolute_eq_false slashless, List.cons_append, List.intercalate_cons_of_ne_nil (by simp)]
  rfl

theorem absolute_append (slashless : slash ∉ name) {rest : RawText} (onward : slash ∉ rest) :
    tree.absolute (name ++ rest) = tree.absolute name ++ rest := by
  rw [absolute_eq slashless, absolute_eq (List.not_mem_append slashless onward)]
  exact intercalate_append_last ..

theorem isAbsolute_absolute (slashless : slash ∉ name) : isAbsolute (tree.absolute name) = true := by
  rw [absolute, isAbsolute_eq_false slashless]
  rfl

theorem suffix_absolute (slashless : slash ∉ name) : name <:+ tree.absolute name := by
  rw [absolute_eq slashless]
  exact suffix_intercalate ..

/-- No file stands below the working directory where there is no node. -/
theorem plainFile?_eq_none (proper : Proper name) (free : ∀ node ∈ tree.nodes, node.1 ≠ tree.working ++ [name]) :
    tree.plainFile? name = none := by
  have missing : tree.node? (tree.working ++ [name]) = none :=
    List.lookup_eq_none_iff.mpr fun node there => bne_iff_ne.mpr (free node there).symm
  have step : ¬ (name = [] ∨ name = here) := not_or.mpr ⟨proper.nonempty, proper.ne_here⟩
  have lost : ∀ found, tree.walk tree.working [name] ≠ .ok found := by
    intro found walked
    rw [walk] at walked
    split at walked
    · cases walked
    · rw [if_neg step, if_neg proper.ne_parent] at walked
      split at walked
      · cases walked
      · rw [walk, missing] at walked
        cases walked
    · cases walked
  unfold plainFile? resolve
  rw [splitOn_slashless proper.slashless, isAbsolute_eq_false proper.slashless, if_neg proper.nonempty]
  split
  · next place bytes resolved =>
    split at resolved
    · cases resolved
    · split at resolved
      · cases resolved
      · exact absurd resolved (lost _)
  · rfl

section
variable (rooted : tree.Rooted)
include rooted

theorem splitOn_absolute (slashless : slash ∉ name) :
    (tree.absolute name).splitOn slash = [] :: tree.working ++ [name] := by
  rw [absolute_eq slashless]
  refine List.splitOn_intercalate slash (fun part there => ?_) (by simp)
  simp only [List.cons_append, List.mem_cons, List.mem_append, List.not_mem_nil, or_false] at there
  obtain rfl | inside | rfl := there
  · exact List.not_mem_nil
  · exact (rooted part inside).slashless
  · exact slashless

theorem resolve_of_absolute (slashless : slash ∉ name) (nonempty : name ≠ []) {found : Place × Node}
    (resolved : tree.resolve (tree.absolute name) = .ok found) : tree.resolve name = .ok found := by
  have suffix : name <:+ tree.absolute name := suffix_absolute slashless
  unfold resolve at resolved ⊢
  rw [splitOn_absolute rooted slashless, isAbsolute_absolute slashless] at resolved
  rw [isAbsolute_eq_false slashless]
  split at resolved
  · cases resolved
  · next nulless =>
    have none : ¬ name.nulPosition?.isSome = true := by
      intro some
      unfold RawText.nulPosition? at nulless some
      rw [List.findIdx?_isSome, List.any_eq_true] at nulless some
      obtain ⟨byte, there, zero⟩ := some
      exact nulless ⟨byte, suffix.subset there, zero⟩
    split at resolved
    · cases resolved
    · split at resolved
      · cases resolved
      · next short =>
        have fits : ¬ pathLimit < name.length := fun long => short (Nat.lt_of_lt_of_le long suffix.length_le)
        rw [if_neg none, if_neg nonempty, if_neg fits, splitOn_slashless slashless]
        -- the first step stays at the root
        have start : tree.walk [] (tree.working ++ [name]) = .ok found := by
          rw [if_pos rfl, List.cons_append, walk] at resolved
          split at resolved
          · cases resolved
          · rwa [if_pos (.inl rfl)] at resolved
          · cases resolved
        exact walk_names rooted start

theorem plainFile?_of_absolute (slashless : slash ∉ name) (nonempty : name ≠ []) {bytes : List UInt8}
    (held : tree.plainFile? (tree.absolute name) = some bytes) : tree.plainFile? name = some bytes := by
  unfold plainFile? at held ⊢
  cases resolved : tree.resolve (tree.absolute name) with
  | error error =>
    rw [resolved] at held
    cases held
  | ok found =>
    rw [resolve_of_absolute rooted slashless nonempty resolved, ← resolved]
    exact held

theorem plainFile?_absolute_eq_none (slashless : slash ∉ name) (nonempty : name ≠ []) {σ : Type} {world : σ}
    (missing : tree.files.isFile name world = false) : tree.plainFile? (tree.absolute name) = none := by
  cases held : tree.plainFile? (tree.absolute name) with
  | none => rfl
  | some bytes => simp [files, plainFile?_of_absolute rooted slashless nonempty held] at missing

end

end FileTree

namespace Settings

open FileTree

/-! ## Names with an extension -/

theorem splitExtension_dot {stem extension : RawText} (nonempty : stem ≠ []) (dotless : dot ∉ extension) :
    splitExtension (stem ++ dot :: extension) = (stem, some extension) := by
  have whole : (stem ++ dot :: extension).reverse = extension.reverse ++ dot :: stem.reverse := by simp
  have behind : (stem ++ dot :: extension).reverse.takeWhile (· ≠ dot) = extension.reverse := by
    rw [whole, List.takeWhile_append_of_pos, List.takeWhile_cons_of_neg (by simp), List.append_nil]
    intro byte there
    have other : byte ≠ dot := fun same => dotless (List.mem_reverse.mp (same ▸ there))
    simpa using other
  have front : (stem ++ dot :: extension).reverse.drop (extension.reverse.length + 1) = stem.reverse := by
    rw [whole, ← List.drop_drop, List.drop_left, List.drop_one, List.tail_cons]
  have some : ¬ stem.reverse.isEmpty = true := by simpa using nonempty
  unfold splitExtension
  simp only [behind, front, if_neg some, List.reverse_reverse]

theorem Format.ofName?_dot {stem extension : RawText} (nonempty : stem ≠ []) (dotless : dot ∉ extension) :
    Format.ofName? (stem ++ dot :: extension) = formats.find? fun format => format.extension = extension := by
  rw [Format.ofName?, splitExtension_dot nonempty dotless, Option.bind_some]

theorem splitExtension_dotless {name : RawText} (dotless : dot ∉ name) : splitExtension name = (name, none) := by
  have whole : name.reverse.takeWhile (· ≠ dot) = name.reverse := by
    refine List.takeWhile_eq_self_iff.mpr fun byte there => ?_
    have other : byte ≠ dot := fun same => dotless (List.mem_reverse.mp (same ▸ there))
    simpa using other
  unfold splitExtension
  simp only [whole]
  rw [List.drop_eq_nil_of_le (by simp)]
  rfl

section
variable {tree : FileTree} (rooted : tree.Rooted) {name : RawText}
include rooted

theorem lastName?_absolute (proper : Proper name) :
    lastName? (tree.absolute name) = some (name, [] :: tree.working) := by
  have kept : ¬ (decide (name = [] ∨ name = here)) = true := by
    simpa using ⟨proper.nonempty, proper.ne_here⟩
  have reversed : ([] :: tree.working ++ [name]).reverse = name :: ([] :: tree.working).reverse := by
    rw [List.reverse_append]
    rfl
  rw [lastName?, splitOn_absolute rooted proper.slashless, reversed, List.dropWhile_cons_of_neg (by simpa using kept)]
  simp only [if_neg proper.ne_parent, List.reverse_reverse]

theorem withExtension_absolute (proper : Proper name) {stem extension : RawText} {ending : Option RawText}
    (split : splitExtension name = (stem, ending)) (slashless : slash ∉ stem ++ dot :: extension) :
    withExtension (tree.absolute name) extension = some (tree.absolute (stem ++ dot :: extension)) := by
  rw [withExtension, lastName?_absolute rooted proper, Option.map_some, absolute_eq slashless]
  simp only [split]

end

/-! ## The only file of a name -/

section
variable {name extension : RawText} (nonempty : name ≠ [])
  (slashless : slash ∉ name) (dotless : dot ∉ name) (onward : slash ∉ extension)
include nonempty slashless dotless

theorem proper_dotless : Proper name where
  slashless := slashless
  nonempty := nonempty
  ne_here same := dotless (by rw [same]; decide)
  ne_parent same := dotless (by rw [same]; decide)

theorem withExtension_dotless {tree : FileTree} (rooted : tree.Rooted) (format : Format) :
    withExtension (withoutFormat (tree.absolute name)) format.extension =
      some (tree.absolute (name ++ dot :: format.extension)) := by
  have proper := proper_dotless nonempty slashless dotless
  have plain : withoutFormat (tree.absolute name) = tree.absolute name := by
    rw [withoutFormat, lastName?_absolute rooted proper, Option.bind_some]
    simp only [splitExtension_dotless dotless]
  have mark : slash ∉ dot :: format.extension := by
    cases format with
    | toml | json => decide
  rw [plain]
  exact withExtension_absolute rooted proper (splitExtension_dotless dotless) (List.not_mem_append slashless mark)

include onward

omit nonempty slashless dotless in
theorem slash_not_mem_extension (format : Format) : slash ∉ extension ++ dot :: format.extension := by
  refine List.not_mem_append onward ?_
  cases format with
  | toml | json => decide

theorem proper_dot : Proper (name ++ dot :: extension) where
  slashless := List.not_mem_append slashless (List.not_mem_cons_of_ne_of_not_mem (by decide) onward)
  nonempty := by simp
  ne_here same := by
    match name with
    | [] => exact nonempty rfl
    | first :: rest => exact dotless (by rw [(List.cons.inj same).1]; exact .head rest)
  ne_parent same := by
    match name with
    | [] => exact nonempty rfl
    | first :: rest => exact dotless (by rw [(List.cons.inj same).1]; exact .head rest)

omit onward in
/-- A file that is alone in the working directory is the only one of its name. -/
theorem onlyExtension_of_alone {σ : Type} {tree : FileTree} {world : σ}
    (alone : ∀ node ∈ tree.nodes, node.1.length = tree.working.length + 1 →
      node.1 = tree.working ++ [name ++ dot :: extension]) : OnlyExtension tree.files name extension world := by
  have free : ∀ other, Proper other → other ≠ name ++ dot :: extension → tree.plainFile? other = none := by
    intro other proper differs
    refine plainFile?_eq_none proper fun node there same => differs ?_
    have only := alone node there (by rw [same, List.length_append, List.length_singleton])
    rw [same] at only
    exact List.singleton_inj.mp (List.append_cancel_left only)
  constructor
  · have bare := free name (proper_dotless nonempty slashless dotless) (by simp)
    exact congrArg Option.isSome bare
  · intro other plain differs
    have missing := free (name ++ dot :: other) (proper_dot nonempty slashless dotless plain) (by simpa using differs)
    exact congrArg Option.isSome missing

variable {tree : FileTree} (rooted : tree.Rooted)
include rooted

theorem locateAbsolute_extended (last : dot ∉ extension) {bytes : List UInt8}
    (held : tree.plainFile? (tree.absolute (name ++ dot :: extension)) = some bytes) :
    locateAbsolute tree (tree.absolute (name ++ dot :: extension)) =
      match formats.find? fun format => format.extension = extension with
      | some format => .ok (tree.absolute (name ++ dot :: extension), format, bytes)
      | none => .error (.unknownFormat (tree.absolute (name ++ dot :: extension))) := by
  have proper := proper_dot nonempty slashless dotless onward
  rw [locateAbsolute, held]
  cases known : formats.find? fun format => format.extension = extension with
  | none => simp only [lastName?_absolute rooted proper, Option.bind_some, Format.ofName?_dot nonempty last, known]
  | some format => simp only [lastName?_absolute rooted proper, Option.bind_some, Format.ofName?_dot nonempty last, known]

/-- The placeholder behind an extension is replaced. -/
theorem withExtension_placeholder (last : dot ∉ extension) (format : Format) :
    withExtension (withoutFormat (tree.absolute (name ++ dot :: extension))) format.extension =
      some (tree.absolute (name ++ dot :: (extension ++ dot :: format.extension))) := by
  have proper := proper_dot nonempty slashless dotless onward
  have mark : slash ∉ RawText.ofString ".dummy" := by decide
  have dummy : withoutFormat (tree.absolute (name ++ dot :: extension)) =
      tree.absolute (name ++ dot :: extension ++ RawText.ofString ".dummy") := by
    rw [withoutFormat, lastName?_absolute rooted proper, Option.bind_some, absolute_append proper.slashless mark]
    simp only [splitExtension_dot nonempty last]
  have marked : Proper (name ++ dot :: extension ++ RawText.ofString ".dummy") := by
    rw [List.append_assoc]
    exact proper_dot nonempty slashless dotless (List.not_mem_append onward mark)
  have split : splitExtension (name ++ dot :: extension ++ RawText.ofString ".dummy") =
      (name ++ dot :: extension, some (RawText.ofString "dummy")) :=
    splitExtension_dot proper.nonempty (by decide)
  have whole : name ++ dot :: extension ++ dot :: format.extension =
      name ++ dot :: (extension ++ dot :: format.extension) := by rw [List.append_assoc, List.cons_append]
  have extended : slash ∉ name ++ dot :: extension ++ dot :: format.extension := by
    rw [whole]
    exact (proper_dot nonempty slashless dotless (slash_not_mem_extension onward format)).slashless
  rw [dummy, withExtension_absolute rooted marked split extended, whole]

/-- Without its extension the name means the same file, if that is the only one. -/
theorem fileSource_extended {σ : Type} {world : σ} (last : dot ∉ extension) {source : Source}
    (read : fileSource tree (name ++ dot :: extension) true = .ok source)
    (only : OnlyExtension tree.files name extension world) : fileSource tree name false = .ok source := by
  have bare := plainFile?_absolute_eq_none rooted slashless nonempty only.bare
  have others : ∀ other, slash ∉ other → other ≠ extension →
      tree.plainFile? (tree.absolute (name ++ dot :: other)) = none := by
    intro other plain differs
    have proper := proper_dot nonempty slashless dotless plain
    exact plainFile?_absolute_eq_none rooted proper.slashless proper.nonempty (only.others other plain differs)
  unfold fileSource locate at read ⊢
  cases held : tree.plainFile? (tree.absolute (name ++ dot :: extension)) with
  | none =>
    have longer : ∀ format : Format, extension ++ dot :: format.extension ≠ extension := by simp
    have unfound : locateAbsolute tree (tree.absolute (name ++ dot :: extension)) =
        .error (.notFound (tree.absolute (name ++ dot :: extension))) := by
      rw [locateAbsolute, held]
      simp [formats, withExtension_placeholder nonempty slashless dotless onward rooted last,
        others _ (slash_not_mem_extension onward _) (longer _)]
    rw [unfound] at read
    cases read
  | some bytes =>
    rw [locateAbsolute_extended nonempty slashless dotless onward rooted last held] at read
    cases found : formats.find? fun format => format.extension = extension with
    | none =>
      rw [found] at read
      cases read
    | some format =>
      have named : format.extension = extension := by simpa using List.find?_some found
      have onlyFound : locateAbsolute tree (tree.absolute name) =
          .ok (tree.absolute (name ++ dot :: extension), format, bytes) := by
        subst named
        rw [locateAbsolute, bare]
        have extended := withExtension_dotless nonempty slashless dotless rooted
        cases format with
        | toml => simp [formats, extended, held]
        | json => simp [formats, extended, held, others Format.toml.extension (by decide) (by decide)]
      rw [found] at read
      rw [onlyFound]
      exact read

end

end Settings

end Residency
