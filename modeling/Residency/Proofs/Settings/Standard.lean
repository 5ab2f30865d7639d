import Residency.Proofs.Json
import Residency.Proofs.Settings.Locate
import Residency.Proofs.Settings.Path
import Residency.Proofs.Toml

/-!
# A library that is lawful

`Library.standard` keeps the laws of a library of settings (`Library.standard_lawful`). Keys of a
source are set one after the other in one table, so each law is shown for one key and
then for a source, by induction on its entries.
-/

namespace Residency

open Settings

/-! ## Values set over others -/

namespace Setting

theorem merge_leaf {value : Setting} (leaf : value.Leaf) (old : Setting) : old.merge value = value := by
  cases value with
  | table entries => exact absurd rfl (leaf entries)
  | nil | bool | integer | real | text | array => rfl

theorem insert_fresh {α : Type} {key : String} (value : α) : ∀ {entries : List (String × α)},
    key ∉ entries.map Prod.fst → insert key value entries = entries ++ [(key, value)]
  | [], _ => rfl
  | (k, v) :: rest, fresh => by
    rw [List.map_cons, List.mem_cons, not_or] at fresh
    rw [insert, if_neg (Ne.symm fresh.1), insert_fresh value fresh.2, List.cons_append]

theorem mergeEntries_fresh : ∀ {incoming entries : List (String × Setting)}, (incoming.map Prod.fst).Nodup →
    (∀ entry ∈ incoming, entry.1 ∉ entries.map Prod.fst) → (∀ entry ∈ incoming, merge .nil entry.2 = entry.2) →
      mergeEntries entries incoming = entries ++ incoming
  | [], entries, _, _, _ => (List.append_nil entries).symm
  | (key, value) :: rest, entries, once, fresh, same => by
    obtain ⟨first, once⟩ := List.nodup_cons.mp once
    have new : key ∉ entries.map Prod.fst := fresh _ (.head rest)
    have kept : merge .nil value = value := same _ (.head rest)
    have others : ∀ entry ∈ rest, entry.1 ∉ (entries ++ [(key, value)]).map Prod.fst := by
      intro entry there
      rw [List.map_append, List.mem_append, not_or]
      refine ⟨fresh entry (.tail _ there), fun same => first ?_⟩
      rw [List.map_singleton, List.mem_singleton] at same
      rw [← same]
      exact List.mem_map_of_mem there
    rw [mergeEntries, mergeEntry, lookup_eq_none_iff_not_mem.mpr new, Option.getD_none, kept, insert_fresh value new,
      mergeEntries_fresh once others fun entry there => same entry (.tail _ there), List.append_assoc,
      List.singleton_append]

/-- A value whose tables have distinct names is set over nothing as it is. -/
theorem Distinct.merge_nil {value : Setting} (distinct : value.Distinct) : merge .nil value = value := by
  induction distinct with
  | table once inside ih =>
    rw [merge, mergeEntries_fresh once (fun entry there => List.not_mem_nil) ih]
    rfl
  | nil | bool | integer | real | text | array => rfl

end Setting

namespace Settings

/-! ## One key -/

section
variable {entries : List (String × Setting)} {key : String} {value : Setting}

theorem setKey_table {first : String} {rest : List Step} (path : pathOf key = .key first :: rest) :
    setKey (.table entries) key value =
      .table (Setting.insert first (setAt value rest ((entries.lookup first).getD .nil)) entries) := by
  rw [setKey, path]
  rfl

theorem exists_setKey (entries : List (String × Setting)) (key : String) (value : Setting) :
    ∃ after, setKey (.table entries) key value = .table after := by
  obtain ⟨first, rest, path⟩ := pathOf_cons key
  exact ⟨_, setKey_table path⟩

theorem Field.value?_table (field : Field) (entries : List (String × Setting)) :
    field.value? (.table entries) = ((entries.lookup field.table).getD .nil).entries.lookup field.name := by
  rw [value?, Setting.entries]
  cases entries.lookup field.table with
  | none => rfl
  | some below => rfl

theorem Field.value?_insert (field : Field) (below : Setting) :
    field.value? (.table (Setting.insert field.table below entries)) = below.entries.lookup field.name := by
  rw [value?_table, Setting.lookup_insert_self, Option.getD_some]

theorem Field.value?_setKey {field : Field} (simple : field.Simple) (clear : ¬ field.Obstructs key)
    (leaf : key = field.key → value.Leaf) : field.value? (setKey (.table entries) key value) =
      if key = field.key then some value else field.value? (.table entries) := by
  have other : pathOf key ≠ [.key field.table, .key field.name] → key ≠ field.key := by
    rintro differs rfl
    exact differs simple.pathOf_key
  have leads := field.leadsTo_pathOf clear
  generalize path : pathOf key = steps at leads other
  cases leads with
  | @apart first differs rest =>
    rw [if_neg (other (by simp [differs])), setKey_table path, value?_table, value?_table,
      Setting.lookup_insert_of_ne _ _ (Ne.symm differs)]
  | @beside name differs rest =>
    rw [if_neg (other (by simp [differs])), setKey_table path, value?_insert, value?_table, setAt, Setting.entries,
      Setting.lookup_insert_of_ne _ _ (Ne.symm differs)]
  | here own =>
    rw [if_pos own, setKey_table path, value?_insert, setAt, Setting.entries, Setting.lookup_insert_self, setAt,
      Setting.merge_leaf (leaf own)]

theorem tabled_setKey {name : String} {after : List (String × Setting)} (whole : key ≠ name)
    (indexless : ∀ rest, key ≠ name ++ "[" ++ rest) (set : setKey (.table entries) key value = .table after)
    (tabled : Tabled name entries) : Tabled name after := by
  intro below there
  obtain ⟨first, rest, path⟩ := pathOf_cons key
  rw [setKey_table path] at set
  cases set
  by_cases here : name = first
  · subst here
    obtain ⟨step, later, rfl⟩ := below_of_pathOf path whole indexless
    rw [Setting.lookup_insert_self] at there
    cases there
    exact ⟨_, rfl⟩
  · rw [Setting.lookup_insert_of_ne _ _ here] at there
    exact tabled below there

theorem lookup_setKey {name : String} {after : List (String × Setting)} (beside : ¬ Leads name key)
    (set : setKey (.table entries) key value = .table after) : after.lookup name = entries.lookup name := by
  obtain ⟨first, rest, path⟩ := pathOf_cons key
  rw [setKey_table path] at set
  cases set
  refine Setting.lookup_insert_of_ne _ _ fun same => beside ?_
  subst same
  exact leads_of_pathOf path

end

/-! ## Keys of a source -/

theorem setAll_cons (settings : Setting) (key : String) (value : Setting) (rest : Source) :
    setAll settings ((key, value) :: rest) = setAll (setKey settings key value) rest := rfl

theorem exists_setAll : ∀ (entries : List (String × Setting)) (source : Source),
    ∃ after, setAll (.table entries) source = .table after
  | entries, [] => ⟨entries, rfl⟩
  | entries, (key, value) :: rest => by
    obtain ⟨middle, set⟩ := exists_setKey entries key value
    rw [setAll_cons, set]
    exact exists_setAll middle rest

/-- What each key keeps of the table that it is set in, all keys of a source keep. -/
theorem setAll_keeps {holds : List (String × Setting) → Prop} : ∀ {source : Source} {entries after : List (String × Setting)},
    (∀ entry ∈ source, ∀ {entries after : List (String × Setting)},
      setKey (.table entries) entry.1 entry.2 = .table after → holds entries → holds after) →
        setAll (.table entries) source = .table after → holds entries → holds after
  | [], entries, after, _, set, here => by
    cases set
    exact here
  | (key, value) :: rest, entries, after, keeps, set, here => by
    obtain ⟨middle, first⟩ := exists_setKey entries key value
    rw [setAll_cons, first] at set
    exact setAll_keeps (fun entry there => keeps entry (.tail _ there)) set (keeps _ (.head rest) first here)

theorem Field.value?_setAll {field : Field} (simple : field.Simple) : ∀ {source : Source} {entries : List (String × Setting)},
    (source.map Prod.fst).Nodup → (∀ entry ∈ source, ¬ field.Obstructs entry.1) →
      (∀ value, source.lookup field.key = some value → value.Leaf) →
        field.value? (setAll (.table entries) source) = (source.lookup field.key).or (field.value? (.table entries))
  | [], _, _, _, _ => rfl
  | (key, value) :: rest, entries, once, clear, leaf => by
    obtain ⟨fresh, once⟩ := List.nodup_cons.mp once
    have own : key = field.key → value.Leaf := by
      rintro rfl
      exact leaf value List.lookup_cons_self
    have one : field.value? (setKey (.table entries) key value) = _ := value?_setKey simple (clear _ (.head rest)) own
    obtain ⟨middle, first⟩ := exists_setKey entries key value
    rw [first] at one
    have later : ∀ value, rest.lookup field.key = some value → value.Leaf := by
      intro value there
      by_cases same : key = field.key
      · subst same
        rw [lookup_eq_none_iff_not_mem.mpr fresh] at there
        cases there
      · refine leaf value ?_
        rw [List.lookup_cons, beq_eq_false_iff_ne.mpr (Ne.symm same)]
        exact there
    rw [setAll_cons, first, value?_setAll simple once (fun entry there => clear entry (.tail _ there)) later, one,
      List.lookup_cons]
    by_cases same : key = field.key
    · subst same
      rw [lookup_eq_none_iff_not_mem.mpr fresh, if_pos rfl, beq_self_eq_true]
      rfl
    · rw [if_neg same, beq_eq_false_iff_ne.mpr (Ne.symm same)]

theorem setAll_plain : ∀ {source : Source} (entries : List (String × Setting)), (∀ entry ∈ source, Plain entry.1) →
    setAll (.table entries) source = .table (Setting.mergeEntries entries source)
  | [], _, _ => rfl
  | (key, value) :: rest, entries, plain => by
    obtain ⟨dotless, bracketless⟩ := plain _ (.head rest)
    have first : setKey (.table entries) key value = .table (Setting.mergeEntry entries (key, value)) := by
      rw [setKey, pathOf_plain dotless bracketless]
      rfl
    rw [setAll_cons, first]
    exact setAll_plain _ fun entry there => plain entry (.tail _ there)

/-! ## Variables -/

/-- The key that a variable of some name sets. -/
def keyOf? (name : RawText) : Option String := name.text?.bind environmentKey?

section
variable {environment : Environment} {name value : RawText} {source : Source}

theorem environmentSource_other (unnamed : keyOf? name = none) :
    environmentSource ((name, value) :: environment) = environmentSource environment := by
  unfold keyOf? at unnamed
  rw [environmentSource, unnamed]

theorem environmentSource_set {key text : String} (named : keyOf? name = some key) (textual : value.text? = some text) :
    environmentSource ((name, value) :: environment) = (environmentSource environment).map fun source =>
      if (source.lookup key).isSome then source else (key, environmentValue text) :: source := by
  unfold keyOf? at named
  rw [environmentSource, named]
  simp only [textual]

theorem environmentSource_textless {key : String} (named : keyOf? name = some key) (textless : value.text? = none) :
    environmentSource ((name, value) :: environment) = .error ⟨key⟩ := by
  unfold keyOf? at named
  rw [environmentSource, named]
  simp only [textless]

/-- How a source is made, with the variables from the last to the first. -/
inductive Makes : Environment → Source → Prop
  | nil : Makes [] []
  | other {environment : Environment} {source : Source} {name : RawText} (value : RawText) (unnamed : keyOf? name = none)
      (made : Makes environment source) : Makes ((name, value) :: environment) source
  | again {environment : Environment} {source : Source} {name value : RawText} {key text : String}
      (named : keyOf? name = some key) (textual : value.text? = some text) (there : key ∈ source.map Prod.fst)
      (made : Makes environment source) : Makes ((name, value) :: environment) source
  | set {environment : Environment} {source : Source} {name value : RawText} {key text : String}
      (named : keyOf? name = some key) (textual : value.text? = some text) (fresh : key ∉ source.map Prod.fst)
      (made : Makes environment source) : Makes ((name, value) :: environment) ((key, environmentValue text) :: source)

theorem makes_of_environmentSource : ∀ {environment : Environment} {source : Source},
    environmentSource environment = .ok source → Makes environment source
  | [], source, read => by
    cases read
    exact .nil
  | (name, value) :: environment, source, read => by
    cases named : keyOf? name with
    | none =>
      rw [environmentSource_other named] at read
      exact .other value named (makes_of_environmentSource read)
    | some key =>
      cases textual : value.text? with
      | none =>
        rw [environmentSource_textless named textual] at read
        cases read
      | some text =>
        rw [environmentSource_set named textual] at read
        cases rest : environmentSource environment with
        | error error =>
          rw [rest] at read
          cases read
        | ok later =>
          rw [rest] at read
          have made := makes_of_environmentSource rest
          by_cases there : key ∈ later.map Prod.fst
          · have some : (later.lookup key).isSome = true :=
              Option.isSome_iff_ne_none.mpr fun missing => lookup_eq_none_iff_not_mem.mp missing there
            simp only [Except.map, if_pos some] at read
            cases read
            exact .again named textual there made
          · have none := lookup_eq_none_iff_not_mem.mpr there
            simp only [Except.map, none, Option.isSome_none, Bool.false_eq_true, if_false] at read
            cases read
            exact .set named textual there made

theorem makes_of_standard {σ : Type} (tree : FileTree)
    (read : (Library.standard tree : Library σ LoadError).environment environment = .ok source) :
    Makes environment source :=
  makes_of_environmentSource (Except.mapError_eq_ok_iff.mp read)

theorem exists_environmentSource : ∀ {environment : Environment},
    (∀ assignment ∈ environment, keyOf? assignment.1 ≠ none → assignment.2.text? ≠ none) →
      ∃ source, environmentSource environment = .ok source
  | [], _ => ⟨[], rfl⟩
  | (name, value) :: environment, textual => by
    obtain ⟨source, rest⟩ := exists_environmentSource fun assignment there => textual assignment (.tail _ there)
    cases named : keyOf? name with
    | none => exact ⟨source, (environmentSource_other named).trans rest⟩
    | some key =>
      obtain ⟨text, read⟩ := Option.ne_none_iff_exists'.mp (textual _ (.head environment) (by simp [named]))
      rw [environmentSource_set named read, rest]
      exact ⟨_, rfl⟩

theorem Makes.textual (made : Makes environment source) :
    ∀ assignment ∈ environment, keyOf? assignment.1 ≠ none → assignment.2.text? ≠ none := by
  induction made with
  | nil => simp
  | other value unnamed made ih => exact List.forall_mem_cons.mpr ⟨fun named => absurd unnamed named, ih⟩
  | again named textual there made ih => exact List.forall_mem_cons.mpr ⟨fun _ => by simp [textual], ih⟩
  | set named textual fresh made ih => exact List.forall_mem_cons.mpr ⟨fun _ => by simp [textual], ih⟩

theorem Makes.once (made : Makes environment source) : (source.map Prod.fst).Nodup := by
  induction made with
  | nil => exact List.nodup_nil
  | other value unnamed made ih => exact ih
  | again named textual there made ih => exact ih
  | set named textual fresh made ih => exact List.nodup_cons.mpr ⟨fresh, ih⟩

theorem Makes.known (made : Makes environment source) :
    ∀ key ∈ source.map Prod.fst, ∃ assignment ∈ environment, keyOf? assignment.1 = some key := by
  induction made with
  | nil => simp
  | other value unnamed made ih =>
    intro key there
    obtain ⟨assignment, listed, named⟩ := ih key there
    exact ⟨assignment, .tail _ listed, named⟩
  | again named textual there made ih =>
    intro key there
    obtain ⟨assignment, listed, named⟩ := ih key there
    exact ⟨assignment, .tail _ listed, named⟩
  | @set environment source name value key text named textual fresh made ih =>
    intro other there
    rw [List.map_cons, List.mem_cons] at there
    obtain rfl | there := there
    · exact ⟨(name, value), .head environment, named⟩
    · obtain ⟨assignment, listed, named⟩ := ih other there
      exact ⟨assignment, .tail _ listed, named⟩

/-- A variable that alone sets a key gives its value. -/
theorem Makes.lookup_eq (made : Makes environment source) {key : String}
    (once : (environment.filter fun assignment => keyOf? assignment.1 = some key).length ≤ 1) :
    source.lookup key = (environment.find? fun assignment => keyOf? assignment.1 = some key).bind fun assignment =>
      assignment.2.text?.map environmentValue := by
  induction made with
  | nil => rfl
  | @other environment source name value unnamed made ih =>
    have apart : decide (keyOf? name = some key) = false := by simp [unnamed]
    simp only [List.filter_cons, List.find?_cons, apart, Bool.false_eq_true, if_false] at once ⊢
    exact ih once
  | @again environment source name value own text named textual there made ih =>
    by_cases same : own = key
    · -- two variables for the key, against `once`
      subst same
      obtain ⟨assignment, listed, again⟩ := made.known own there
      have two : assignment ∈ environment.filter fun assignment => keyOf? assignment.1 = some own :=
        List.mem_filter.mpr ⟨listed, decide_eq_true again⟩
      have some := List.length_pos_of_mem two
      simp only [List.filter_cons, named, decide_true, if_true, List.length_cons] at once
      omega
    · have apart : decide (keyOf? name = some key) = false := by simp [named, same]
      simp only [List.filter_cons, List.find?_cons, apart, Bool.false_eq_true, if_false] at once ⊢
      exact ih once
  | @set environment source name value own text named textual fresh made ih =>
    by_cases same : own = key
    · subst same
      simp only [List.find?_cons, named, decide_true, Option.bind_some, textual, Option.map_some, List.lookup_cons_self]
    · have apart : decide (keyOf? name = some key) = false := by simp [named, same]
      simp only [List.filter_cons, List.find?_cons, apart, Bool.false_eq_true, if_false] at once ⊢
      rw [List.lookup_cons, beq_eq_false_iff_ne.mpr (Ne.symm same)]
      exact ih once

end

/-! ## Files -/

theorem keyed_readFile {file : RawText × Format × List UInt8} {source : Source} (read : readFile file = .ok source) :
    Keyed Setting.Distinct source := by
  unfold readFile at read
  cases spelled : file.2.1.read (fileText file.2.2) with
  | none =>
    rw [spelled] at read
    cases read
  | some entries =>
    rw [spelled] at read
    cases read
    cases format : file.2.1 with
    | toml =>
      rw [format] at spelled
      exact Toml.Document.keyed_ofText? spelled
    | json =>
      rw [format] at spelled
      exact keyed_jsonEntries? spelled

theorem keyed_fileSource {tree : FileTree} {path : RawText} {required : Bool} {source : Source}
    (read : fileSource tree path required = .ok source) : Keyed Setting.Distinct source := by
  unfold fileSource at read
  cases located : locate tree path with
  | ok file =>
    rw [located] at read
    exact keyed_readFile read
  | error error =>
    rw [located] at read
    cases required with
    | true => cases read
    | false =>
      cases read
      exact .nil

end Settings

/-! ## The laws -/

/-- A natural of 32 bits, and nothing else, is one as an integer. -/
theorem Setting.uint32?_eq_some_iff {n : Int} {number : UInt32} : uint32? n = some number ↔ (number.toNat : Int) = n := by
  unfold uint32?
  constructor
  · intro fits
    split at fits
    · next range =>
      cases fits
      have small : n.toNat < UInt32.size := by omega
      rw [UInt32.toNat_ofNat_of_lt' small]
      omega
    · cases fits
  · rintro rfl
    have range : 0 ≤ (number.toNat : Int) ∧ (number.toNat : Int) < UInt32.size :=
      ⟨Int.natCast_nonneg _, Int.ofNat_lt.mpr number.toNat_lt_size⟩
    rw [if_pos range, Int.toNat_natCast, UInt32.ofNat_toNat]

namespace Library

open Settings

section
variable (σ : Type) (tree : FileTree)

theorem standard_readsVariables : (standard tree : Library σ LoadError).ReadsVariables where
  key?_ascii {name} ascii := by
    have read : keyOf? (RawText.ofString name) = environmentKey? name := by
      rw [keyOf?, RawText.text?_ofString, Option.bind_some]
    exact read
  reads {environment} := by
    constructor
    · rintro ⟨source, read⟩
      exact (makes_of_standard tree read).textual
    · intro textual
      obtain ⟨source, read⟩ := exists_environmentSource textual
      exact ⟨source, congrArg (Except.mapError LoadError.notText) read⟩
  once read := (makes_of_standard tree read).once
  known {environment source entry} read there := (makes_of_standard tree read).known entry.1 (List.mem_map_of_mem there)
  value read once := (makes_of_standard tree read).lookup_eq once

theorem standard_layers : (standard tree : Library σ LoadError).Layers where
  total := exists_setAll
  plain keyed plain set key := by
    have whole := setAll_plain [] plain
    rw [Setting.mergeEntries_fresh keyed.once (fun _ _ => List.not_mem_nil)
      fun entry there => (keyed.inside entry there).merge_nil] at whole
    cases whole.symm.trans set
    rfl
  field simple once clear leaf set := by
    rw [← set]
    exact Field.value?_setAll simple once clear leaf
  table named clear set tabled :=
    setAll_keeps (fun entry there _ _ set => tabled_setKey (clear entry there).1 (clear entry there).2 set) set tabled
  beside {entries after source name} named clear set :=
    setAll_keeps (fun entry there _ _ set kept => (lookup_setKey (clear entry there) set).trans kept) set rfl

theorem standard_integer (n : Int) :
    (standard tree : Library σ LoadError).toUInt32 (.integer n) = typed (Setting.uint32? n) := rfl

theorem standard_converts : (standard tree : Library σ LoadError).Converts where
  named entries := rfl
  fits n := by
    rw [standard_integer, Setting.uint32?_eq_some_iff.mpr rfl]
    rfl
  exact {n number} converted := by
    rw [standard_integer] at converted
    cases fits : Setting.uint32? n with
    | none =>
      rw [fits] at converted
      cases converted
    | some other =>
      rw [fits] at converted
      cases converted
      exact Setting.uint32?_eq_some_iff.mp fits
  truth value := by
    cases value with
    | true | false => rfl
  integer n := rfl
  real x := rfl
  text text := rfl

end

variable {σ : Type} {tree : FileTree}

theorem standard_readsFiles (rooted : tree.Rooted) : (standard tree : Library σ LoadError).ReadsFiles tree.files where
  keyed := keyed_fileSource
  extended nonempty slashless dotless onward last := fileSource_extended nonempty slashless dotless onward rooted last

theorem standard_lawful (rooted : tree.Rooted) : (standard tree : Library σ LoadError).Lawful tree.files where
  toReadsFiles := standard_readsFiles rooted
  toReadsVariables := standard_readsVariables σ tree
  toLayers := standard_layers σ tree
  toConverts := standard_converts σ tree

/-- A file of JSON is read as the table of its document. -/
theorem standard_document {path absolute : RawText} {document : Json} {entries : Source}
    (located : locate tree path = .ok (absolute, .json, RawText.ofString document.document))
    (text : fileText (RawText.ofString document.document) = document.document)
    (table : settingOf? 0 document.tree = some (.table entries)) (required : Bool) (world : σ) :
    (standard tree).file path required world = .ok entries := by
  have read : jsonEntries? document.document = some entries := by
    rw [jsonEntries?, Json.ofText?_document, Option.bind_some, table]
  show fileSource tree path required = .ok entries
  rw [fileSource, located]
  simp only [readFile, Format.read, text, read]

end Library

end Residency
