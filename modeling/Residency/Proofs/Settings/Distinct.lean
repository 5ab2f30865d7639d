import Mathlib.Data.List.Nodup
import Residency.Settings.Standard

/-!
# Tables with distinct names

No table that a source spells has two entries of one name, at any depth
(`Setting.Distinct`). Entries that are set one by one keep that (`Keyed.insert`), and
so does the reader of JSON, where the last of several members of one name stays.
-/

namespace Residency

/-- Entries of distinct names, each with a valid value. -/
structure Keyed {α : Type} (valid : α → Prop) (entries : List (String × α)) : Prop where
  once : (entries.map Prod.fst).Nodup
  inside : ∀ entry ∈ entries, valid entry.2

/-- The tables in a setting have distinct names. -/
inductive Setting.Distinct : Setting → Prop
  | nil : Distinct .nil
  | bool (value : Bool) : Distinct (.bool value)
  | integer (value : Int) : Distinct (.integer value)
  | real (value : Binary64) : Distinct (.real value)
  | text (value : String) : Distinct (.text value)
  | array {items : List Setting} (inside : ∀ item ∈ items, item.Distinct) : Distinct (.array items)
  | table {entries : List (String × Setting)} (once : (entries.map Prod.fst).Nodup)
    (inside : ∀ entry ∈ entries, entry.2.Distinct) : Distinct (.table entries)

theorem lookup_eq_none_iff_not_mem {α : Type} {key : String} {entries : List (String × α)} :
    entries.lookup key = none ↔ key ∉ entries.map Prod.fst := by
  rw [List.lookup_eq_none_iff]
  constructor
  · intro other there
    obtain ⟨entry, here, rfl⟩ := List.mem_map.mp there
    simpa using other entry here
  · intro fresh entry there
    have other : key ≠ entry.1 := by
      rintro rfl
      exact fresh (List.mem_map_of_mem there)
    exact bne_iff_ne.mpr other

namespace Keyed

variable {α : Type} {valid : α → Prop} {entries : List (String × α)} {key : String} {value : α}

theorem nil : Keyed valid [] := ⟨List.nodup_nil, fun _ none => nomatch none⟩

theorem lookup (keyed : Keyed valid entries) (found : entries.lookup key = some value) : valid value := by
  obtain ⟨front, back, split, -⟩ := List.lookup_eq_some_iff.mp found
  exact keyed.inside (key, value) (by rw [split]; simp)

theorem cons (keyed : Keyed valid entries) (fresh : entries.lookup key = none) (sound : valid value) :
    Keyed valid ((key, value) :: entries) := by
  refine ⟨List.nodup_cons.mpr ⟨lookup_eq_none_iff_not_mem.mp fresh, keyed.once⟩, ?_⟩
  rintro _ (_ | ⟨_, there⟩)
  · exact sound
  · exact keyed.inside _ there

theorem mem_keys_insert {other : String} (there : other ∈ (Setting.insert key value entries).map Prod.fst) :
    other = key ∨ other ∈ entries.map Prod.fst := by
  induction entries with
  | nil => exact .inl (by simpa [Setting.insert] using there)
  | cons entry rest ih =>
    obtain ⟨k, v⟩ := entry
    by_cases same : k = key
    · rw [Setting.insert, if_pos same, List.map_cons, List.mem_cons] at there
      exact there.imp_right fun below => .tail k below
    · rw [Setting.insert, if_neg same, List.map_cons, List.mem_cons] at there
      rcases there with rfl | below
      · exact .inr (.head _)
      · exact (ih below).imp_right fun below => .tail k below

theorem insert (keyed : Keyed valid entries) (sound : valid value) :
    Keyed valid (Setting.insert key value entries) := by
  induction entries with
  | nil => exact ⟨List.nodup_singleton key, by simpa [Setting.insert] using sound⟩
  | cons entry rest ih =>
    obtain ⟨k, v⟩ := entry
    obtain ⟨fresh, once⟩ := List.nodup_cons.mp keyed.once
    have below : Keyed valid rest := ⟨once, fun entry there => keyed.inside entry (.tail _ there)⟩
    by_cases same : k = key
    · subst same
      rw [Setting.insert, if_pos rfl]
      refine ⟨keyed.once, ?_⟩
      rintro _ (_ | ⟨_, there⟩)
      · exact sound
      · exact below.inside _ there
    · rw [Setting.insert, if_neg same]
      refine ⟨List.nodup_cons.mpr ⟨fun again => ?_, (ih below).once⟩, ?_⟩
      · exact (mem_keys_insert again).elim same fresh
      · rintro _ (_ | ⟨_, there⟩)
        · exact keyed.inside _ (.head rest)
        · exact (ih below).inside _ there

end Keyed

namespace Setting

theorem Distinct.of_keyed {entries : List (String × Setting)} (keyed : Keyed Distinct entries) :
    Distinct (.table entries) := .table keyed.once keyed.inside

theorem Distinct.keyed {setting : Setting} (distinct : setting.Distinct) : Keyed Distinct setting.entries := by
  cases distinct with
  | table once inside => exact ⟨once, inside⟩
  | nil | bool | integer | real | text | array => exact .nil

end Setting

/-! ## JSON -/

namespace Settings

open Json (Tree)

mutual

theorem distinct_settingOf? : ∀ {depth : Nat} {tree : Tree} {setting : Setting},
    settingOf? depth tree = some setting → setting.Distinct
  | depth, .null, setting, read => by
    cases read
    exact .nil
  | depth, .bool value, setting, read => by
    cases read
    exact .bool value
  | depth, .number number, setting, read => by
    obtain ⟨value, -, rfl⟩ := Option.map_eq_some_iff.mp read
    cases value with
    | integer n => exact .integer n
    | real x => exact .real x
  | depth, .text value, setting, read => by
    obtain ⟨text, -, rfl⟩ := Option.map_eq_some_iff.mp read
    exact .text text
  | depth, .array items, setting, read => by
    rw [settingOf?] at read
    by_cases room : depth < Json.nestingLimit
    · rw [if_pos room] at read
      obtain ⟨settings, inside, rfl⟩ := Option.map_eq_some_iff.mp read
      exact .array (distinct_itemsOf? inside)
    · rw [if_neg room] at read
      cases read
  | depth, .object members, setting, read => by
    rw [settingOf?] at read
    by_cases room : depth < Json.nestingLimit
    · rw [if_pos room] at read
      obtain ⟨entries, inside, rfl⟩ := Option.map_eq_some_iff.mp read
      exact .of_keyed (keyed_entriesOf? inside)
    · rw [if_neg room] at read
      cases read

theorem distinct_itemsOf? : ∀ {depth : Nat} {items : List Tree} {settings : List Setting},
    itemsOf? depth items = some settings → ∀ setting ∈ settings, setting.Distinct
  | depth, [], settings, read => by
    cases read
    intro setting none
    cases none
  | depth, item :: rest, settings, read => by
    obtain ⟨first, one, read⟩ := Option.bind_eq_some_iff.mp read
    obtain ⟨others, more, read⟩ := Option.bind_eq_some_iff.mp read
    cases read
    rintro _ (_ | ⟨_, there⟩)
    · exact distinct_settingOf? one
    · exact distinct_itemsOf? more _ there

theorem keyed_entriesOf? : ∀ {depth : Nat} {members : List (Option String × Tree)}
    {entries : List (String × Setting)}, entriesOf? depth members = some entries → Keyed Setting.Distinct entries
  | depth, [], entries, read => by
    cases read
    exact .nil
  | depth, member :: rest, entries, read => by
    obtain ⟨⟨key, value⟩, one, read⟩ := Option.bind_eq_some_iff.mp read
    obtain ⟨others, more, read⟩ := Option.bind_eq_some_iff.mp read
    have keyed := keyed_entriesOf? more
    cases repeated : others.lookup key with
    | some later =>
      simp only [repeated, Option.isSome_some, ite_true] at read
      cases read
      exact keyed
    | none =>
      simp only [repeated, Option.isSome_none, Bool.false_eq_true, ite_false] at read
      cases read
      exact keyed.cons repeated (distinct_entryOf? one)

theorem distinct_entryOf? : ∀ {depth : Nat} {member : Option String × Tree} {entry : String × Setting},
    entryOf? depth member = some entry → entry.2.Distinct
  | depth, (key, tree), entry, read => by
    obtain ⟨name, -, read⟩ := Option.bind_eq_some_iff.mp read
    obtain ⟨setting, value, read⟩ := Option.bind_eq_some_iff.mp read
    cases read
    exact distinct_settingOf? value

end

theorem keyed_jsonEntries? {text : String} {entries : List (String × Setting)}
    (read : jsonEntries? text = some entries) : Keyed Setting.Distinct entries := by
  unfold jsonEntries? at read
  split at read
  · next table =>
    cases read
    obtain ⟨tree, -, table⟩ := Option.bind_eq_some_iff.mp table
    exact (distinct_settingOf? table).keyed
  · cases read

end Settings

end Residency
