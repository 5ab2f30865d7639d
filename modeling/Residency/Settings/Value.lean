import Residency.Bytes
import Residency.Text

/-!
# Values of settings and their keys

What a source gives, the keys it is given under, how values convert, and what variables
say.
-/

/-!
## Values of settings

Files and the environment give values of their own kinds; tables hold values by
name. Setting a table merges it, name by name, into what is there, and any other
value replaces what is there.
-/

namespace Residency

inductive Setting where
  | nil
  | bool (value : Bool)
  | integer (value : Int)
  | real (value : Binary64)
  | text (value : String)
  | array (items : List Setting)
  | table (entries : List (String × Setting))

/-- Characters of names that need no quotes. -/
def isNameChar (c : Char) : Bool :=
  isDigit c || (97 ≤ c.toNat && c.toNat ≤ 122) || (65 ≤ c.toNat && c.toNat ≤ 90) || c = '_' || c = '-'

namespace Setting

/-- The entries with one of them set. -/
def insert {α : Type} (key : String) (value : α) : List (String × α) → List (String × α)
  | [] => [(key, value)]
  | (k, v) :: rest => if k = key then (key, value) :: rest else (k, v) :: insert key value rest

/-- The entries of a table; anything else has none. -/
def entries : Setting → List (String × Setting)
  | .table entries => entries
  | _ => []

/-- The items of an array; anything else has none. -/
def items : Setting → List Setting
  | .array items => items
  | _ => []

mutual

/-- What is there after a value is set over it. -/
def merge (old : Setting) : Setting → Setting
  | .table incoming => .table (mergeEntries old.entries incoming)
  | value => value

/-- Sets the incoming entries one after the other. -/
def mergeEntries (entries : List (String × Setting)) : List (String × Setting) → List (String × Setting)
  | [] => entries
  | entry :: rest => mergeEntries (mergeEntry entries entry) rest

def mergeEntry (entries : List (String × Setting)) : String × Setting → List (String × Setting)
  | (key, value) => insert key (merge ((entries.lookup key).getD .nil) value) entries

end

@[simp] theorem lookup_insert_self {α : Type} (key : String) (value : α) (entries : List (String × α)) :
    (insert key value entries).lookup key = some value := by
  induction entries with
  | nil => simp [insert]
  | cons entry rest ih =>
    obtain ⟨k, v⟩ := entry
    by_cases h : k = key
    · simp [insert, h]
    · have h' : (key == k) = false := by simpa using fun e => h e.symm
      simp [insert, h, List.lookup_cons, h', ih]

theorem lookup_insert_of_ne {α : Type} {key other : String} (value : α) (entries : List (String × α))
    (h : other ≠ key) : (insert key value entries).lookup other = entries.lookup other := by
  have h' : (other == key) = false := by simpa using h
  induction entries with
  | nil => simp [insert, List.lookup_cons, h']
  | cons entry rest ih =>
    obtain ⟨k, v⟩ := entry
    by_cases hk : k = key
    · simp [insert, hk, List.lookup_cons, h']
    · simp [insert, hk, List.lookup_cons, ih]

end Setting

end Residency

/-!
## Paths to settings

A path is a name followed by more names, each behind a dot, and indices in
brackets, where blanks may stand around them. Names have letters, digits,
underscores and hyphens. A key that is no path stands for itself. Steps that find
nothing, or something of another kind, make room for what they need.
-/

namespace Residency.Settings

inductive Step where
  | key (name : String)
  | index (position : Int)
deriving DecidableEq

/-- Where a reader of paths stands. -/
inductive PathPosition where
  | name (done : List Step) (reversed : List Char)
  /-- Between brackets: what stands there so far. -/
  | index (done : List Step) (reversed : List Char)
  /-- Behind a closing bracket. -/
  | closed (done : List Step)

def closeName (done : List Step) (reversed : List Char) : Option (List Step) :=
  if reversed.isEmpty then none else some (.key (String.ofList reversed.reverse) :: done)

def isIndexBlank (c : Char) : Bool := c = ' ' || c = '\t'

/-- Indices have at least one digit, may be negative and fit 64 bits. -/
def closeIndex (done : List Step) (reversed : List Char) : Option (List Step) :=
  match (reversed.dropWhile isIndexBlank).reverse.dropWhile isIndexBlank with
  | '+' :: _ => none
  | digits => (readInt64? digits).map fun n => .index n :: done

def pathStep (position : PathPosition) (c : Char) : Option PathPosition :=
  match position with
  | .name done reversed =>
    if isNameChar c then some (.name done (c :: reversed))
    else if c = '.' then (closeName done reversed).map (.name · [])
    else if c = '[' then (closeName done reversed).map (.index · [])
    else none
  | .index done reversed =>
    if c = ']' then (closeIndex done reversed).map .closed
    else some (.index done (c :: reversed))
  | .closed done =>
    if c = '.' then some (.name done [])
    else if c = '[' then some (.index done [])
    else none

def pathEnd : PathPosition → Option (List Step)
  | .name done reversed => closeName done reversed
  | .index _ _ => none
  | .closed done => some done

/-- The steps that a key spells. -/
def path? (key : String) : Option (List Step) :=
  ((key.toList.foldlM pathStep (.name [] [])).bind pathEnd).map List.reverse

/-- The steps to take for a key. -/
def pathOf (key : String) : List Step := (path? key).getD [.key key]

/-- Changes the item at a position of a list. Positions from the end are
negative; items that are missing at either end are made. -/
def modifyItem (position : Int) (change : Setting → Setting) (items : List Setting) : List Setting :=
  let size : Int := items.length
  let items :=
    if position < -size then List.replicate (-size - position).toNat .nil ++ items
    else items ++ List.replicate (position + 1 - size).toNat .nil
  let place := if position < -size then 0 else if position < 0 then (size + position).toNat else position.toNat
  items.modify place change

/-- Sets a value where some steps lead. -/
def setAt (value : Setting) : List Step → Setting → Setting
  | [], old => old.merge value
  | .key name :: rest, old =>
    .table (Setting.insert name (setAt value rest ((old.entries.lookup name).getD .nil)) old.entries)
  | .index position :: rest, old => .array (modifyItem position (setAt value rest) old.items)

/-- Sets one key of a source over what the sources before it left. -/
def setKey (settings : Setting) (key : String) (value : Setting) : Setting := setAt value (pathOf key) settings

/-- Sets all keys of a source. -/
def setAll (settings : Setting) (source : List (String × Setting)) : Setting :=
  source.foldl (fun settings (key, value) => setKey settings key value) settings

end Residency.Settings

/-!
## Settings as values of a kind

Truth values, numbers and texts stand for each other where they can; tables,
arrays and what is null never do.
-/

namespace Residency.Setting

def isTrueWord (text : String) : Bool := ["true", "on", "yes"].contains (Text.lower text)

def isFalseWord (text : String) : Bool := ["false", "off", "no"].contains (Text.lower text)

/-- A natural that fits 32 bits. -/
def uint32? (n : Int) : Option UInt32 := if 0 ≤ n ∧ n < UInt32.size then some (UInt32.ofNat n.toNat) else none

/-- Fractions are rounded, and what lies below zero becomes zero. -/
def toUInt32? : Setting → Option UInt32
  | .bool value => some (if value then 1 else 0)
  | .integer value => uint32? value
  | .real value => uint32? value.toUInt64
  | .text value =>
    if isTrueWord value then some 1
    else if isFalseWord value then some 0
    else (readUInt64? value.toList).bind fun n => uint32? n
  | _ => none

/-- Every number but zero is true. -/
def toBool? : Setting → Option Bool
  | .bool value => some value
  | .integer value => some (value != 0)
  | .real value => some !value.isZero
  | .text value =>
    if value = "1" ∨ isTrueWord value then some true
    else if value = "0" ∨ isFalseWord value then some false
    else none
  | _ => none

def toText? : Setting → Option String
  | .bool value => some (if value then "true" else "false")
  | .integer value => some (toString value)
  | .real value => some value.text
  | .text value => some value
  | _ => none

end Residency.Setting

/-!
## Settings from the environment

Names are read without regard to case. Those of the program begin with its own;
two underscores part the names of a path. Values that look like truth values or
numbers are such, and all others, the empty one too, are texts.
-/

namespace Residency.Settings

def environmentStart : List Char := "hsmdump_".toList

/-- A point in place of every two underscores. -/
def joinNames : List Char → List Char
  | [] => []
  | '_' :: '_' :: rest => '.' :: joinNames rest
  | c :: rest => c :: joinNames rest

/-- The key that a variable sets. -/
def environmentKey? (name : String) : Option String :=
  let name := Text.lowerChars name.toList
  if environmentStart.isPrefixOf name then some (String.ofList (joinNames (name.drop environmentStart.length)))
  else none

def environmentValue (value : String) : Setting :=
  if Text.lower value = "true" then .bool true
  else if Text.lower value = "false" then .bool false
  else
    match readInt64? value.toList, Binary64.ofText? value.toList with
    | some n, _ => .integer n
    | none, some x => .real x
    | none, none => .text value

/-- A variable sets a key, and its value is not text. -/
structure NotText where
  key : String
deriving DecidableEq

/-- The settings that an environment makes. Of the variables of one key the last counts. -/
def environmentSource : Environment → Except NotText (List (String × Setting))
  | [] => .ok []
  | (name, value) :: rest =>
    match name.text?.bind environmentKey? with
    | none => environmentSource rest
    | some key =>
      match value.text? with
      | none => .error ⟨key⟩
      | some text => (environmentSource rest).map fun source =>
        if (source.lookup key).isSome then source else (key, environmentValue text) :: source

end Residency.Settings
