import Residency.Bytes
import Residency.Text

/-!
# JSON

Documents that are written, and the reader of JSON text.
-/

/-!
## JSON documents to be written

Numbers are integers; no report holds any other. Members are written in the
order given, each line indented by two spaces a level. In texts the quote, the
backslash and the control characters are escaped and nothing else.
-/

namespace Residency

inductive Json where
  | null
  | bool (value : Bool)
  | number (value : Int)
  | text (value : String)
  | array (items : List Json)
  | object (members : List (String × Json))

namespace Json

def escapeChar (c : Char) : List Char :=
  match c with
  | '"' => ['\\', '"']
  | '\\' => ['\\', '\\']
  | '\n' => ['\\', 'n']
  | '\r' => ['\\', 'r']
  | '\t' => ['\\', 't']
  | c =>
    if c.toNat = 8 then ['\\', 'b']
    else if c.toNat = 12 then ['\\', 'f']
    else if c.toNat < 32 then
      ['\\', 'u', '0', '0', Hex.digitChar (c.toNat / 16), Hex.digitChar (c.toNat % 16)]
    else [c]

def quoted (s : String) : List Char := '"' :: s.toList.flatMap escapeChar ++ ['"']

/-- The line break before something at a level. -/
def lineBreak (level : Nat) : List Char := '\n' :: List.replicate (2 * level) ' '

mutual

/-- The text of a value whose first line stands at a level. -/
def pretty (level : Nat) : Json → List Char
  | .null => ['n', 'u', 'l', 'l']
  | .bool true => ['t', 'r', 'u', 'e']
  | .bool false => ['f', 'a', 'l', 's', 'e']
  | .number n => (toString n).toList
  | .text s => quoted s
  | .array [] => ['[', ']']
  | .array items => '[' :: prettyItems (level + 1) items ++ lineBreak level ++ [']']
  | .object [] => ['{', '}']
  | .object members => '{' :: prettyMembers (level + 1) members ++ lineBreak level ++ ['}']

def prettyItems (level : Nat) : List Json → List Char
  | [] => []
  | [last] => lineBreak level ++ pretty level last
  | item :: rest => lineBreak level ++ pretty level item ++ ',' :: prettyItems level rest

def prettyMembers (level : Nat) : List (String × Json) → List Char
  | [] => []
  | [last] => prettyMember level last
  | member :: rest => prettyMember level member ++ ',' :: prettyMembers level rest

def prettyMember (level : Nat) : String × Json → List Char
  | (key, value) => lineBreak level ++ quoted key ++ [':', ' '] ++ pretty level value

end

/-- The document, ended by a line break. -/
def document (value : Json) : String := String.ofList (value.pretty 0 ++ ['\n'])

def ofOption {α : Type} (write : α → Json) : Option α → Json
  | some a => write a
  | none => .null

end Json

end Residency

/-!
## Words of JSON text

Texts keep their escapes decoded. Escapes may name halves of surrogate pairs; a
half without its partner stands for no character, so the decoded text is then
missing, which matters only where the text is used.
-/

namespace Residency.Json

/-- A number as written. -/
structure NumberText where
  negative : Bool
  whole : List Char
  fraction : Option (List Char)
  /-- Sign and digits of the exponent. -/
  exponent : Option (Bool × List Char)
deriving DecidableEq

inductive Token where
  | leftBracket
  | rightBracket
  | leftBrace
  | rightBrace
  | comma
  | colon
  | null
  | bool (value : Bool)
  | number (value : NumberText)
  | text (value : Option String)
deriving DecidableEq

/-- The characters that a list of 16-bit units and plain code points stands for. -/
def joinUnits : List Nat → Option (List Char)
  | [] => some []
  | unit :: rest =>
    if 0xD800 ≤ unit ∧ unit < 0xDC00 then
      match rest with
      | low :: rest =>
        if 0xDC00 ≤ low ∧ low < 0xE000 then
          (joinUnits rest).map (Char.ofNat (0x10000 + (unit - 0xD800) * 0x400 + (low - 0xDC00)) :: ·)
        else none
      | [] => none
    else if 0xDC00 ≤ unit ∧ unit < 0xE000 then none
    else (joinUnits rest).map (Char.ofNat unit :: ·)

/-- The character that a one-letter escape stands for. -/
def letterEscape? : Char → Option Nat
  | '"' => some 34
  | '\\' => some 92
  | '/' => some 47
  | 'b' => some 8
  | 'f' => some 12
  | 'n' => some 10
  | 'r' => some 13
  | 't' => some 9
  | _ => none

/-- Units up to the closing quote, and what follows it. -/
def scanText : List Char → Option (List Nat × List Char)
  | [] => none
  | '"' :: rest => some ([], rest)
  | '\\' :: 'u' :: a :: b :: c :: d :: rest => do
    let unit ← hexNumber? [a, b, c, d]
    let (units, rest) ← scanText rest
    pure (unit :: units, rest)
  | '\\' :: letter :: rest => do
    let unit ← letterEscape? letter
    let (units, rest) ← scanText rest
    pure (unit :: units, rest)
  | c :: rest =>
    if c = '\\' ∨ c.toNat < 32 then none
    else (scanText rest).map fun (units, rest) => (c.toNat :: units, rest)

/-- Digits of an integer: a zero alone, or digits that start with none. -/
def scanWhole (text : List Char) : Option (List Char × List Char) :=
  match text.takeWhile isDigit with
  | [] => none
  | '0' :: _ :: _ => none
  | digits => some (digits, text.dropWhile isDigit)

/-- At least one digit. -/
def scanDigits (text : List Char) : Option (List Char × List Char) :=
  match text.takeWhile isDigit with
  | [] => none
  | digits => some (digits, text.dropWhile isDigit)

def scanFraction : List Char → Option (Option (List Char) × List Char)
  | '.' :: rest => (scanDigits rest).map fun (digits, rest) => (some digits, rest)
  | rest => some (none, rest)

def scanSignedDigits (negative : Bool) (text : List Char) : Option (Option (Bool × List Char) × List Char) :=
  (scanDigits text).map fun (digits, rest) => (some (negative, digits), rest)

def scanExponent : List Char → Option (Option (Bool × List Char) × List Char)
  | c :: rest =>
    if c = 'e' ∨ c = 'E' then
      match rest with
      | '-' :: rest => scanSignedDigits true rest
      | '+' :: rest => scanSignedDigits false rest
      | rest => scanSignedDigits false rest
    else some (none, c :: rest)
  | [] => some (none, [])

def scanNumber (negative : Bool) (text : List Char) : Option (NumberText × List Char) := do
  let (whole, rest) ← scanWhole text
  let (fraction, rest) ← scanFraction rest
  let (exponent, rest) ← scanExponent rest
  pure (⟨negative, whole, fraction, exponent⟩, rest)

/-- The first word of a text that starts with none of the blanks. -/
def scanToken : List Char → Option (Token × List Char)
  | '[' :: rest => some (.leftBracket, rest)
  | ']' :: rest => some (.rightBracket, rest)
  | '{' :: rest => some (.leftBrace, rest)
  | '}' :: rest => some (.rightBrace, rest)
  | ',' :: rest => some (.comma, rest)
  | ':' :: rest => some (.colon, rest)
  | 'n' :: 'u' :: 'l' :: 'l' :: rest => some (.null, rest)
  | 't' :: 'r' :: 'u' :: 'e' :: rest => some (.bool true, rest)
  | 'f' :: 'a' :: 'l' :: 's' :: 'e' :: rest => some (.bool false, rest)
  | '"' :: rest => (scanText rest).map fun (units, rest) => (.text ((joinUnits units).map String.ofList), rest)
  | '-' :: rest => (scanNumber true rest).map fun (value, rest) => (.number value, rest)
  | rest => (scanNumber false rest).map fun (value, rest) => (.number value, rest)

/-! ### Every word takes a character at least -/

theorem length_scanText_lt {text rest : List Char} {units : List Nat} (h : scanText text = some (units, rest)) :
    rest.length < text.length := by
  fun_induction scanText text generalizing units rest with
  | case1 => simp at h
  | case2 => simp_all
  | case3 a b c d text ih =>
    simp only [Option.bind_eq_bind, Option.bind_eq_some_iff] at h
    obtain ⟨_, _, ⟨_, _⟩, h', h''⟩ := h
    have := ih h'
    simp_all
    omega
  | case4 letter text _ ih =>
    simp only [Option.bind_eq_bind, Option.bind_eq_some_iff] at h
    obtain ⟨_, _, ⟨_, _⟩, h', h''⟩ := h
    have := ih h'
    simp_all
    omega
  | case5 => simp at h
  | case6 c text _ _ _ _ ih =>
    obtain ⟨⟨_, _⟩, h', h''⟩ := Option.map_eq_some_iff.1 h
    have := ih h'
    simp_all
    omega

theorem length_dropWhile_lt {p : Char → Bool} {text : List Char} (h : text.takeWhile p ≠ []) :
    (text.dropWhile p).length < text.length := by
  have := congrArg List.length (List.takeWhile_append_dropWhile (p := p) (l := text))
  have := List.length_pos_iff.2 h
  simp only [List.length_append] at *
  omega

theorem length_scanDigits_lt {text digits rest : List Char} (h : scanDigits text = some (digits, rest)) :
    rest.length < text.length := by
  unfold scanDigits at h
  split at h
  · simp at h
  · next hd =>
    obtain ⟨_, rfl⟩ := Prod.mk.inj (Option.some.inj h)
    exact length_dropWhile_lt hd

theorem length_scanWhole_lt {text digits rest : List Char} (h : scanWhole text = some (digits, rest)) :
    rest.length < text.length := by
  unfold scanWhole at h
  split at h
  · simp at h
  · simp at h
  · next hd _ =>
    obtain ⟨_, rfl⟩ := Prod.mk.inj (Option.some.inj h)
    exact length_dropWhile_lt hd

theorem length_scanFraction_le {text rest : List Char} {digits : Option (List Char)}
    (h : scanFraction text = some (digits, rest)) : rest.length ≤ text.length := by
  unfold scanFraction at h
  split at h
  · obtain ⟨⟨_, _⟩, h', h''⟩ := Option.map_eq_some_iff.1 h
    obtain ⟨_, rfl⟩ := Prod.mk.inj h''
    have := length_scanDigits_lt h'
    simp only [List.length_cons]
    omega
  · obtain ⟨_, rfl⟩ := Prod.mk.inj (Option.some.inj h)
    exact Nat.le_refl _

theorem length_scanSignedDigits_lt {negative : Bool} {text rest : List Char} {digits : Option (Bool × List Char)}
    (h : scanSignedDigits negative text = some (digits, rest)) : rest.length < text.length := by
  obtain ⟨⟨_, _⟩, h', h''⟩ := Option.map_eq_some_iff.1 h
  obtain ⟨_, rfl⟩ := Prod.mk.inj h''
  exact length_scanDigits_lt h'

theorem length_scanExponent_le {text rest : List Char} {digits : Option (Bool × List Char)}
    (h : scanExponent text = some (digits, rest)) : rest.length ≤ text.length := by
  unfold scanExponent at h
  split at h
  · split at h
    · split at h
      all_goals
        have := length_scanSignedDigits_lt h
        simp only [List.length_cons] at *
        omega
    · obtain ⟨_, rfl⟩ := Prod.mk.inj (Option.some.inj h)
      exact Nat.le_refl _
  · obtain ⟨_, rfl⟩ := Prod.mk.inj (Option.some.inj h)
    exact Nat.le_refl _

theorem length_scanNumber_lt {negative : Bool} {text rest : List Char} {number : NumberText}
    (h : scanNumber negative text = some (number, rest)) : rest.length < text.length := by
  unfold scanNumber at h
  simp only [Option.bind_eq_bind, Option.bind_eq_some_iff] at h
  obtain ⟨⟨_, afterWhole⟩, hw, ⟨_, afterFraction⟩, hf, ⟨_, _⟩, he, h⟩ := h
  obtain ⟨_, rfl⟩ := Prod.mk.inj (Option.some.inj h)
  exact Nat.lt_of_le_of_lt (length_scanExponent_le he)
    (Nat.lt_of_le_of_lt (length_scanFraction_le hf) (length_scanWhole_lt hw))

theorem length_scanToken_lt {text rest : List Char} {token : Token} (h : scanToken text = some (token, rest)) :
    rest.length < text.length := by
  unfold scanToken at h
  split at h
  case h_10 =>
    obtain ⟨⟨_, _⟩, h', h''⟩ := Option.map_eq_some_iff.1 h
    obtain ⟨_, rfl⟩ := Prod.mk.inj h''
    exact Nat.lt_succ_of_lt (length_scanText_lt h')
  case h_11 =>
    obtain ⟨⟨_, _⟩, h', h''⟩ := Option.map_eq_some_iff.1 h
    obtain ⟨_, rfl⟩ := Prod.mk.inj h''
    exact Nat.lt_succ_of_lt (length_scanNumber_lt h')
  case h_12 =>
    obtain ⟨⟨_, _⟩, h', h''⟩ := Option.map_eq_some_iff.1 h
    obtain ⟨_, rfl⟩ := Prod.mk.inj h''
    exact length_scanNumber_lt h'
  all_goals
    obtain ⟨_, rfl⟩ := Prod.mk.inj (Option.some.inj h)
    simp only [List.length_cons]
    omega

def isBlank (c : Char) : Bool := c = ' ' || c = '\n' || c = '\t' || c = '\r'

theorem length_dropBlank_le (text : List Char) : (text.dropWhile isBlank).length ≤ text.length :=
  (List.dropWhile_sublist isBlank).length_le

/-- All words of a text, if there are at most so many. -/
def tokensUpTo : Nat → List Char → Option (List Token)
  | 0, input => if (input.dropWhile isBlank).isEmpty then some [] else none
  | n + 1, input =>
    if (input.dropWhile isBlank).isEmpty then some []
    else
      match scanToken (input.dropWhile isBlank) with
      | none => none
      | some (token, after) => (tokensUpTo n after).map (token :: ·)

/-- All words of a text. It has no more of them than characters. -/
def tokens (text : List Char) : Option (List Token) := tokensUpTo text.length text

theorem tokensUpTo_eq_tokensUpTo {n m : Nat} {text : List Char} (hn : text.length ≤ n) (hm : text.length ≤ m) :
    tokensUpTo n text = tokensUpTo m text := by
  induction n generalizing m text with
  | zero =>
    have : text = [] := List.length_eq_zero_iff.1 (Nat.le_zero.1 hn)
    cases m <;> simp [tokensUpTo, this]
  | succ n ih =>
    cases m with
    | zero =>
      have : text = [] := List.length_eq_zero_iff.1 (Nat.le_zero.1 hm)
      simp [tokensUpTo, this]
    | succ m =>
      simp only [tokensUpTo]
      split
      · rfl
      · split
        · rfl
        · next after h =>
          have := length_scanToken_lt h
          have := length_dropBlank_le text
          rw [ih (m := m) (by omega) (by omega)]

theorem tokensUpTo_eq {n : Nat} {text : List Char} (h : text.length ≤ n) : tokensUpTo n text = tokens text :=
  tokensUpTo_eq_tokensUpTo h (Nat.le_refl _)

/-!
## Trees of JSON text

A tree keeps everything that is written: numbers as their text, members in their
order with all repetitions. The reader goes once over the words and keeps the
containers that are still open in a list, so nesting is not limited here.
-/

inductive Tree where
  | null
  | bool (value : Bool)
  | number (value : NumberText)
  | text (value : Option String)
  | array (items : List Tree)
  | object (members : List (Option String × Tree))

namespace Tree

/-- An open container: what it holds so far, the latest first. A member's key
waits for its value. -/
inductive Frame where
  | items (done : List Tree)
  | members (done : List (Option String × Tree)) (key : Option String)

/-- Where the reader stands, with the containers around it, innermost first. -/
inductive Position where
  | value (around : List Frame)
  /-- Behind an opening bracket. -/
  | firstItem (around : List Frame)
  | key (done : List (Option String × Tree)) (mayClose : Bool) (around : List Frame)
  | colon (done : List (Option String × Tree)) (key : Option String) (around : List Frame)
  /-- Behind a complete value. -/
  | complete (value : Tree) (around : List Frame)

/-- A word where a value must stand. -/
def stepValue (around : List Frame) : Token → Option Position
  | .null => some (.complete .null around)
  | .bool b => some (.complete (.bool b) around)
  | .number n => some (.complete (.number n) around)
  | .text s => some (.complete (.text s) around)
  | .leftBracket => some (.firstItem around)
  | .leftBrace => some (.key [] true around)
  | _ => none

/-- A word behind a complete value: it goes on with the innermost container or ends it. -/
def stepComplete (value : Tree) : List Frame → Token → Option Position
  | .items done :: around, .comma => some (.value (.items (value :: done) :: around))
  | .items done :: around, .rightBracket => some (.complete (.array (value :: done).reverse) around)
  | .members done key :: around, .comma => some (.key ((key, value) :: done) false around)
  | .members done key :: around, .rightBrace => some (.complete (.object ((key, value) :: done).reverse) around)
  | _, _ => none

def step : Position → Token → Option Position
  | .value around, token => stepValue around token
  | .firstItem around, .rightBracket => some (.complete (.array []) around)
  | .firstItem around, token => stepValue (.items [] :: around) token
  | .key done _ around, .text key => some (.colon done key around)
  | .key _ true around, .rightBrace => some (.complete (.object []) around)
  | .key _ _ _, _ => none
  | .colon done key around, .colon => some (.value (.members done key :: around))
  | .colon _ _ _, _ => none
  | .complete value around, token => stepComplete value around token

def readTokens : Position → List Token → Option Tree
  | .complete value [], [] => some value
  | _, [] => none
  | position, token :: rest => (step position token).bind fun position => readTokens position rest

/-- The one value that a text holds. -/
def ofText? (text : String) : Option Tree := (tokens text.toList).bind (readTokens (.value []))

end Tree

/-!
## Values of JSON numbers

A whole number in the range of a signed or unsigned 64-bit number is one. Any
other number is a significand of 64 bits times a power of ten: digits that no
longer fit count as zeros before the point and are dropped behind it. That
product is rounded once for the significand, once for the power and once for the
result, which is not always the nearest number.
-/

inductive NumberValue where
  | integer (value : Int)
  | real (value : Binary64)
deriving DecidableEq

/-- Takes digits into a significand while it fits 64 bits. The rest begins with
the first digit that does not fit. -/
def takeDigits (significand : Nat) : List Char → Nat × List Char
  | [] => (significand, [])
  | c :: rest =>
    let next := 10 * significand + digitValue c
    if next < UInt64.size then takeDigits next rest else (significand, c :: rest)

/-- Tenth powers up to this are within range. -/
def powerLimit : Int := 308

/-- A power of ten as a binary64 number. -/
def power (exponent : Nat) : Binary64 := .ofNat (raise 10 exponent 1)

/-- The significand times a power of ten, or none beyond the range. Far below the
range it is divided in two steps; a third would leave nothing. -/
def scale (significand : Nat) (exponent : Int) : Option Binary64 :=
  let f := Binary64.ofNat significand
  if powerLimit < exponent then if f.isZero then some f else none
  else if 0 ≤ exponent then
    let product := f.mul (power exponent.toNat)
    if product.isInfinite then none else some product
  else if -powerLimit ≤ exponent then some (f.div (power (-exponent).toNat))
  else if -2 * powerLimit ≤ exponent then
    some ((f.div (power powerLimit.toNat)).div (power (-exponent - powerLimit).toNat))
  else some (.zero false)

/-- Greatest exponent that is read; a longer one is settled without the digits. -/
def exponentLimit : Nat := Int32.maxValue.toNatClampNeg

/-- The value of a number with a fraction, an exponent or too many digits. -/
def realValue (number : NumberText) : Option Binary64 :=
  let (significand, left) := takeDigits 0 number.whole
  let (significand, shift) : Nat × Int :=
    match number.fraction with
    | none => (significand, left.length)
    | some fraction =>
      let (longer, dropped) := takeDigits significand fraction
      (longer, (left.length : Int) - (fraction.length - dropped.length : Nat))
  let magnitude :=
    match number.exponent with
    | none => scale significand shift
    | some (negative, digits) =>
      let exponent := digitsValue digits
      if exponentLimit < exponent then
        if significand ≠ 0 ∧ !negative then none else some (.zero false)
      else scale significand (if negative then shift - exponent else shift + exponent)
  magnitude.map fun value => if number.negative then value.neg else value

/-- The value of a number, or none if it is out of range. A negative zero is not
an integer. -/
def NumberText.value? (number : NumberText) : Option NumberValue :=
  let n := digitsValue number.whole
  let plain := number.fraction.isNone && number.exponent.isNone
  if plain && !number.negative && n < UInt64.size then some (.integer n)
  else if plain && number.negative && 0 < n && n ≤ UInt64.size / 2 then some (.integer (-n))
  else (realValue number).map .real

end Residency.Json
