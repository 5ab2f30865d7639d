import Residency.Text

/-!
# Words of TOML text

Words are kept as written, since only their place decides whether they are keys
or values; points stand apart from them. Quoted texts keep their escapes decoded.
A comment reads as the line break that ends it. A carriage return stands only
before a line feed, with which it is one line break.
-/

namespace Residency.Toml

inductive Token where
  | leftBracket
  | rightBracket
  | leftBrace
  | rightBrace
  | comma
  | point
  | equals
  | lineBreak
  | blank (c : Char)
  | word (text : List Char)
  /-- A quoted text, on one line or as a block of lines. -/
  | text (block : Bool) (value : List Char)
deriving DecidableEq

/-- Characters that stand nowhere but in line breaks. -/
def isControl (c : Char) : Bool := (c.toNat < 32 && c != '\t') || c.toNat = 127

def isBlank (c : Char) : Bool := c = ' ' || c = '\t'

/-- The character of a code point, which must not be half of a surrogate pair. -/
def codePoint? (code : Nat) : Option Char :=
  if code < 0xD800 ∨ (0xDFFF < code ∧ code < 0x110000) then some (Char.ofNat code) else none

def letterEscape? : Char → Option Char
  | '"' => some '"'
  | '\\' => some '\\'
  | 'b' => some '\x08'
  | 'e' => some '\x1b'
  | 'f' => some '\x0c'
  | 'n' => some '\n'
  | 'r' => some '\r'
  | 't' => some '\t'
  | _ => none

/-- Content of a text and what follows its closing quotes. -/
abbrev Scanned := Option (List Char × List Char)

/-- One more character in front of the content. -/
def Scanned.after (c : Option Char) (scanned : Scanned) : Scanned := do
  let c ← c
  let (content, rest) ← scanned
  pure (c :: content, rest)

/-- The end of a block at the first of its quotes. The block ends with three of
them; up to two more before these belong to it. -/
def blockEnd? (quote : Char) : List Char → Scanned
  | a :: b :: c :: d :: e :: rest =>
    if a = quote ∧ b = quote ∧ c = quote then
      if d = quote ∧ e = quote then some ([quote, quote], rest)
      else if d = quote then some ([quote], e :: rest)
      else some ([], d :: e :: rest)
    else none
  | [a, b, c, d] =>
    if a = quote ∧ b = quote ∧ c = quote then
      if d = quote then some ([quote], []) else some ([], [d])
    else none
  | [a, b, c] => if a = quote ∧ b = quote ∧ c = quote then some ([], []) else none
  | _ => none

/-- A character of a text that stands for itself. Blocks go on over line breaks. -/
def plain? (block : Bool) (c : Char) : Option Char :=
  if isControl c && !(block && c = '\n') then none else some c

/-- A text between single quotes, where nothing is escaped. -/
def scanLiteral (block : Bool) : List Char → Scanned
  | [] => none
  | '\r' :: '\n' :: rest =>
    if block then ((scanLiteral block rest).after (some '\n')).after (some '\r') else none
  | c :: rest =>
    if c = '\'' then
      if block then (blockEnd? '\'' (c :: rest)).or ((scanLiteral block rest).after c)
      else some ([], rest)
    else (scanLiteral block rest).after (plain? block c)

def startsLineBreak : List Char → Bool
  | '\n' :: _ => true
  | '\r' :: '\n' :: _ => true
  | _ => false

/-- Only blanks come before the end of the line. -/
def endsLine (text : List Char) : Bool := startsLineBreak (text.dropWhile isBlank)

/-- A text between double quotes. A backslash at the end of a line of a block
drops all blanks and line breaks that follow; `dropping` says that this goes on. -/
def scanBasic (block dropping : Bool) : List Char → Scanned
  | [] => none
  | '\\' :: 'x' :: a :: b :: rest => (scanBasic block false rest).after ((hexNumber? [a, b]).bind codePoint?)
  | '\\' :: 'u' :: a :: b :: c :: d :: rest =>
    (scanBasic block false rest).after ((hexNumber? [a, b, c, d]).bind codePoint?)
  | '\\' :: 'U' :: a :: b :: c :: d :: e :: f :: g :: h :: rest =>
    (scanBasic block false rest).after ((hexNumber? [a, b, c, d, e, f, g, h]).bind codePoint?)
  | '\\' :: c :: rest =>
    if block && endsLine (c :: rest) then scanBasic block true (c :: rest)
    else (scanBasic block false rest).after (letterEscape? c)
  | '\r' :: '\n' :: rest =>
    if !block then none
    else if dropping then scanBasic block true rest
    else ((scanBasic block false rest).after (some '\n')).after (some '\r')
  | c :: rest =>
    if c = '\\' then none
    else if dropping && (isBlank c || c = '\n') then scanBasic block true rest
    else if c = '"' then
      if block then (blockEnd? '"' (c :: rest)).or ((scanBasic block false rest).after c)
      else some ([], rest)
    else (scanBasic block false rest).after (plain? block c)

/-- A line break right after the opening quotes of a block does not belong to it. -/
def dropLineBreak : List Char → List Char
  | '\n' :: rest => rest
  | '\r' :: '\n' :: rest => rest
  | rest => rest

/-- Characters that end a word. -/
def endsWord (c : Char) : Bool := ['.', '=', ',', '[', ']', '{', '}', ' ', '\t', '#', '\n', '\r'].contains c

/-- What follows a comment and the line break that ends it. The last line may end
with the text. -/
def scanComment (text : List Char) : Option (Token × List Char) :=
  match text.dropWhile (!isControl ·) with
  | [] => some (.lineBreak, [])
  | '\n' :: rest => some (.lineBreak, rest)
  | '\r' :: '\n' :: rest => some (.lineBreak, rest)
  | _ => none

/-- The first word of a text. -/
def scanToken : List Char → Option (Token × List Char)
  | '[' :: rest => some (.leftBracket, rest)
  | ']' :: rest => some (.rightBracket, rest)
  | '{' :: rest => some (.leftBrace, rest)
  | '}' :: rest => some (.rightBrace, rest)
  | ',' :: rest => some (.comma, rest)
  | '.' :: rest => some (.point, rest)
  | '=' :: rest => some (.equals, rest)
  | '\n' :: rest => some (.lineBreak, rest)
  | '\r' :: '\n' :: rest => some (.lineBreak, rest)
  | '#' :: rest => scanComment rest
  | '"' :: '"' :: '"' :: rest =>
    (scanBasic true false (dropLineBreak rest)).map fun (content, rest) => (.text true content, rest)
  | '"' :: rest => (scanBasic false false rest).map fun (content, rest) => (.text false content, rest)
  | '\'' :: '\'' :: '\'' :: rest =>
    (scanLiteral true (dropLineBreak rest)).map fun (content, rest) => (.text true content, rest)
  | '\'' :: rest => (scanLiteral false rest).map fun (content, rest) => (.text false content, rest)
  | c :: rest =>
    if isBlank c then some (.blank c, rest)
    else if c = '\r' then none
    else some (.word (c :: rest.takeWhile (!endsWord ·)), rest.dropWhile (!endsWord ·))
  | [] => none

/-! ## Every word takes a character at least -/

theorem Scanned.of_after {c : Option Char} {scanned : Scanned} {content rest : List Char}
    (h : scanned.after c = some (content, rest)) : ∃ content, scanned = some (content, rest) := by
  unfold Scanned.after at h
  simp only [Option.bind_eq_bind, Option.bind_eq_some_iff] at h
  obtain ⟨_, _, ⟨inner, _⟩, hs, h⟩ := h
  obtain ⟨_, rfl⟩ := Prod.mk.inj (Option.some.inj h)
  exact ⟨inner, hs⟩

theorem length_blockEnd?_lt {quote : Char} {text content rest : List Char}
    (h : blockEnd? quote text = some (content, rest)) : rest.length < text.length := by
  unfold blockEnd? at h
  grind

theorem length_scanLiteral_lt {block : Bool} {text content rest : List Char}
    (h : scanLiteral block text = some (content, rest)) : rest.length < text.length := by
  fun_induction scanLiteral block text generalizing content rest with
  | case1 => cases h
  | case2 text _ ih =>
    obtain ⟨_, h⟩ := Scanned.of_after h
    obtain ⟨_, h⟩ := Scanned.of_after h
    have := ih h
    simp only [List.length_cons]
    omega
  | case3 => cases h
  | case4 text _ _ ih =>
    rcases Option.or_eq_some_iff.1 h with h | ⟨_, h⟩
    · exact length_blockEnd?_lt h
    · obtain ⟨_, h⟩ := Scanned.of_after h
      exact Nat.lt_succ_of_lt (ih h)
  | case5 =>
    obtain ⟨_, rfl⟩ := Prod.mk.inj (Option.some.inj h)
    exact Nat.lt_succ_self _
  | case6 c text _ _ ih =>
    obtain ⟨_, h⟩ := Scanned.of_after h
    exact Nat.lt_succ_of_lt (ih h)

theorem length_scanBasic_lt {block dropping : Bool} {text content rest : List Char}
    (h : scanBasic block dropping text = some (content, rest)) : rest.length < text.length := by
  fun_induction scanBasic block dropping text generalizing content rest with
  | case1 => cases h
  | case2 _ a b text ih =>
    obtain ⟨_, h⟩ := Scanned.of_after h
    have := ih h
    simp only [List.length_cons]
    omega
  | case3 _ a b c d text ih =>
    obtain ⟨_, h⟩ := Scanned.of_after h
    have := ih h
    simp only [List.length_cons]
    omega
  | case4 _ a b c d e f g i text ih =>
    obtain ⟨_, h⟩ := Scanned.of_after h
    have := ih h
    simp only [List.length_cons]
    omega
  | case5 _ c text _ _ _ _ ih => exact Nat.lt_succ_of_lt (ih h)
  | case6 _ c text _ _ _ _ ih =>
    obtain ⟨_, h⟩ := Scanned.of_after h
    have := ih h
    simp only [List.length_cons]
    omega
  | case7 => cases h
  | case8 text _ ih =>
    have := ih h
    simp only [List.length_cons]
    omega
  | case9 _ text _ _ ih =>
    obtain ⟨_, h⟩ := Scanned.of_after h
    obtain ⟨_, h⟩ := Scanned.of_after h
    have := ih h
    simp only [List.length_cons]
    omega
  | case10 => cases h
  | case11 _ c text _ _ _ _ _ _ _ ih => exact Nat.lt_succ_of_lt (ih h)
  | case12 _ text _ _ _ _ _ _ _ _ ih =>
    rcases Option.or_eq_some_iff.1 h with h | ⟨_, h⟩
    · exact length_blockEnd?_lt h
    · obtain ⟨_, h⟩ := Scanned.of_after h
      exact Nat.lt_succ_of_lt (ih h)
  | case13 =>
    obtain ⟨_, rfl⟩ := Prod.mk.inj (Option.some.inj h)
    exact Nat.lt_succ_self _
  | case14 _ c text _ _ _ _ _ _ _ _ ih =>
    obtain ⟨_, h⟩ := Scanned.of_after h
    exact Nat.lt_succ_of_lt (ih h)

theorem length_dropLineBreak_le (text : List Char) : (dropLineBreak text).length ≤ text.length := by
  unfold dropLineBreak
  split
  · exact Nat.le_succ _
  · exact Nat.le_add_right _ 2
  · exact Nat.le_refl _

theorem length_scanComment_le {text rest : List Char} {token : Token} (h : scanComment text = some (token, rest)) :
    rest.length ≤ text.length := by
  have shorter := (List.dropWhile_sublist (l := text) (!isControl ·)).length_le
  unfold scanComment at h
  split at h
  case h_4 => cases h
  all_goals
    next heq =>
      rw [heq] at shorter
      obtain ⟨_, rfl⟩ := Prod.mk.inj (Option.some.inj h)
      exact Nat.le_trans (by grind) shorter

theorem length_scanToken_lt {text rest : List Char} {token : Token} (h : scanToken text = some (token, rest)) :
    rest.length < text.length := by
  unfold scanToken at h
  split at h
  case h_10 => exact Nat.lt_succ_of_le (length_scanComment_le h)
  case h_11 =>
    obtain ⟨⟨_, _⟩, h', h''⟩ := Option.map_eq_some_iff.1 h
    obtain ⟨_, rfl⟩ := Prod.mk.inj h''
    have := Nat.lt_of_lt_of_le (length_scanBasic_lt h') (length_dropLineBreak_le _)
    simp only [List.length_cons]
    omega
  case h_12 =>
    obtain ⟨⟨_, _⟩, h', h''⟩ := Option.map_eq_some_iff.1 h
    obtain ⟨_, rfl⟩ := Prod.mk.inj h''
    exact Nat.lt_succ_of_lt (length_scanBasic_lt h')
  case h_13 =>
    obtain ⟨⟨_, _⟩, h', h''⟩ := Option.map_eq_some_iff.1 h
    obtain ⟨_, rfl⟩ := Prod.mk.inj h''
    have := Nat.lt_of_lt_of_le (length_scanLiteral_lt h') (length_dropLineBreak_le _)
    simp only [List.length_cons]
    omega
  case h_14 =>
    obtain ⟨⟨_, _⟩, h', h''⟩ := Option.map_eq_some_iff.1 h
    obtain ⟨_, rfl⟩ := Prod.mk.inj h''
    exact Nat.lt_succ_of_lt (length_scanLiteral_lt h')
  case h_15 =>
    split at h
    · obtain ⟨_, rfl⟩ := Prod.mk.inj (Option.some.inj h)
      exact Nat.lt_succ_self _
    · split at h
      · cases h
      · obtain ⟨_, rfl⟩ := Prod.mk.inj (Option.some.inj h)
        exact Nat.lt_succ_of_le (List.dropWhile_sublist _).length_le
  case h_16 => cases h
  case h_9 =>
    obtain ⟨_, rfl⟩ := Prod.mk.inj (Option.some.inj h)
    exact Nat.lt_succ_of_lt (Nat.lt_succ_self _)
  all_goals
    obtain ⟨_, rfl⟩ := Prod.mk.inj (Option.some.inj h)
    exact Nat.lt_succ_self _

/-- All words of a text, if there are at most so many. -/
def tokensUpTo : Nat → List Char → Option (List Token)
  | 0, text => if text.isEmpty then some [] else none
  | n + 1, text =>
    if text.isEmpty then some []
    else
      match scanToken text with
      | none => none
      | some (token, after) => (tokensUpTo n after).map (token :: ·)

theorem tokensUpTo_eq {n m : Nat} {text : List Char} (hn : text.length ≤ n) (hm : text.length ≤ m) :
    tokensUpTo n text = tokensUpTo m text := by
  induction n generalizing m text with
  | zero =>
    have : text = [] := List.length_eq_zero_iff.1 (Nat.le_zero.1 hn)
    cases m <;> simp [tokensUpTo, this]
  | succ n ih =>
    cases m with
    | zero =>
      have : text = [] := List.length_eq_zero_iff.1 (Nat.le_zero.1 hm)
      simp [tokensUpTo, this]
    | succ m =>
      simp only [tokensUpTo]
      split
      · rfl
      · split
        · rfl
        · next after h =>
          have := length_scanToken_lt h
          rw [ih (m := m) (by omega) (by omega)]

def byteOrderMark : Char := '\uFEFF'

/-- The text of a document without the byte order mark that it may begin with. -/
def documentText (text : List Char) : List Char := if text.head? = some byteOrderMark then text.drop 1 else text

/-- All words of a document, whose last line needs no line break. There are no more
words than characters. -/
def tokens (text : List Char) : Option (List Token) :=
  (tokensUpTo (documentText text).length (documentText text)).map (· ++ [.lineBreak])

end Residency.Toml
