import Residency.Json
import Residency.Proofs.Bytes

/-!
# JSON documents

What a document is read back as, and when two documents say the same.
-/

/-!
## Documents that are read back

The words of a document are those of its value in their order, whatever the line breaks
between them (`reads_pretty`). A reader of these words finds the value that was written
(`ofText?_document`), so different values have different documents
(`document_injective`).
-/

namespace Residency.Json

/-! ### Texts -/

theorem hexValue?_digitChar {n : Nat} (small : n < 16) : hexValue? (Hex.digitChar n) = some n := by
  revert n
  decide

theorem scanText_letter {letter : Char} {unit : Nat} (plain : letter ≠ 'u')
    (stands : letterEscape? letter = some unit) (rest : List Char) :
    scanText ('\\' :: letter :: rest) = (scanText rest).map fun (units, rest) => (unit :: units, rest) := by
  rw [scanText, stands]
  · cases scanText rest with
    | none => rfl
    | some scanned => rfl
  · intro a b c d tail same
    exact absurd same plain

theorem scanText_unit {a b c d : Char} {unit : Nat} (stands : hexNumber? [a, b, c, d] = some unit) (rest : List Char) :
    scanText ('\\' :: 'u' :: a :: b :: c :: d :: rest) =
      (scanText rest).map fun (units, rest) => (unit :: units, rest) := by
  rw [scanText, stands]
  cases scanText rest with
  | none => rfl
  | some scanned => rfl

theorem scanText_plain {c : Char} (noQuote : c ≠ '"') (noEscape : c ≠ '\\') (visible : 32 ≤ c.toNat)
    (rest : List Char) :
    scanText (c :: rest) = (scanText rest).map fun (units, rest) => (c.toNat :: units, rest) := by
  have plain : ¬ (c = '\\' ∨ c.toNat < 32) := by
    rintro (escape | control)
    · exact noEscape escape
    · omega
  rw [scanText]
  · rw [if_neg plain]
  · exact noQuote
  · intro a b c d tail same
    exact absurd same noEscape
  · intro letter tail same
    exact absurd same noEscape

theorem scanText_escapeChar (c : Char) (rest : List Char) :
    scanText (escapeChar c ++ rest) = (scanText rest).map fun (units, rest) => (c.toNat :: units, rest) := by
  unfold escapeChar
  split
  · exact scanText_letter (by decide) rfl rest
  · exact scanText_letter (by decide) rfl rest
  · exact scanText_letter (by decide) rfl rest
  · exact scanText_letter (by decide) rfl rest
  · exact scanText_letter (by decide) rfl rest
  · next noQuote noEscape _ _ _ =>
    split
    · next backspace =>
      rw [backspace]
      exact scanText_letter (by decide) rfl rest
    · split
      · next feed =>
        rw [feed]
        exact scanText_letter (by decide) rfl rest
      · split
        · next control =>
          apply scanText_unit
          have high : c.toNat / 16 < 16 := by omega
          have low : c.toNat % 16 < 16 := by omega
          have zero : hexValue? '0' = some 0 := rfl
          simp only [hexNumber?, List.foldl_cons, List.foldl_nil, zero, hexValue?_digitChar high,
            hexValue?_digitChar low, Option.bind_some, Option.map_some, Option.some.injEq]
          omega
        · exact scanText_plain noQuote noEscape (by omega) rest

theorem scanText_quoted (s : List Char) (rest : List Char) :
    scanText (s.flatMap escapeChar ++ '"' :: rest) = some (s.map Char.toNat, rest) := by
  induction s with
  | nil => rw [List.flatMap_nil, List.nil_append, scanText]; rfl
  | cons c s ih =>
    rw [List.flatMap_cons, List.append_assoc, scanText_escapeChar, ih]
    rfl

theorem joinUnits_toNat (s : List Char) : joinUnits (s.map Char.toNat) = some s := by
  induction s with
  | nil => rfl
  | cons c s ih =>
    have valid : c.toNat < 0xD800 ∨ 0xDFFF < c.toNat ∧ c.toNat < 0x110000 := c.valid
    rw [List.map_cons, joinUnits.eq_def]
    dsimp only
    rw [if_neg (by omega), if_neg (by omega), ih, Option.map_some, Char.ofNat_toNat]

/-! ### Numbers -/

theorem head?_toDigits_ne_zero {n : Nat} (positive : 0 < n) : (Nat.toDigits 10 n).head? ≠ some '0' := by
  induction n using Nat.strongRecOn with
  | _ n ih =>
    by_cases small : n < 10
    · have single : ∀ n < 10, 0 < n → n.digitChar ≠ '0' := by decide
      rw [Nat.toDigits_of_lt_base small, List.head?_cons]
      exact fun same => single n small positive (Option.some.inj same)
    · have earlier := ih (n / 10) (by omega) (by omega)
      obtain ⟨first, more, spelled⟩ := List.exists_cons_of_ne_nil (Nat.toDigits_ne_nil (n := n / 10) (b := 10))
      rw [Nat.toDigits_of_base_le (by decide) (by omega), spelled]
      rwa [spelled] at earlier

/-- What follows a value in a document. -/
inductive Ends : List Char → Prop
  | comma (rest : List Char) : Ends (',' :: rest)
  | line (rest : List Char) : Ends ('\n' :: rest)

section
variable {rest : List Char}

theorem Ends.takeWhile_isDigit (ends : Ends rest) : rest.takeWhile isDigit = [] := by
  cases ends with
  | comma rest => rfl
  | line rest => rfl

theorem Ends.dropWhile_isDigit (ends : Ends rest) : rest.dropWhile isDigit = rest := by
  cases ends with
  | comma rest => rfl
  | line rest => rfl

theorem scanWhole_repr (n : Nat) (ends : Ends rest) :
    scanWhole (n.repr.toList ++ rest) = some (n.repr.toList, rest) := by
  have digits := isDigit_repr n
  have front : (n.repr.toList ++ rest).takeWhile isDigit = n.repr.toList := by
    rw [List.takeWhile_append_of_pos digits, ends.takeWhile_isDigit, List.append_nil]
  have back : (n.repr.toList ++ rest).dropWhile isDigit = rest := by
    rw [List.dropWhile_append_of_pos digits, ends.dropWhile_isDigit]
  unfold scanWhole
  rw [front, back]
  split
  · next none => exact absurd (Nat.toList_repr.symm.trans none) Nat.toDigits_ne_nil
  · next c more leading =>
    rw [Nat.toList_repr] at leading
    cases n with
    | zero => cases leading
    | succ n => exact absurd (congrArg List.head? leading) (head?_toDigits_ne_zero n.succ_pos)
  · rfl

theorem scanNumber_repr (negative : Bool) (n : Nat) (ends : Ends rest) :
    scanNumber negative (n.repr.toList ++ rest) = some (⟨negative, n.repr.toList, none, none⟩, rest) := by
  have fraction : scanFraction rest = some (none, rest) := by
    cases ends with
    | comma rest => rfl
    | line rest => rfl
  have exponent : scanExponent rest = some (none, rest) := by
    cases ends with
    | comma rest => rfl
    | line rest => rfl
  unfold scanNumber
  rw [scanWhole_repr n ends]
  simp only [Option.bind_eq_bind, Option.bind_some, fraction, exponent]
  rfl

def numberText : Int → NumberText
  | .ofNat n => ⟨false, n.repr.toList, none, none⟩
  | .negSucc n => ⟨true, (n + 1).repr.toList, none, none⟩

theorem numberText_inj : ∀ {n m : Int}, numberText n = numberText m → n = m
  | .ofNat n, .ofNat m, same => by
    have read := readNat?_repr n
    rw [(NumberText.mk.inj same).2.1, readNat?_repr] at read
    cases read
    rfl
  | .negSucc n, .negSucc m, same => by
    have read := readNat?_repr (n + 1)
    rw [(NumberText.mk.inj same).2.1, readNat?_repr] at read
    cases read
    rfl
  | .ofNat n, .negSucc m, same => nomatch (NumberText.mk.inj same).1
  | .negSucc n, .ofNat m, same => nomatch (NumberText.mk.inj same).1

theorem scanToken_number (n : Int) (ends : Ends rest) :
    scanToken ((toString n).toList ++ rest) = some (.number (numberText n), rest) := by
  cases n with
  | ofNat n =>
    have spelled : (toString (Int.ofNat n)).toList = n.repr.toList := rfl
    have scanned := scanNumber_repr false n ends
    obtain ⟨first, more, cons, digit⟩ := exists_digit_repr n
    rw [cons, List.cons_append] at scanned
    rw [spelled, numberText, cons, List.cons_append]
    unfold scanToken
    split
    case h_12 =>
      rw [scanned]
      rfl
    -- no other word begins with a digit
    all_goals
      next same =>
        cases (List.cons.inj same).1
        cases digit
  | negSucc n =>
    rw [toList_negSucc, List.cons_append, scanToken, scanNumber_repr true (n + 1) ends]
    rfl

end

/-! ### Words -/

/-- A text begins with some words, and the words of what follows are its other words. -/
def Reads (text after : List Char) (words : List Token) : Prop := tokens text = (tokens after).map (words ++ ·)

namespace Reads

variable {text middle after : List Char} {first second : List Token}

theorem trans (front : Reads text middle first) (back : Reads middle after second) :
    Reads text after (first ++ second) := by
  unfold Reads at *
  rw [front, back, Option.map_map]
  simp only [Function.comp_def, List.append_assoc]

theorem word {token : Token} (dense : text.dropWhile isBlank = text) (scanned : scanToken text = some (token, after)) :
    Reads text after [token] := by
  have shorter := length_scanToken_lt scanned
  cases text with
  | nil => exact absurd shorter (Nat.not_lt_zero _)
  | cons c text =>
    have enough : after.length ≤ text.length := Nat.le_of_lt_succ shorter
    rw [Reads, tokens, List.length_cons, tokensUpTo, dense, List.isEmpty_cons, if_neg Bool.false_ne_true, scanned]
    simp only [tokensUpTo_eq enough, List.singleton_append]

theorem blank {c : Char} (blank : isBlank c = true) (reads : Reads text after first) :
    Reads (c :: text) after first := by
  have dropped : (c :: text).dropWhile isBlank = text.dropWhile isBlank := List.dropWhile_cons_of_pos blank
  have same : tokens (c :: text) = tokens text := by
    rw [← tokensUpTo_eq (Nat.le_succ text.length), tokens, List.length_cons, tokensUpTo, tokensUpTo, dropped]
  exact same.trans reads

theorem line (level : Nat) (reads : Reads text after first) : Reads (lineBreak level ++ text) after first := by
  have blanks : ∀ n, Reads (List.replicate n ' ' ++ text) after first := by
    intro n
    induction n with
    | zero => exact reads
    | succ n ih => exact blank rfl ih
  exact blank rfl (blanks (2 * level))

theorem comma : Reads (',' :: after) after [.comma] := word rfl rfl

theorem quoted (s : String) : Reads (quoted s ++ after) after [.text (some s)] := by
  have spelled : Json.quoted s ++ after = '"' :: (s.toList.flatMap escapeChar ++ '"' :: after) := by
    simp [Json.quoted]
  rw [spelled]
  refine word rfl ?_
  rw [scanToken, scanText_quoted]
  simp only [Option.map_some, joinUnits_toNat, String.ofList_toList]

theorem number (n : Int) (ends : Ends after) : Reads ((toString n).toList ++ after) after [.number (numberText n)] := by
  refine word ?_ (scanToken_number n ends)
  cases n with
  | ofNat n =>
    have spelled : (toString (Int.ofNat n)).toList = n.repr.toList := rfl
    obtain ⟨first, more, cons, digit⟩ := exists_digit_repr n
    have dense : ¬ isBlank first = true := by
      intro blank
      simp only [isBlank, Bool.or_eq_true, decide_eq_true_eq] at blank
      obtain ((rfl | rfl) | rfl) | rfl := blank
      · cases digit
      · cases digit
      · cases digit
      · cases digit
    rw [spelled, cons, List.cons_append, List.dropWhile_cons_of_neg dense]
  | negSucc n =>
    rw [toList_negSucc]
    rfl

end Reads

mutual

/-- The words of a value's document. -/
def words : Json → List Token
  | .null => [.null]
  | .bool value => [.bool value]
  | .number n => [.number (numberText n)]
  | .text s => [.text (some s)]
  | .array items => .leftBracket :: itemWords items ++ [.rightBracket]
  | .object members => .leftBrace :: memberWords members ++ [.rightBrace]

def itemWords : List Json → List Token
  | [] => []
  | [last] => words last
  | item :: rest => words item ++ .comma :: itemWords rest

def memberWords : List (String × Json) → List Token
  | [] => []
  | [last] => wordsOfMember last
  | member :: rest => wordsOfMember member ++ .comma :: memberWords rest

def wordsOfMember : String × Json → List Token
  | (key, value) => .text (some key) :: .colon :: words value

end

theorem itemWords_cons (item other : Json) (items : List Json) :
    itemWords (item :: other :: items) = words item ++ .comma :: itemWords (other :: items) := rfl

theorem memberWords_cons (member other : String × Json) (members : List (String × Json)) :
    memberWords (member :: other :: members) = wordsOfMember member ++ .comma :: memberWords (other :: members) := rfl

theorem Ends.lineBreak (level : Nat) (rest : List Char) : Ends (lineBreak level ++ rest) := .line _

mutual

theorem reads_pretty (level : Nat) : ∀ (value : Json) {after : List Char}, Ends after →
    Reads (pretty level value ++ after) after (words value)
  | .null, _, _ => .word rfl rfl
  | .bool true, _, _ => .word rfl rfl
  | .bool false, _, _ => .word rfl rfl
  | .number n, _, ends => .number n ends
  | .text s, _, _ => .quoted s
  | .array [], after, _ => by
    have opened : Reads ('[' :: ']' :: after) (']' :: after) [.leftBracket] := .word rfl rfl
    exact opened.trans (.word rfl rfl)
  | .array (item :: items), after, ends => by
    have spelled : pretty level (.array (item :: items)) ++ after =
        '[' :: (prettyItems (level + 1) (item :: items) ++ (lineBreak level ++ ']' :: after)) := by
      simp [pretty]
    have opened (text : List Char) : Reads ('[' :: text) text [.leftBracket] := .word rfl rfl
    have closed : Reads (lineBreak level ++ ']' :: after) after [.rightBracket] := .line level (.word rfl rfl)
    rw [spelled]
    exact (opened _).trans ((reads_prettyItems (level + 1) (item :: items) (.lineBreak level _)).trans closed)
  | .object [], after, _ => by
    have opened : Reads ('{' :: '}' :: after) ('}' :: after) [.leftBrace] := .word rfl rfl
    exact opened.trans (.word rfl rfl)
  | .object (member :: members), after, ends => by
    have spelled : pretty level (.object (member :: members)) ++ after =
        '{' :: (prettyMembers (level + 1) (member :: members) ++ (lineBreak level ++ '}' :: after)) := by
      simp [pretty]
    have opened (text : List Char) : Reads ('{' :: text) text [.leftBrace] := .word rfl rfl
    have closed : Reads (lineBreak level ++ '}' :: after) after [.rightBrace] := .line level (.word rfl rfl)
    rw [spelled]
    exact (opened _).trans ((reads_prettyMembers (level + 1) (member :: members) (.lineBreak level _)).trans closed)

theorem reads_prettyItems (level : Nat) : ∀ (items : List Json) {after : List Char}, Ends after →
    Reads (prettyItems level items ++ after) after (itemWords items)
  | [], _, _ => by simp [Reads, prettyItems, itemWords]
  | [last], after, ends => by
    rw [prettyItems, List.append_assoc]
    exact .line level (reads_pretty level last ends)
  | item :: other :: items, after, ends => by
    have spelled : prettyItems level (item :: other :: items) ++ after =
        lineBreak level ++ (pretty level item ++ ',' :: (prettyItems level (other :: items) ++ after)) := by
      simp [prettyItems]
    rw [spelled]
    exact .line level ((reads_pretty level item (.comma _)).trans
      (Reads.comma.trans (reads_prettyItems level (other :: items) ends)))

theorem reads_prettyMembers (level : Nat) : ∀ (members : List (String × Json)) {after : List Char}, Ends after →
    Reads (prettyMembers level members ++ after) after (memberWords members)
  | [], _, _ => by simp [Reads, prettyMembers, memberWords]
  | [last], after, ends => by
    rw [prettyMembers]
    exact reads_prettyMember level last ends
  | member :: other :: members, after, ends => by
    have spelled : prettyMembers level (member :: other :: members) ++ after =
        prettyMember level member ++ ',' :: (prettyMembers level (other :: members) ++ after) := by
      simp [prettyMembers]
    rw [spelled]
    exact (reads_prettyMember level member (.comma _)).trans
      (Reads.comma.trans (reads_prettyMembers level (other :: members) ends))

theorem reads_prettyMember (level : Nat) : ∀ (member : String × Json) {after : List Char}, Ends after →
    Reads (prettyMember level member ++ after) after (wordsOfMember member)
  | (key, value), after, ends => by
    have spelled : prettyMember level (key, value) ++ after =
        lineBreak level ++ (quoted key ++ ':' :: ' ' :: (pretty level value ++ after)) := by
      simp [prettyMember]
    have colon (text : List Char) : Reads (':' :: text) text [.colon] := .word rfl rfl
    rw [spelled]
    exact .line level ((Reads.quoted key).trans ((colon _).trans (.blank rfl (reads_pretty level value ends))))

end

/-! ### Values -/

mutual

/-- The tree of a value's document. -/
def tree : Json → Tree
  | .null => .null
  | .bool value => .bool value
  | .number n => .number (numberText n)
  | .text s => .text (some s)
  | .array items => .array (itemTrees items)
  | .object members => .object (memberTrees members)

def itemTrees : List Json → List Tree
  | [] => []
  | item :: rest => tree item :: itemTrees rest

def memberTrees : List (String × Json) → List (Option String × Tree)
  | [] => []
  | member :: rest => treeOfMember member :: memberTrees rest

def treeOfMember : String × Json → Option String × Tree
  | (key, value) => (some key, tree value)

end

open Json.Tree

theorem readTokens_cons (position : Position) (token : Token) (rest : List Token) :
    readTokens position (token :: rest) = (step position token).bind fun position => readTokens position rest := by
  cases position with
  | complete value around =>
    cases around with
    | _ => rfl
  | _ => rfl

theorem readTokens_firstItem (around : List Frame) (value : Json) (rest : List Token) :
    readTokens (.firstItem around) (words value ++ rest) =
      readTokens (.value (.items [] :: around)) (words value ++ rest) := by
  -- no value begins with the bracket that would close the list
  cases value with
  | _ => rfl

mutual

theorem readTokens_words : ∀ (value : Json) (around : List Frame) (rest : List Token),
    readTokens (.value around) (words value ++ rest) = readTokens (.complete (tree value) around) rest
  | .null, _, _ => rfl
  | .bool _, _, _ => rfl
  | .number _, _, _ => rfl
  | .text _, _, _ => rfl
  | .array [], _, _ => rfl
  | .array (item :: items), around, rest => by
    have opened : readTokens (.value around) (words (.array (item :: items)) ++ rest) =
        readTokens (.firstItem around) (itemWords (item :: items) ++ .rightBracket :: rest) := by
      rw [words, List.cons_append, List.cons_append, readTokens_cons, List.append_assoc]
      rfl
    have first : readTokens (.firstItem around) (itemWords (item :: items) ++ .rightBracket :: rest) =
        readTokens (.value (.items [] :: around)) (itemWords (item :: items) ++ .rightBracket :: rest) := by
      cases items with
      | nil => exact readTokens_firstItem around item _
      | cons other items =>
        rw [itemWords_cons, List.append_assoc]
        exact readTokens_firstItem around item _
    rw [opened, first, readTokens_itemWords (item :: items) (List.cons_ne_nil _ _)]
    rfl
  | .object [], _, _ => rfl
  | .object (member :: members), around, rest => by
    have opened : readTokens (.value around) (words (.object (member :: members)) ++ rest) =
        readTokens (.key [] true around) (memberWords (member :: members) ++ .rightBrace :: rest) := by
      rw [words, List.cons_append, List.cons_append, readTokens_cons, List.append_assoc]
      rfl
    rw [opened, readTokens_memberWords (member :: members) (List.cons_ne_nil _ _)]
    rfl

theorem readTokens_itemWords : ∀ (items : List Json), items ≠ [] → ∀ (done : List Tree) (around : List Frame)
    (rest : List Token), readTokens (.value (.items done :: around)) (itemWords items ++ .rightBracket :: rest) =
      readTokens (.complete (.array (done.reverse ++ itemTrees items)) around) rest
  | [], empty, _, _, _ => absurd rfl empty
  | [last], _, done, around, rest => by
    have closed : readTokens (.complete (tree last) (.items done :: around)) (.rightBracket :: rest) =
        readTokens (.complete (.array (tree last :: done).reverse) around) rest := readTokens_cons ..
    rw [itemWords, readTokens_words last, closed, List.reverse_cons]
    rfl
  | item :: other :: items, _, done, around, rest => by
    have next (rest : List Token) : readTokens (.complete (tree item) (.items done :: around)) (.comma :: rest) =
        readTokens (.value (.items (tree item :: done) :: around)) rest := readTokens_cons ..
    rw [itemWords_cons, List.append_assoc, readTokens_words item, List.cons_append, next,
      readTokens_itemWords (other :: items) (List.cons_ne_nil _ _), List.reverse_cons, List.append_assoc]
    rfl

theorem readTokens_memberWords : ∀ (members : List (String × Json)), members ≠ [] →
    ∀ (done : List (Option String × Tree)) (mayClose : Bool) (around : List Frame) (rest : List Token),
      readTokens (.key done mayClose around) (memberWords members ++ .rightBrace :: rest) =
        readTokens (.complete (.object (done.reverse ++ memberTrees members)) around) rest
  | [], empty, _, _, _, _ => absurd rfl empty
  | [(key, value)], _, done, mayClose, around, rest => by
    have closed : readTokens (.complete (tree value) (.members done (some key) :: around)) (.rightBrace :: rest) =
        readTokens (.complete (.object ((some key, tree value) :: done).reverse) around) rest := readTokens_cons ..
    rw [memberWords, readTokens_wordsOfMember (key, value), closed, List.reverse_cons]
    rfl
  | (key, value) :: other :: members, _, done, mayClose, around, rest => by
    have next (rest : List Token) :
        readTokens (.complete (tree value) (.members done (some key) :: around)) (.comma :: rest) =
          readTokens (.key ((some key, tree value) :: done) false around) rest := readTokens_cons ..
    rw [memberWords_cons, List.append_assoc, readTokens_wordsOfMember (key, value), List.cons_append, next,
      readTokens_memberWords (other :: members) (List.cons_ne_nil _ _), List.reverse_cons, List.append_assoc]
    rfl

theorem readTokens_wordsOfMember : ∀ (member : String × Json) (done : List (Option String × Tree)) (mayClose : Bool)
    (around : List Frame) (rest : List Token), readTokens (.key done mayClose around) (wordsOfMember member ++ rest) =
      readTokens (.complete (tree member.2) (.members done (some member.1) :: around)) rest
  | (key, value), done, mayClose, around, rest => by
    have named : readTokens (.key done mayClose around) (.text (some key) :: .colon :: (words value ++ rest)) =
        readTokens (.colon done (some key) around) (.colon :: (words value ++ rest)) := readTokens_cons ..
    have after : readTokens (.colon done (some key) around) (.colon :: (words value ++ rest)) =
        readTokens (.value (.members done (some key) :: around)) (words value ++ rest) := readTokens_cons ..
    rw [wordsOfMember, List.cons_append, List.cons_append, named, after, readTokens_words value]

end

theorem ofText?_document (value : Json) : ofText? value.document = some (tree value) := by
  have text : value.document.toList = pretty 0 value ++ ['\n'] := String.toList_ofList
  have words : tokens (pretty 0 value ++ ['\n']) = (tokens ['\n']).map (words value ++ ·) :=
    reads_pretty 0 value (.line [])
  have blank : tokens ['\n'] = some [] := rfl
  have complete : readTokens (.complete (tree value) []) [] = some (tree value) := rfl
  rw [ofText?, text, words, blank, Option.map_some, Option.bind_some, readTokens_words, complete]

mutual

theorem tree_inj : ∀ {a b : Json}, tree a = tree b → a = b
  | .null, .null, _ => rfl
  | .bool _, .bool _, same => by rw [Tree.bool.inj same]
  | .number _, .number _, same => by rw [numberText_inj (Tree.number.inj same)]
  | .text _, .text _, same => by rw [Option.some.inj (Tree.text.inj same)]
  | .array _, .array _, same => by rw [itemTrees_inj (Tree.array.inj same)]
  | .object _, .object _, same => by rw [memberTrees_inj (Tree.object.inj same)]

theorem itemTrees_inj : ∀ {a b : List Json}, itemTrees a = itemTrees b → a = b
  | [], [], _ => rfl
  | _ :: _, _ :: _, same => by
    obtain ⟨first, rest⟩ := List.cons.inj same
    rw [tree_inj first, itemTrees_inj rest]

theorem memberTrees_inj : ∀ {a b : List (String × Json)}, memberTrees a = memberTrees b → a = b
  | [], [], _ => rfl
  | (_, _) :: _, (_, _) :: _, same => by
    obtain ⟨first, rest⟩ := List.cons.inj same
    obtain ⟨key, value⟩ := Prod.mk.inj first
    rw [Option.some.inj key, tree_inj value, memberTrees_inj rest]

end

theorem document_injective {a b : Json} (same : a.document = b.document) : a = b := by
  apply tree_inj
  have read := ofText?_document a
  rw [same, ofText?_document] at read
  exact (Option.some.inj read).symm

/-!
## Equal values

Objects are equal if they have equal values under the same names, in whatever order
their members stand. What equal values say under one name is equal in turn
(`Same.member`), and so is what they list (`Same.map_inj`).
-/

/-- Equal values. Of several members of one name the first counts. -/
inductive Same : Json → Json → Prop
  | null : Same .null .null
  | bool (value : Bool) : Same (.bool value) (.bool value)
  | number (value : Int) : Same (.number value) (.number value)
  | text (value : String) : Same (.text value) (.text value)
  | array {first second : List Json} (length : first.length = second.length)
    (items : ∀ (i : Nat) a b, first[i]? = some a → second[i]? = some b → Same a b) : Same (.array first) (.array second)
  | object {first second : List (String × Json)}
    (names : ∀ name, (first.lookup name).isSome = (second.lookup name).isSome)
    (values : ∀ name a b, first.lookup name = some a → second.lookup name = some b → Same a b) :
    Same (.object first) (.object second)

namespace Same

theorem refl : ∀ value : Json, Same value value
  | .null => .null
  | .bool value => .bool value
  | .number value => .number value
  | .text value => .text value
  | .array items => .array rfl fun i a b left right => by
    cases left.symm.trans right
    have smaller : sizeOf a < sizeOf items := List.sizeOf_lt_of_mem (List.mem_of_getElem? left)
    exact refl a
  | .object members => .object (fun _ => rfl) fun name a b left right => by
    cases left.symm.trans right
    obtain ⟨before, after, split, -⟩ := List.lookup_eq_some_iff.mp left
    have smaller : sizeOf a < sizeOf members := by
      have inside : sizeOf (name, a) < sizeOf members := List.sizeOf_lt_of_mem (by rw [split]; simp)
      rw [Prod.mk.sizeOf_spec] at inside
      omega
    exact refl a

variable {first second : List (String × Json)}

theorem member (same : Same (.object first) (.object second)) (name : String) {a b : Json} (left : first.lookup name = some a)
    (right : second.lookup name = some b) : Same a b := by
  cases same with
  | object names values => exact values name a b left right

theorem number_inj (same : Same (.object first) (.object second)) (name : String) {n m : Nat}
    (left : first.lookup name = some (.number n)) (right : second.lookup name = some (.number m)) : n = m := by
  generalize a : Json.number n = value at left
  cases same.member name left right
  exact Int.ofNat.inj (Json.number.inj a)

theorem text_inj (same : Same (.object first) (.object second)) (name : String) {s t : String}
    (left : first.lookup name = some (.text s)) (right : second.lookup name = some (.text t)) : s = t := by
  cases same.member name left right
  rfl

theorem map_inj {α : Type} {write : α → Json} (inj : ∀ {a b : α}, Same (write a) (write b) → a = b) {xs ys : List α}
    (same : Same (.array (xs.map write)) (.array (ys.map write))) : xs = ys := by
  cases same with
  | array length items =>
    rw [List.length_map, List.length_map] at length
    refine List.ext_getElem length fun i left right => inj (items i _ _ ?_ ?_)
    · rw [List.getElem?_map, List.getElem?_eq_getElem left, Option.map_some]
    · rw [List.getElem?_map, List.getElem?_eq_getElem right, Option.map_some]

end Same

end Residency.Json
