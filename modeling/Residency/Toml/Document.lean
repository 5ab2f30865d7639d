import Residency.Settings.Value
import Residency.Text
import Residency.Toml.Token

/-!
# Documents of TOML

Values in single words, tables, and the reader of statements over the words of a text.
-/

/-!
## Dates and times

A date, a time of the day, or both, then perhaps with the distance from universal
time. They are written in one form: a capital letter between date and time,
seconds and their fraction only if they were given, and of the fraction at most
nine digits without zeros at its end, yet one digit at least.
-/

namespace Residency.Toml

structure Date where
  year : Nat
  month : Nat
  day : Nat
deriving DecidableEq

structure Seconds where
  whole : Nat
  nanosecond : Option Nat
deriving DecidableEq

structure TimeOfDay where
  hour : Nat
  minute : Nat
  seconds : Option Seconds
deriving DecidableEq

inductive Zone where
  | universal
  /-- Minutes ahead of universal time. -/
  | ahead (minutes : Int)
deriving DecidableEq

inductive Moment where
  | dateOnly (date : Date)
  | timeOnly (time : TimeOfDay)
  | both (date : Date) (time : TimeOfDay) (zone : Option Zone)
deriving DecidableEq

/-- Exactly so many digits. -/
def readDigits? (count : Nat) (text : List Char) : Option (Nat × List Char) :=
  let digits := text.take count
  if digits.length = count ∧ digits.all isDigit then some (digitsValue digits, text.drop count) else none

def readSign? (sign : Char) : List Char → Option (List Char)
  | c :: rest => if c = sign then some rest else none
  | [] => none

namespace Date

def isLeap (year : Nat) : Bool := year % 4 = 0 && (year % 100 ≠ 0 || year % 400 = 0)

def daysIn (year month : Nat) : Nat :=
  if month = 2 then if isLeap year then 29 else 28
  else if month = 4 ∨ month = 6 ∨ month = 9 ∨ month = 11 then 30
  else 31

def isValid (date : Date) : Bool :=
  1 ≤ date.month && date.month ≤ 12 && 1 ≤ date.day && date.day ≤ daysIn date.year date.month

def read? (text : List Char) : Option (Date × List Char) := do
  let (year, rest) ← readDigits? 4 text
  let rest ← readSign? '-' rest
  let (month, rest) ← readDigits? 2 rest
  let rest ← readSign? '-' rest
  let (day, rest) ← readDigits? 2 rest
  if isValid ⟨year, month, day⟩ then some (⟨year, month, day⟩, rest) else none

end Date

namespace TimeOfDay

/-- The sixtieth second is a leap second. -/
def isValid (time : TimeOfDay) : Bool :=
  time.hour ≤ 23 && time.minute ≤ 59 && time.seconds.all (·.whole ≤ 60)

/-- Nanoseconds of a fraction; digits after the ninth are dropped. -/
def nanoseconds (digits : List Char) : Nat :=
  digitsValue (digits.take 9 ++ List.replicate (9 - digits.length) '0')

def readFraction? : List Char → Option (Option Nat × List Char)
  | '.' :: rest =>
    if (rest.takeWhile isDigit).isEmpty then none
    else some (some (nanoseconds (rest.takeWhile isDigit)), rest.dropWhile isDigit)
  | rest => some (none, rest)

/-- Seconds may be missing, and with them the fraction. -/
def readSeconds? : List Char → Option (Option Seconds × List Char)
  | ':' :: rest => do
    let (whole, rest) ← readDigits? 2 rest
    let (nanosecond, rest) ← readFraction? rest
    pure (some ⟨whole, nanosecond⟩, rest)
  | rest => some (none, rest)

def read? (text : List Char) : Option (TimeOfDay × List Char) := do
  let (hour, rest) ← readDigits? 2 text
  let rest ← readSign? ':' rest
  let (minute, rest) ← readDigits? 2 rest
  let (seconds, rest) ← readSeconds? rest
  let time : TimeOfDay := ⟨hour, minute, seconds⟩
  if time.isValid then some (time, rest) else none

end TimeOfDay

namespace Zone

def readAhead? (sign : Int) (text : List Char) : Option Zone := do
  let (hour, rest) ← readDigits? 2 text
  let rest ← readSign? ':' rest
  let (minute, rest) ← readDigits? 2 rest
  if rest.isEmpty && hour ≤ 23 && minute ≤ 59 then some (.ahead (sign * (60 * hour + minute : Nat))) else none

/-- The distance that ends a text, if there is any text left. -/
def read? : List Char → Option (Option Zone)
  | [] => some none
  | ['Z'] => some (some .universal)
  | ['z'] => some (some .universal)
  | '+' :: rest => (readAhead? 1 rest).map some
  | '-' :: rest => (readAhead? (-1) rest).map some
  | _ => none

end Zone

/-- Digits of a number, with zeros in front up to the given width. -/
def padded (width n : Nat) : String :=
  let digits := Nat.toDigits 10 n
  String.ofList (List.replicate (width - digits.length) '0' ++ digits)

namespace Moment

def readTime? (text : List Char) : Option Moment := do
  let (time, rest) ← TimeOfDay.read? text
  if rest.isEmpty then some (.timeOnly time) else none

/-- The time of a date that has been read. -/
def readBoth? (date : Date) (text : List Char) : Option Moment := do
  let (time, rest) ← TimeOfDay.read? text
  let zone ← Zone.read? rest
  pure (.both date time zone)

def ofText? (text : List Char) : Option Moment :=
  match Date.read? text with
  | none => readTime? text
  | some (date, []) => some (.dateOnly date)
  | some (date, c :: rest) => if c = 'T' ∨ c = 't' ∨ c = ' ' then readBoth? date rest else none

def dateText (date : Date) : String := s!"{padded 4 date.year}-{padded 2 date.month}-{padded 2 date.day}"

def fractionText (nanosecond : Nat) : String :=
  let digits := ((padded 9 nanosecond).toList.reverse.dropWhile (· == '0')).reverse
  "." ++ String.ofList (if digits.isEmpty then ['0'] else digits)

def secondsText (seconds : Seconds) : String :=
  s!":{padded 2 seconds.whole}" ++ (seconds.nanosecond.map fractionText).getD ""

def timeText (time : TimeOfDay) : String :=
  s!"{padded 2 time.hour}:{padded 2 time.minute}" ++ (time.seconds.map secondsText).getD ""

def zoneText : Zone → String
  | .universal => "Z"
  | .ahead minutes =>
    let sign := if minutes < 0 then "-" else "+"
    s!"{sign}{padded 2 (minutes.natAbs / 60)}:{padded 2 (minutes.natAbs % 60)}"

def text : Moment → String
  | dateOnly d => dateText d
  | timeOnly t => timeText t
  | both d t zone => dateText d ++ "T" ++ timeText t ++ (zone.map zoneText).getD ""

end Moment

/-!
## Values in single words

Truth values, integers, numbers with a fraction or an exponent, dates and times.
Underscores may stand between digits. Decimal numbers have no zero in front;
integers fit 64 bits; other numbers do not exceed their range.
-/

/-- The digits of a number without the underscores between them. -/
def ungroup? (digit : Char → Bool) : List Char → Option (List Char)
  | [] => none
  | [c] => if digit c then some [c] else none
  | c :: '_' :: rest => if digit c then (ungroup? digit rest).map (c :: ·) else none
  | c :: rest => if digit c then (ungroup? digit rest).map (c :: ·) else none

/-- Digits with no zero in front. -/
def decimalDigits? (text : List Char) : Option (List Char) :=
  (ungroup? isDigit text).filter fun digits => digits.head? != some '0' || digits.length == 1

def decimalInteger? (negative : Bool) (text : List Char) : Option Int :=
  ((decimalDigits? text).map fun digits =>
    if negative then -(digitsValue digits : Int) else digitsValue digits).filter inInt64

/-- The value of a digit in any base up to sixteen. -/
def baseDigit? (base : Nat) (c : Char) : Option Nat := (hexValue? c).filter (· < base)

def baseInteger? (base : Nat) (text : List Char) : Option Int :=
  ((ungroup? (fun c => (baseDigit? base c).isSome) text).map fun digits =>
    (digits.foldl (fun n c => base * n + (baseDigit? base c).getD 0) 0 : Nat)).filter fun n : Int => inInt64 n

def isGrouped (c : Char) : Bool := isDigit c || c = '_'

/-- The digits behind a point, none if there is no point. -/
def fraction? : List Char → Option (List Char × List Char)
  | '.' :: rest => (ungroup? isDigit (rest.takeWhile isGrouped)).map fun digits => (digits, rest.dropWhile isGrouped)
  | rest => some ([], rest)

/-- The exponent that ends a number, zero if there is none. -/
def exponent? : List Char → Option Int
  | [] => some 0
  | c :: rest =>
    if c = 'e' ∨ c = 'E' then
      match rest with
      | '-' :: digits => (ungroup? isDigit digits).map fun digits => -(digitsValue digits : Int)
      | '+' :: digits => (ungroup? isDigit digits).map fun digits => (digitsValue digits : Int)
      | digits => (ungroup? isDigit digits).map fun digits => (digitsValue digits : Int)
    else none

def real? (negative : Bool) (text : List Char) : Option Binary64 := do
  let whole ← decimalDigits? (text.takeWhile isGrouped)
  let (fraction, rest) ← fraction? (text.dropWhile isGrouped)
  let exponent ← exponent? rest
  let value := Binary64.ofDecimal negative (digitsValue (whole ++ fraction)) (exponent - fraction.length)
  if value.isInfinite then none else some value

/-- A decimal number behind its sign, or one of the words for special values. -/
def number? (negative : Bool) (text : List Char) : Option Setting :=
  if text = ['i', 'n', 'f'] then some (.real (.infinite negative))
  else if text = ['n', 'a', 'n'] then some (.real .nan)
  else if text.all isGrouped then (decimalInteger? negative text).map .integer
  else (real? negative text).map .real

def scalarValue? : List Char → Option Setting
  | ['t', 'r', 'u', 'e'] => some (.bool true)
  | ['f', 'a', 'l', 's', 'e'] => some (.bool false)
  | '0' :: 'x' :: rest => (baseInteger? 16 rest).map .integer
  | '0' :: 'o' :: rest => (baseInteger? 8 rest).map .integer
  | '0' :: 'b' :: rest => (baseInteger? 2 rest).map .integer
  | '-' :: rest => number? true rest
  | '+' :: rest => number? false rest
  | text => (number? false text).or ((Moment.ofText? text).map fun moment => .text moment.text)

/-!
## Tables of TOML

A table knows how it came about, because that decides what may still be added to
it. Points in keys add to tables that points have made and to those that only lie
above a table with a header, and take these for their own. Only a table above
that no point has led to may still get its header. Values, tables in braces among
them, are never added to.
-/

inductive Origin where
  | header
  /-- Named only on the way to the header of another table. -/
  | above
  /-- Made, or led through, by a key with points. -/
  | points
deriving DecidableEq

inductive Node where
  | value (value : Setting)
  | table (origin : Origin) (entries : List (String × Node))
  /-- The tables of an array, each begun by its own header, the latest first. -/
  | elements (latest : List (String × Node)) (earlier : List (List (String × Node)))

abbrev Entries := List (String × Node)

/-- Changes the table that a header names; the tables above it are made if they
are missing. Of an array of tables the last one is meant. -/
def changeAt (change : Entries → Option Entries) : List String → Entries → Option Entries
  | [], entries => change entries
  | key :: rest, entries =>
    let node : Option Node :=
      match entries.lookup key with
      | none => (changeAt change rest []).map (.table .above)
      | some (.table origin below) => (changeAt change rest below).map (.table origin)
      | some (.elements latest earlier) => (changeAt change rest latest).map (.elements · earlier)
      | some (.value _) => none
    node.map fun node => Setting.insert key node entries

/-- Begins the table of a header. -/
def beginTable (key : String) (entries : Entries) : Option Entries :=
  match entries.lookup key with
  | none => some (Setting.insert key (.table .header []) entries)
  | some (.table .above below) => some (Setting.insert key (.table .header below) entries)
  | some _ => none

/-- Begins one more table of an array. -/
def beginElement (key : String) (entries : Entries) : Option Entries :=
  match entries.lookup key with
  | none => some (Setting.insert key (.elements [] []) entries)
  | some (.elements latest earlier) => some (Setting.insert key (.elements [] (latest :: earlier)) entries)
  | some _ => none

/-- Gives a key its value. The points of the key lead through tables that have no
header; on the way to one of these they may also pass the last table of an array. -/
def assign (value : Setting) (first : String) : List String → Entries → Option Entries
  | [], entries =>
    if (entries.lookup first).isSome then none else some (Setting.insert first (.value value) entries)
  | next :: rest, entries =>
    let node : Option Node :=
      match entries.lookup first with
      | none => (assign value next rest []).map (.table .points)
      | some (.table .header _) => none
      | some (.table _ below) => (assign value next rest below).map (.table .points)
      | some (.elements latest earlier) =>
        if rest.isEmpty then none else (assign value next rest latest).map (.elements · earlier)
      | some (.value _) => none
    node.map fun node => Setting.insert first node entries

mutual

def Node.toSetting : Node → Setting
  | .value value => value
  | .table _ entries => .table (settingsOf entries)
  | .elements latest earlier => .array (.table (settingsOf latest) :: elementsOf earlier).reverse

/-- The values that entries stand for. -/
def settingsOf : Entries → List (String × Setting)
  | [] => []
  | entry :: rest => settingOf entry :: settingsOf rest

def settingOf : String × Node → String × Setting
  | (key, node) => (key, node.toSetting)

def elementsOf : List Entries → List Setting
  | [] => []
  | entries :: rest => .table (settingsOf entries) :: elementsOf rest

end

/-!
## Statements of TOML

A document is a list of headers and assignments. The reader goes once over the
words and keeps the brackets and braces that are still open in a list. Lines may
break between the items of an array, between the members of a table in braces and
around their equals signs, but not within a key. The last item or member may be
followed by a comma.
-/

/-- Names, the first apart from the others. -/
abbrev KeyPath := String × List String

inductive Statement where
  | table (path : KeyPath)
  | element (path : KeyPath)
  | assignment (path : KeyPath) (value : Setting)

/-- What waits for a value, innermost first: an array, the entries of a table in
braces, and at the bottom the assignment itself. -/
inductive Frame where
  | items (done : List Setting)
  | members (done : Entries) (path : KeyPath)
  | assignment (path : KeyPath)

/-- What a key is read for. -/
inductive KeyUse where
  | table
  | element
  | assignment
  | member (done : Entries) (around : List Frame)

inductive Position where
  | lineStart
  /-- Behind the first bracket of a line. -/
  | bracket
  /-- Before a part of a key, with the parts so far, the latest first. -/
  | key (purpose : KeyUse) (parts : List String)
  /-- Behind a part of a key. -/
  | keyPart (purpose : KeyUse) (last : String) (parts : List String)
  /-- Behind the first of the two brackets that close a header. -/
  | closing (path : KeyPath)
  | lineEnd
  /-- Where a member of a table in braces may begin. -/
  | member (done : Entries) (around : List Frame)
  /-- Behind a line break that follows the key of a member. -/
  | memberKey (done : Entries) (path : KeyPath) (around : List Frame)
  | value (around : List Frame)
  /-- Behind a part of a value in a single word. -/
  | scalar (text : List Char) (around : List Frame)
  /-- Behind a date and one space, where a time may follow. -/
  | afterDate (text : List Char) (around : List Frame)
  /-- Behind a complete value. -/
  | complete (value : Setting) (around : List Frame)

/-- Most brackets and braces that may be open at once, and most parts of a key. -/
def nestingLimit : Nat := 80

/-- The part of a key that a word is. -/
def keyPart? : Token → Option String
  | .word text => if text.all isNameChar then some (String.ofList text) else none
  | .text false value => some (String.ofList value)
  | _ => none

/-- The parts of a key, the latest first, as a path. -/
def pathOf (last : String) : List String → KeyPath
  | [] => (last, [])
  | parts => (parts.getLast?.getD last, parts.reverse.drop 1 ++ [last])

/-- Opens an array or a table in braces. The assignment at the bottom does not count. -/
def openBracket (around : List Frame) (inside : Position) : Option Position :=
  if around.length ≤ nestingLimit then some inside else none

def closeTable (done : Entries) (around : List Frame) : Position := .complete (.table (settingsOf done)) around

/-- A word where a value must stand. -/
def stepValue (around : List Frame) (token : Token) : Option Position :=
  match token with
  | .blank _ => some (.value around)
  | .word text => some (.scalar text around)
  | .point => some (.scalar ['.'] around)
  | .text _ value => some (.complete (.text (String.ofList value)) around)
  | .leftBracket => openBracket around (.value (.items [] :: around))
  | .leftBrace => openBracket around (.member [] around)
  | .lineBreak =>
    match around with
    | .items _ :: _ => some (.value around)
    | .members _ _ :: _ => some (.value around)
    | _ => none
  | .rightBracket =>
    match around with
    | .items done :: around => some (.complete (.array done.reverse) around)
    | _ => none
  | _ => none

/-- A word behind a complete value, and the statement that it completes. -/
def stepComplete (value : Setting) (around : List Frame) (token : Token) : Option (Position × Option Statement) :=
  match around, token with
  | around, .blank _ => some (.complete value around, none)
  | [.assignment path], .lineBreak => some (.lineStart, some (.assignment path value))
  | .items done :: around, .comma => some (.value (.items (value :: done) :: around), none)
  | .items done :: around, .rightBracket => some (.complete (.array (value :: done).reverse) around, none)
  | .items done :: around, .lineBreak => some (.complete value (.items done :: around), none)
  | .members done path :: around, .comma =>
    (assign value path.1 path.2 done).map fun done => (.member done around, none)
  | .members done path :: around, .rightBrace =>
    (assign value path.1 path.2 done).map fun done => (closeTable done around, none)
  | .members done path :: around, .lineBreak => some (.complete value (.members done path :: around), none)
  | _, _ => none

/-- A word where a part of a key must stand. -/
def stepKey (purpose : KeyUse) (parts : List String) (token : Token) : Option Position :=
  match token with
  | .blank _ => some (.key purpose parts)
  | token =>
    if parts.length < nestingLimit then (keyPart? token).map fun part => .keyPart purpose part parts else none

/-- A word behind a part of a key, and the statement that it completes. -/
def stepKeyPart (purpose : KeyUse) (last : String) (parts : List String) (token : Token) :
    Option (Position × Option Statement) :=
  match token, purpose with
  | .blank _, purpose => some (.keyPart purpose last parts, none)
  | .point, purpose => some (.key purpose (last :: parts), none)
  | .rightBracket, .table => some (.lineEnd, some (.table (pathOf last parts)))
  | .rightBracket, .element => some (.closing (pathOf last parts), none)
  | .equals, .assignment => some (.value [.assignment (pathOf last parts)], none)
  | .equals, .member done around => some (.value (.members done (pathOf last parts) :: around), none)
  | .lineBreak, .member done around => some (.memberKey done (pathOf last parts) around, none)
  | _, _ => none

/-- A date, which one space may part from a time. -/
def isDate (text : List Char) : Bool := ((Date.read? text).map fun read => read.2.isEmpty).getD false

def step (position : Position) (token : Token) : Option (Position × Option Statement) :=
  match position, token with
  | .lineStart, .blank _ => some (.lineStart, none)
  | .lineStart, .lineBreak => some (.lineStart, none)
  | .lineStart, .leftBracket => some (.bracket, none)
  | .lineStart, token => (stepKey .assignment [] token).map (·, none)
  | .bracket, .leftBracket => some (.key .element [], none)
  | .bracket, token => (stepKey .table [] token).map (·, none)
  | .key purpose parts, token => (stepKey purpose parts token).map (·, none)
  | .keyPart purpose last parts, token => stepKeyPart purpose last parts token
  | .closing path, .rightBracket => some (.lineEnd, some (.element path))
  | .closing _, _ => none
  | .lineEnd, .blank _ => some (.lineEnd, none)
  | .lineEnd, .lineBreak => some (.lineStart, none)
  | .lineEnd, _ => none
  | .member done around, .blank _ => some (.member done around, none)
  | .member done around, .lineBreak => some (.member done around, none)
  | .member done around, .rightBrace => some (closeTable done around, none)
  | .member done around, token => (stepKey (.member done around) [] token).map (·, none)
  | .memberKey done path around, .blank _ => some (.memberKey done path around, none)
  | .memberKey done path around, .lineBreak => some (.memberKey done path around, none)
  | .memberKey done path around, .equals => some (.value (.members done path :: around), none)
  | .memberKey _ _ _, _ => none
  | .value around, token => (stepValue around token).map (·, none)
  | .scalar text around, .word more => some (.scalar (text ++ more) around, none)
  | .scalar text around, .point => some (.scalar (text ++ ['.']) around, none)
  | .scalar text around, token =>
    if isDate text ∧ token = .blank ' ' then some (.afterDate text around, none)
    else (scalarValue? text).bind fun value => stepComplete value around token
  | .afterDate text around, .word more => some (.scalar (text ++ ' ' :: more) around, none)
  | .afterDate text around, token => (scalarValue? text).bind fun value => stepComplete value around token
  | .complete value around, token => stepComplete value around token

/-- The statements from a position on. The end of a text is the start of a line. -/
def readStatements : Position → List Token → Option (List Statement)
  | .lineStart, [] => some []
  | _, [] => none
  | position, token :: rest =>
    (step position token).bind fun (position, statement) =>
      (readStatements position rest).map (statement.toList ++ ·)

/-- The statements of a document. -/
def statements? (text : String) : Option (List Statement) :=
  (tokens text.toList).bind (readStatements .lineStart)

/-!
## Documents of TOML

Statements fill one table. Assignments go to the table of the latest header.
-/

/-- What has been read: the table so far and the path of the latest header. -/
structure Document where
  entries : Entries
  current : List String

namespace Document

/-- Begins what a header names in the table above it. -/
def begin (document : Document) (start : String → Entries → Option Entries) (path : KeyPath) : Option Document :=
  let full := path.1 :: path.2
  (changeAt (start (full.getLast?.getD path.1)) full.dropLast document.entries).map fun entries => ⟨entries, full⟩

def add (document : Document) : Statement → Option Document
  | .table path => document.begin beginTable path
  | .element path => document.begin beginElement path
  | .assignment path value =>
    (changeAt (assign value path.1 path.2) document.current document.entries).map fun entries =>
      { document with entries }

/-- The table that a text spells. -/
def ofText? (text : String) : Option (List (String × Setting)) := do
  let statements ← statements? text
  let document ← statements.foldlM add ⟨[], []⟩
  pure (settingsOf document.entries)

end Document

end Residency.Toml
