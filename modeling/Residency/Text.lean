/-!
# Characters and numbers in text

What counts as a blank and what as lower case, and how integers and binary64 numbers
are read and written.
-/

/-!
## Blank characters

The twenty-five characters of the Unicode property White_Space.
-/

namespace Residency.Text

/-- Closed ranges of code points, ascending and apart. -/
def blankRanges : List (Nat × Nat) := [
  (0x09, 0x0D), (0x20, 0x20), (0x85, 0x85), (0xA0, 0xA0), (0x1680, 0x1680), (0x2000, 0x200A),
  (0x2028, 0x2029), (0x202F, 0x202F), (0x205F, 0x205F), (0x3000, 0x3000)]

def isBlank (c : Char) : Bool := blankRanges.any fun (low, high) => low ≤ c.toNat && c.toNat ≤ high

/-- The text without the blanks at its ends. -/
def trim (text : List Char) : List Char := ((text.dropWhile isBlank).reverse.dropWhile isBlank).reverse

example : (blankRanges.map fun (low, high) => high + 1 - low).sum = 25 := by decide

/-!
## Lower case

Names and words are compared in lower case, and all that are looked for are of
ASCII letters. So only characters whose lower-case forms hold such letters count:
the capitals, the Kelvin sign, and the capital I with a dot above, whose form is
the letter and the dot as a character of its own. All others stay as they are.
-/

def lowerForm (c : Char) : List Char :=
  if c = '\u212A' then ['k']
  else if c = '\u0130' then ['i', '\u0307']
  else [c.toLower]

def lowerChars (text : List Char) : List Char := text.flatMap lowerForm

def lower (text : String) : String := String.ofList (lowerChars text.toList)

end Residency.Text

/-!
## Integers in text

ASCII digits only, any number of leading zeros, no separators. A signed decimal
number may carry either sign, an unsigned one a plus. What does not fit its
width is refused. Hexadecimal digits may have either case.
-/

namespace Residency

def isDigit (c : Char) : Bool := 48 ≤ c.toNat && c.toNat ≤ 57

def digitValue (c : Char) : Nat := c.toNat - 48

/-- The number that digits spell. -/
def digitsValue (digits : List Char) : Nat := digits.foldl (fun acc c => 10 * acc + digitValue c) 0

/-- At least one digit and nothing else. -/
def readNat? (text : List Char) : Option Nat :=
  if text.all isDigit && !text.isEmpty then some (digitsValue text) else none

/-- A number with an optional sign. -/
def readInt? : List Char → Option Int
  | '-' :: digits => (readNat? digits).map fun n => -(n : Int)
  | '+' :: digits => (readNat? digits).map fun n => (n : Int)
  | digits => (readNat? digits).map fun n => (n : Int)

/-- The signed 64-bit range. -/
def inInt64 (n : Int) : Bool := Int64.minValue.toInt ≤ n && n ≤ Int64.maxValue.toInt

def readInt64? (text : List Char) : Option Int := (readInt? text).filter inInt64

def readUInt64? : List Char → Option Nat
  | '+' :: digits => (readNat? digits).filter (· < UInt64.size)
  | digits => (readNat? digits).filter (· < UInt64.size)

def hexValue? (c : Char) : Option Nat :=
  let n := c.toNat
  if 48 ≤ n ∧ n ≤ 57 then some (n - 48)
  else if 97 ≤ n ∧ n ≤ 102 then some (n - 87)
  else if 65 ≤ n ∧ n ≤ 70 then some (n - 55)
  else none

/-- The number that hexadecimal digits spell. -/
def hexNumber? (digits : List Char) : Option Nat :=
  digits.foldl (fun acc c => acc.bind fun n => (hexValue? c).map (16 * n + ·)) (some 0)

/-!
## Binary64 numbers

A finite number is a significand below 2^53 times a power of two not below
2^-1074. Every operation takes the exact quotient of two naturals and rounds it
once, to the nearest number, on a tie to the even one.
-/

/-- `n * base ^ exponent` for an exponent that is not negative, else `n`. -/
def raise (base : Nat) (exponent : Int) (n : Nat) : Nat := n * Nat.pow base exponent.toNat

inductive Binary64 where
  | nan
  | infinite (negative : Bool)
  /-- The sign, the significand and the exponent of two. -/
  | finite (negative : Bool) (significand : Nat) (exponent : Int)
deriving DecidableEq

namespace Binary64

def significandBits : Nat := 53

/-- Significands are below this. -/
def significandLimit : Nat := 1 <<< significandBits

def leastExponent : Int := -1074

def greatestExponent : Int := 971

def zero (negative : Bool) : Binary64 := .finite negative 0 leastExponent

/-- The quotient rounded to the nearest natural, a half to the even one. -/
def roundQuotient (num den : Nat) : Nat :=
  let quotient := num / den
  match compare (2 * (num % den)) den with
  | .lt => quotient
  | .gt => quotient + 1
  | .eq => quotient + quotient % 2

/-- `num / den` in units of `2 ^ exponent`, as a quotient of naturals. -/
def inUnits (num den : Nat) (exponent : Int) : Nat × Nat := (raise 2 (-exponent) num, raise 2 exponent den)

/-- The exponent at which a positive quotient has 53 bits, or the least one. -/
def exponentFor (num den : Nat) : Int :=
  let exponent := max leastExponent ((num.log2 : Int) - den.log2 - significandBits)
  let (n, d) := inUnits num den exponent
  if n / d < significandLimit then exponent else exponent + 1

/-- The number nearest to a quotient. -/
def ofQuotient (negative : Bool) (num den : Nat) : Binary64 :=
  if num = 0 then zero negative
  else
    let exponent := exponentFor num den
    let (n, d) := inUnits num den exponent
    let significand := roundQuotient n d
    let (significand, exponent) :=
      if significand = significandLimit then (significandLimit / 2, exponent + 1)
      else (significand, exponent)
    if greatestExponent < exponent then .infinite negative else .finite negative significand exponent

/-- The number nearest to `num / den * 2 ^ scale`. -/
def ofScaled (negative : Bool) (num den : Nat) (scale : Int) : Binary64 :=
  ofQuotient negative (raise 2 scale num) (raise 2 (-scale) den)

/-- The number nearest to `digits * 10 ^ exponent`. Far outside the range the
power of ten is not computed. -/
def ofDecimal (negative : Bool) (digits : Nat) (exponent : Int) : Binary64 :=
  if digits = 0 then zero negative
  else if 400 < exponent then .infinite negative
  else if exponent < -(400 + digits.log2 : Int) then zero negative
  else ofQuotient negative (raise 10 exponent digits) (raise 10 (-exponent) 1)

def ofNat (n : Nat) : Binary64 := ofQuotient false n 1

/-- Products and quotients of finite numbers by a positive one. -/
def mul : Binary64 → Binary64 → Binary64
  | .finite s m e, .finite t n f => ofScaled (s != t) (m * n) 1 (e + f)
  | _, _ => .nan

def div : Binary64 → Binary64 → Binary64
  | .finite s m e, .finite t n f => if n = 0 then .nan else ofScaled (s != t) m n (e - f)
  | _, _ => .nan

def neg : Binary64 → Binary64
  | .nan => .nan
  | .infinite s => .infinite !s
  | .finite s m e => .finite (!s) m e

def isZero : Binary64 → Bool
  | .finite _ m _ => m == 0
  | _ => false

def isInfinite : Binary64 → Bool
  | .infinite _ => true
  | _ => false

/-- The size of a finite number rounded to a natural, a half upwards. -/
def roundAway (significand : Nat) (exponent : Int) : Nat :=
  let half := raise 2 (-exponent) 1
  (2 * raise 2 exponent significand + half) / (2 * half)

/-- Rounded to an unsigned 64-bit number, which stays at the end of its range
that is nearer; what is no number becomes zero. -/
def toUInt64 : Binary64 → Nat
  | .nan => 0
  | .infinite negative => if negative then 0 else UInt64.size - 1
  | .finite negative m e => if negative then 0 else min (roundAway m e) (UInt64.size - 1)

end Binary64

/-!
## Shortest decimals

The text of a binary64 number has the fewest digits that read back to it. Of two
such decimals the nearer is taken, on a tie the greater. The digits are always
written positionally, without an exponent. Reading accepts that and exponents,
signs, and the words for infinity and for what is no number.
-/

/-- `digits * 10 ^ exponent`. -/
structure Decimal where
  digits : Nat
  exponent : Int
deriving DecidableEq

namespace Decimal

/-- Compares `a * 10 ^ i` with `n * 2 ^ j`. -/
def compareScaled (a : Nat) (i : Int) (n : Nat) (j : Int) : Ordering :=
  compare (raise 2 (-j) (raise 10 i a)) (raise 10 (-i) (raise 2 j n))

/-- The gap below a power of two is half the gap above it. -/
def narrowBelow (significand : Nat) (exponent : Int) : Bool :=
  significand == Binary64.significandLimit / 2 && Binary64.leastExponent < exponent

/-- The decimal lies among the numbers that round to `significand * 2 ^ exponent`.
The ends of that interval belong to it if the significand is even. -/
def readsBack (significand : Nat) (exponent : Int) (decimal : Decimal) : Bool :=
  let low := 4 * significand - (if narrowBelow significand exponent then 1 else 2)
  let high := 4 * significand + 2
  let even := significand % 2 == 0
  let below := compareScaled decimal.digits decimal.exponent low (exponent - 2)
  let above := compareScaled decimal.digits decimal.exponent high (exponent - 2)
  (below == .gt || even && below == .eq) && (above == .lt || even && above == .eq)

/-- The least `k` such that a positive number is below `10 ^ k`. -/
def magnitude (significand : Nat) (exponent : Int) : Int :=
  let estimate := Int.fdiv (((significand.log2 : Int) + exponent) * 1233) 4096 + 1
  if compareScaled 1 estimate significand exponent == .gt then estimate else estimate + 1

/-- The better of the two neighbours of a number on the grid of `10 ^ exponent`,
if one of them reads back. -/
def onGrid (significand : Nat) (binary : Int) (exponent : Int) : Option Decimal :=
  let num := raise 10 (-exponent) (raise 2 binary significand)
  let den := raise 10 exponent (raise 2 (-binary) 1)
  let low : Decimal := ⟨num / den, exponent⟩
  let high : Decimal := ⟨num / den + 1, exponent⟩
  match readsBack significand binary low, readsBack significand binary high with
  | true, true => if 2 * num < (2 * low.digits + 1) * den then some low else some high
  | true, false => some low
  | false, true => some high
  | false, false => none

/-- The number itself, written out. -/
def exact (significand : Nat) (exponent : Int) : Decimal :=
  if 0 ≤ exponent then ⟨raise 2 exponent significand, 0⟩ else ⟨raise 5 (-exponent) significand, exponent⟩

/-- Grids from coarse to fine: the first that holds a decimal which reads back. -/
def shortest (significand : Nat) (exponent : Int) : Decimal :=
  let top := magnitude significand exponent
  ((List.range 17).findSome? fun n : Nat => onGrid significand exponent (top - 1 - n)).getD (exact significand exponent)

/-- Digits with a decimal point or with zeros behind them, as the exponent asks. -/
def positional (decimal : Decimal) : List Char :=
  let digits := Nat.toDigits 10 decimal.digits
  if 0 ≤ decimal.exponent then digits ++ List.replicate decimal.exponent.toNat '0'
  else
    let places := (-decimal.exponent).toNat
    let padded := List.replicate (places + 1 - digits.length) '0' ++ digits
    let whole := padded.take (padded.length - places)
    -- Zeros at the end of a fraction say nothing.
    let fraction := ((padded.drop (padded.length - places)).reverse.dropWhile (· == '0')).reverse
    if fraction.isEmpty then whole else whole ++ '.' :: fraction

end Decimal

namespace Binary64

/-- The shortest text that reads back. -/
def text : Binary64 → String
  | .nan => "NaN"
  | .infinite negative => if negative then "-inf" else "inf"
  | .finite negative significand exponent =>
    let digits := if significand = 0 then ['0'] else (Decimal.shortest significand exponent).positional
    String.ofList (if negative then '-' :: digits else digits)

/-- The digits of an exponent and its sign, after the letter. -/
def readExponent? : List Char → Option Int
  | [] => some 0
  | c :: rest => if c = 'e' ∨ c = 'E' then readInt? rest else none

/-- A decimal without its sign: digits, point and exponent, with a digit on one
side of the point at least. -/
def readUnsigned? (negative : Bool) (text : List Char) : Option Binary64 :=
  let whole := text.takeWhile isDigit
  let afterWhole := text.dropWhile isDigit
  let (fraction, rest) :=
    match afterWhole with
    | '.' :: rest => (rest.takeWhile isDigit, rest.dropWhile isDigit)
    | rest => ([], rest)
  if whole.isEmpty && fraction.isEmpty then none
  else (readExponent? rest).map fun exponent =>
    ofDecimal negative (digitsValue (whole ++ fraction)) (exponent - fraction.length)

/-- A number or one of the words for the special values, in any letter case. -/
def readSigned? (negative : Bool) (text : List Char) : Option Binary64 :=
  match String.ofList (text.map Char.toLower) with
  | "inf" => some (.infinite negative)
  | "infinity" => some (.infinite negative)
  | "nan" => some .nan
  | _ => readUnsigned? negative text

def ofText? : List Char → Option Binary64
  | '-' :: rest => readSigned? true rest
  | '+' :: rest => readSigned? false rest
  | rest => readSigned? false rest

end Binary64

end Residency
