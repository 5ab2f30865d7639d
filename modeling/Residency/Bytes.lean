/-!
# Bytes

Numbers in both byte orders, blocks of a fixed length, hexadecimal text, and bytes
that may or may not be UTF-8.
-/

/-!
## Big-endian numbers of any width

Fields of the managed attribute have widths that need not be those of a machine
word. `encode` writes the low bytes of a number, most significant first, and
fills with zeros what a 64-bit number cannot reach. `load` reads any number of
bytes and keeps the value modulo 2^64.
-/

namespace Residency.BigEndian

/-- The low `width` bytes of a number, least significant first: the last byte is
taken off and the rest moves down, until the width is full. -/
def lowBytes : Nat → UInt64 → List UInt8
  | 0, _ => []
  | width + 1, value => value.toUInt8 :: lowBytes width (value >>> 8)

/-- The low `width` bytes of a number, most significant first. -/
def encode (width : Nat) (value : UInt64) : List UInt8 := (lowBytes width value).reverse

/-- Fills a slot of any previous content with a number of the slot's width. -/
def store (slot : List UInt8) (value : UInt64) : List UInt8 := encode slot.length value

/-- The number that the bytes spell; bits beyond the sixty-fourth are shifted out. -/
def load (bytes : List UInt8) : UInt64 := bytes.foldl (fun acc byte => acc <<< 8 ||| byte.toUInt64) 0

@[simp] theorem length_lowBytes (width : Nat) (value : UInt64) : (lowBytes width value).length = width := by
  induction width generalizing value with
  | zero => rfl
  | succ width ih => simp [lowBytes, ih]

@[simp] theorem length_encode (width : Nat) (value : UInt64) : (encode width value).length = width := by
  simp [encode]

@[simp] theorem length_store (slot : List UInt8) (value : UInt64) :
    (store slot value).length = slot.length := length_encode ..

end Residency.BigEndian

/-!
## Little-endian numbers

The byte order of file handles: the big-endian bytes, last first.
-/

namespace Residency.LittleEndian

def encode (width : Nat) (value : UInt64) : List UInt8 := (BigEndian.encode width value).reverse

def load (bytes : List UInt8) : UInt64 := BigEndian.load bytes.reverse

@[simp] theorem length_encode (width : Nat) (value : UInt64) : (encode width value).length = width := by
  simp [encode]

end Residency.LittleEndian

/-!
## Blocks of bytes

`overlay` writes bytes over part of a block without changing its length.
`FixedBytes n` are blocks whose length is part of the type.
-/

namespace Residency

/-- The block with `bytes` written from `offset` on; what would pass its end is cut off. -/
def overlay (offset : Nat) (bytes block : List UInt8) : List UInt8 :=
  block.take offset ++ bytes.take (block.length - offset) ++ block.drop (offset + bytes.length)

/-- A block of zero bytes. -/
def zeros (n : Nat) : List UInt8 := List.replicate n 0

@[simp] theorem length_overlay (offset : Nat) (bytes block : List UInt8) :
    (overlay offset bytes block).length = block.length := by
  simp only [overlay, List.length_append, List.length_take, List.length_drop]
  omega

theorem overlay_append (front bytes : List UInt8) {rest : List UInt8} (fits : bytes.length ≤ rest.length) :
    overlay front.length bytes (front ++ rest) = front ++ (bytes ++ rest.drop bytes.length) := by
  simp [overlay, List.take_of_length_le, fits, List.drop_append]

@[simp] theorem length_zeros (n : Nat) : (zeros n).length = n := List.length_replicate

/-- Exactly `n` bytes. -/
structure FixedBytes (n : Nat) where
  toList : List UInt8
  length_toList : toList.length = n
deriving DecidableEq

namespace FixedBytes

/-- The first `n` bytes, followed by zeros where there are fewer. -/
def ofPadded (n : Nat) (bytes : List UInt8) : FixedBytes n where
  toList := (bytes ++ zeros n).take n
  length_toList := by simp

/-- The bytes as a block of their own length, if that is `n`. -/
def ofList? (n : Nat) (bytes : List UInt8) : Option (FixedBytes n) :=
  if h : bytes.length = n then some ⟨bytes, h⟩ else none

def overlay {n : Nat} (offset : Nat) (bytes : List UInt8) (block : FixedBytes n) : FixedBytes n where
  toList := Residency.overlay offset bytes block.toList
  length_toList := by simp [block.length_toList]

@[ext] theorem ext {n : Nat} {a b : FixedBytes n} (h : a.toList = b.toList) : a = b := by
  cases a; cases b; cases h; rfl

theorem ofPadded_append {n : Nat} (block : FixedBytes n) (rest : List UInt8) :
    ofPadded n (block.toList ++ rest) = block := by
  ext1
  simp [ofPadded, List.append_assoc, List.take_left' block.length_toList]

end FixedBytes

end Residency

/-!
## Hexadecimal text

Two digits a byte, written in lower case and read in either. Reading looks at
the UTF-8 bytes of the text: an odd number of them is refused first, then the
first byte that is no digit, by its position.
-/

namespace Residency.Hex

def digitChar (n : Nat) : Char :=
  if n < 10 then Char.ofNat ('0'.toNat + n) else Char.ofNat ('a'.toNat + (n - 10))

def encodeByte (byte : UInt8) : List Char := [digitChar (byte.toNat / 16), digitChar (byte.toNat % 16)]

def encodeChars (bytes : List UInt8) : List Char := bytes.flatMap encodeByte

def encode (bytes : List UInt8) : String := String.ofList (encodeChars bytes)

inductive Error where
  | oddLength
  | badCharacter (byte : UInt8) (position : Nat)
deriving DecidableEq

/-- The digit that a byte of ASCII text stands for. -/
def digitValue? (byte : UInt8) : Option Nat :=
  let n := byte.toNat
  if 48 ≤ n ∧ n ≤ 57 then some (n - 48)
  else if 97 ≤ n ∧ n ≤ 102 then some (n - 87)
  else if 65 ≤ n ∧ n ≤ 70 then some (n - 55)
  else none

/-- Reads pairs of digits; `position` is that of the first byte of `text`. -/
def decodePairs (position : Nat) : List UInt8 → Except Error (List UInt8)
  | high :: low :: rest =>
    match digitValue? high with
    | none => .error (.badCharacter high position)
    | some h =>
      match digitValue? low with
      | none => .error (.badCharacter low (position + 1))
      | some l => (decodePairs (position + 2) rest).map (UInt8.ofNat (16 * h + l) :: ·)
  | _ => .ok []

def decode (text : List UInt8) : Except Error (List UInt8) :=
  if text.length % 2 = 0 then decodePairs 0 text else .error .oddLength

/-- How a character below U+0100 is shown between single quotes: control
characters, the quote, the backslash, the no-break space and the soft hyphen are
escaped. -/
def shown (byte : UInt8) : String :=
  let n := byte.toNat
  if n = 0 then "\\0"
  else if n = 9 then "\\t"
  else if n = 10 then "\\n"
  else if n = 13 then "\\r"
  else if n = 39 then "\\'"
  else if n = 92 then "\\\\"
  else if n < 32 ∨ (127 ≤ n ∧ n ≤ 160) ∨ n = 173 then
    "\\u\x7b" ++ String.ofList (Nat.toDigits 16 n) ++ "\x7d"
  else (Char.ofNat n).toString

def Error.message : Error → String
  | .oddLength => "Odd number of digits"
  | .badCharacter byte position => s!"Invalid character '{shown byte}' at position {position}"

end Residency.Hex

/-!
## Text from bytes that may not be UTF-8

Each longest beginning of a character that is not completed, and each byte that
begins none, becomes the replacement character.
-/

namespace Residency.Utf8

def replacement : Char := '\uFFFD'

/-- A character whose first bytes have been read: how many bytes are to follow,
the range of the next one, and the bits of the code point so far. -/
structure Pending where
  missing : Nat
  low : Nat
  high : Nat
  code : Nat
deriving DecidableEq

/-- What a first byte announces. -/
def announced? (byte : UInt8) : Option Pending :=
  let n := byte.toNat
  if 0xC2 ≤ n ∧ n ≤ 0xDF then some ⟨1, 0x80, 0xBF, n - 0xC0⟩
  else if n = 0xE0 then some ⟨2, 0xA0, 0xBF, 0⟩
  else if n = 0xED then some ⟨2, 0x80, 0x9F, 0xD⟩
  else if 0xE1 ≤ n ∧ n ≤ 0xEF then some ⟨2, 0x80, 0xBF, n - 0xE0⟩
  else if n = 0xF0 then some ⟨3, 0x90, 0xBF, 0⟩
  else if 0xF1 ≤ n ∧ n ≤ 0xF3 then some ⟨3, 0x80, 0xBF, n - 0xF0⟩
  else if n = 0xF4 then some ⟨3, 0x80, 0x8F, 4⟩
  else none

/-- A byte where a character may begin: what it stands for at once, and what it
leaves pending. -/
def begin (byte : UInt8) : List Char × Option Pending :=
  if byte < 0x80 then ([Char.ofNat byte.toNat], none)
  else
    match announced? byte with
    | some pending => ([], some pending)
    | none => ([replacement], none)

/-- One more byte. A byte that does not go on with a pending character ends it as
a replacement and begins anew. -/
def step (pending : Option Pending) (byte : UInt8) : List Char × Option Pending :=
  match pending with
  | none => begin byte
  | some pending =>
    if pending.low ≤ byte.toNat ∧ byte.toNat ≤ pending.high then
      let code := pending.code * 64 + byte.toNat % 64
      if pending.missing ≤ 1 then ([Char.ofNat code], none)
      else ([], some ⟨pending.missing - 1, 0x80, 0xBF, code⟩)
    else
      let (written, pending) := begin byte
      (replacement :: written, pending)

def decodeFrom (pending : Option Pending) : List UInt8 → List Char
  | [] => if pending.isSome then [replacement] else []
  | byte :: rest => (step pending byte).1 ++ decodeFrom (step pending byte).2 rest

def decodeLossy (bytes : List UInt8) : List Char := decodeFrom none bytes

end Residency.Utf8

/-!
## Text as the system hands it over

Arguments, variables and paths are bytes, which need not be UTF-8. They have a
text if they are; else they can only be shown.
-/

namespace Residency

abbrev RawText := List UInt8

namespace RawText

def ofString (text : String) : RawText := text.toUTF8.data.toList

instance : Coe String RawText := ⟨ofString⟩

/-- The text whose UTF-8 these bytes are. -/
def text? (raw : RawText) : Option String := String.fromUTF8? ⟨raw.toArray⟩

/-- What is shown of the bytes, whatever they are. -/
def shown (raw : RawText) : String := String.ofList (Utf8.decodeLossy raw)

/-- Where the first NUL stands. -/
def nulPosition? (raw : RawText) : Option Nat := raw.findIdx? (· == 0)

theorem ofString_append (front back : String) : ofString (front ++ back) = ofString front ++ ofString back := by
  simp [ofString]

theorem text?_eq_some_iff {raw : RawText} {text : String} : text? raw = some text ↔ raw = ofString text := by
  unfold text? String.fromUTF8?
  constructor
  · intro read
    split at read
    · cases read
      rfl
    · cases read
  · rintro rfl
    have valid : (ByteArray.mk (ofString text).toArray).IsValidUTF8 := by
      simpa [ofString] using text.isValidUTF8
    rw [dif_pos valid]
    rfl

@[simp] theorem text?_ofString (text : String) : text? (ofString text) = some text := text?_eq_some_iff.mpr rfl

end RawText

/-- Names and values of variables. -/
abbrev Environment := List (RawText × RawText)

end Residency
