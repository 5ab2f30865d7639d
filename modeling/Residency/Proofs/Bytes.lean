import Mathlib.Algebra.Group.Nat.Defs
import Mathlib.Data.List.Induction
import Mathlib.Data.List.TakeWhile
import Mathlib.Data.Nat.Digits.Defs
import Residency.Bytes
import Residency.Text

/-!
# Numbers in bytes and digits

Writing and reading undo each other: in bytes of any width, in decimals and in
hexadecimal digits.
-/

/-!
## What big-endian bytes spell

`valueOf` is the number that a list of bytes spells, without a bound. `load`
keeps it modulo 2^64, and `encode` spells the number modulo the power of 256
that its width holds. A field is therefore read back as it was written whenever
the number fits its width, and up to eight bytes are written back as they were
read.
-/

namespace Residency.BigEndian

def valueOf (bytes : List UInt8) : Nat := bytes.foldl (fun acc byte => acc * 256 + byte.toNat) 0

theorem valueOf_concat (bytes : List UInt8) (byte : UInt8) :
    valueOf (bytes ++ [byte]) = valueOf bytes * 256 + byte.toNat := by
  simp [valueOf, List.foldl_append]

theorem valueOf_eq_ofDigits (bytes : List UInt8) :
    valueOf bytes = Nat.ofDigits 256 (bytes.reverse.map UInt8.toNat) := by
  induction bytes using List.reverseRecOn with
  | nil => rfl
  | append_singleton bytes byte ih =>
    rw [valueOf_concat, ih, List.reverse_append, List.reverse_singleton, List.singleton_append, List.map_cons,
      Nat.ofDigits_cons]
    omega

theorem valueOf_lt (bytes : List UInt8) : valueOf bytes < 256 ^ bytes.length := by
  -- the last byte is the one that the fold adds last
  induction bytes using List.reverseRecOn with
  | nil => exact Nat.one_pos
  | append_singleton bytes byte ih =>
    have low : byte.toNat < 256 := byte.toNat_lt
    rw [valueOf_concat, List.length_append, List.length_singleton, Nat.pow_succ]
    omega

/-! ### Loading -/

theorem toNat_shift_or (acc : UInt64) (byte : UInt8) :
    (acc <<< 8 ||| byte.toUInt64).toNat = (acc.toNat * 256 + byte.toNat) % 2 ^ 64 := by
  -- the low eight bits of a shifted number are free for the next byte
  have shifted : acc.toNat * 256 % 2 ^ 64 = acc.toNat % 2 ^ 56 * 2 ^ 8 := by omega
  have hbyte : byte.toNat < 2 ^ 8 := byte.toNat_lt
  simp only [UInt64.toNat_or, UInt64.toNat_shiftLeft, UInt8.toNat_toUInt64, UInt64.toNat_ofNat,
    Nat.shiftLeft_eq]
  rw [show (8 : Nat) % 2 ^ 64 % 64 = 8 from rfl, show (2 : Nat) ^ 8 = 256 from rfl, shifted,
    ← Nat.shiftLeft_eq, ← Nat.shiftLeft_add_eq_or_of_lt hbyte, Nat.shiftLeft_eq]
  omega

theorem toNat_load (bytes : List UInt8) : (load bytes).toNat = valueOf bytes % 2 ^ 64 := by
  suffices h : ∀ (acc : UInt64) (n : Nat), acc.toNat = n % 2 ^ 64 →
      (bytes.foldl (fun (acc : UInt64) byte => acc <<< 8 ||| byte.toUInt64) acc).toNat =
        bytes.foldl (fun acc byte => acc * 256 + byte.toNat) n % 2 ^ 64 from h 0 0 rfl
  induction bytes with
  | nil => exact fun _ _ h => h
  | cons byte bytes ih =>
    intro acc n h
    refine ih _ (n * 256 + byte.toNat) ?_
    rw [toNat_shift_or, h]
    omega

/-! ### Reading back what was written -/

theorem toNat_shiftRight_byte (value : UInt64) : (value >>> 8).toNat = value.toNat / 256 := by
  simp [Nat.shiftRight_eq_div_pow]

theorem encode_succ (width : Nat) (value : UInt64) :
    encode (width + 1) value = encode width (value >>> 8) ++ [value.toUInt8] := by
  simp [encode, lowBytes]

theorem valueOf_encode (width : Nat) (value : UInt64) :
    valueOf (encode width value) = value.toNat % 256 ^ width := by
  induction width generalizing value with
  | zero => simp [encode, lowBytes, valueOf, Nat.mod_one]
  | succ width ih =>
    have high := toNat_shiftRight_byte value
    have low : value.toUInt8.toNat = value.toNat % 256 := UInt64.toNat_toUInt8 value
    rw [encode_succ, valueOf_concat, ih, high, low, Nat.pow_succ, Nat.mul_comm (256 ^ width),
      Nat.mod_mul]
    omega

theorem load_encode {width : Nat} {value : UInt64} (fits : value.toNat < 256 ^ width) :
    load (encode width value) = value := by
  apply UInt64.toNat_inj.mp
  rw [toNat_load, valueOf_encode, Nat.mod_eq_of_lt fits, Nat.mod_eq_of_lt value.toNat_lt]

theorem load_encode_uint16 (value : UInt16) : (load (encode 2 value.toUInt64)).toUInt16 = value := by
  rw [load_encode (by have := value.toNat_lt; simpa using this)]
  simp

theorem load_encode_uint32 (value : UInt32) : (load (encode 4 value.toUInt64)).toUInt32 = value := by
  rw [load_encode (by have := value.toNat_lt; simpa using this)]
  simp

theorem load_encode_uint64 (value : UInt64) : load (encode 8 value) = value :=
  load_encode (by have := value.toNat_lt; simpa using this)

theorem load_singleton (byte : UInt8) : (load [byte]).toUInt8 = byte := by
  simp [load]

/-! ### Writing back what was read -/

theorem toNat_load_short {bytes : List UInt8} (short : bytes.length ≤ 8) : (load bytes).toNat = valueOf bytes := by
  have bound : (256 : Nat) ^ bytes.length ≤ 256 ^ 8 := Nat.pow_le_pow_right (by decide) short
  have fits := valueOf_lt bytes
  rw [toNat_load]
  exact Nat.mod_eq_of_lt (by omega)

theorem encode_load {bytes : List UInt8} (short : bytes.length ≤ 8) : encode bytes.length (load bytes) = bytes := by
  induction bytes using List.reverseRecOn with
  | nil => rfl
  | append_singleton bytes byte ih =>
    have whole := toNat_load_short short
    rw [List.length_append, List.length_singleton] at short
    have front : (load bytes).toNat = valueOf bytes := toNat_load_short (by omega)
    have low : byte.toNat < 256 := byte.toNat_lt
    rw [valueOf_concat] at whole
    have rest : load (bytes ++ [byte]) >>> 8 = load bytes := by
      apply UInt64.toNat_inj.mp
      rw [toNat_shiftRight_byte, whole, front]
      omega
    have last : (load (bytes ++ [byte])).toUInt8 = byte := by
      apply UInt8.toNat_inj.mp
      rw [UInt64.toNat_toUInt8, whole]
      omega
    rw [List.length_append, List.length_singleton, encode_succ, rest, last, ih (by omega)]

/-!
## Slots of every width

A number stored into a slot puts its bytes at the end and zeros in front of the
eighth; loading takes the last eight bytes at most. Main statement: what storing
and loading do at every width, and how far one undoes the other (`store_load`).
-/

/-! ### Bytes of a number -/

/-- Eight bits of a number, counted in bytes from its lowest; beyond the highest they are zeros. -/
def byteOf (value : UInt64) (place : Nat) : UInt8 := ⟨value.toBitVec.extractLsb' (8 * place) 8⟩

theorem toNat_byteOf (value : UInt64) (place : Nat) :
    (byteOf value place).toNat = value.toNat >>> (8 * place) % 2 ^ 8 :=
  BitVec.extractLsb'_toNat ..

theorem byteOf_zero (value : UInt64) : byteOf value 0 = value.toUInt8 := by
  apply UInt8.toNat_inj.mp
  rw [toNat_byteOf, UInt64.toNat_toUInt8]
  rfl

theorem byteOf_succ (value : UInt64) (place : Nat) : byteOf value (place + 1) = byteOf (value >>> 8) place := by
  have eight : (8 : UInt64).toNat % 64 = 8 := rfl
  apply UInt8.toNat_inj.mp
  rw [toNat_byteOf, toNat_byteOf, UInt64.toNat_shiftRight, eight, ← Nat.shiftRight_add, Nat.mul_succ, Nat.add_comm 8]

theorem byteOf_beyond (value : UInt64) {place : Nat} (beyond : 8 ≤ place) : byteOf value place = 0 := by
  have bound : value.toNat < 2 ^ (8 * place) :=
    Nat.lt_of_lt_of_le value.toNat_lt (Nat.pow_le_pow_right (by decide) (by omega))
  apply UInt8.toNat_inj.mp
  rw [toNat_byteOf, Nat.shiftRight_eq_div_pow, Nat.div_eq_of_lt bound]
  rfl

theorem getElem?_lowBytes {width place : Nat} (inside : place < width) (value : UInt64) :
    (lowBytes width value)[place]? = some (byteOf value place) := by
  induction width generalizing place value with
  | zero => cases inside
  | succ width ih =>
    cases place with
    | zero => rw [lowBytes, List.getElem?_cons_zero, byteOf_zero]
    | succ place => rw [lowBytes, List.getElem?_cons_succ, ih (by omega), byteOf_succ]

theorem getElem?_encode {width place : Nat} (inside : place < width) (value : UInt64) :
    (encode width value)[width - 1 - place]? = some (byteOf value place) := by
  have mirrored : (lowBytes width value).length - 1 - (width - 1 - place) = place := by
    rw [length_lowBytes]; omega
  rw [encode, List.getElem?_reverse (by rw [length_lowBytes]; omega), mirrored, getElem?_lowBytes inside]

/-! ### Beyond eight bytes -/

theorem lowBytes_wide (value : UInt64) (more : Nat) : lowBytes (8 + more) value = lowBytes 8 value ++ zeros more := by
  apply List.ext_getElem?
  intro place
  by_cases inside : place < 8 + more
  · rw [getElem?_lowBytes inside]
    by_cases near : place < 8
    · rw [List.getElem?_append_left (by rw [length_lowBytes]; exact near), getElem?_lowBytes near]
    · rw [List.getElem?_append_right (by rw [length_lowBytes]; omega), length_lowBytes, zeros, List.getElem?_replicate,
        if_pos (by omega), byteOf_beyond value (by omega)]
  · rw [List.getElem?_eq_none (by rw [length_lowBytes]; omega),
      List.getElem?_eq_none (by rw [List.length_append, length_lowBytes, length_zeros]; omega)]

theorem encode_wide (value : UInt64) (more : Nat) : encode (8 + more) value = zeros more ++ encode 8 value := by
  rw [encode, lowBytes_wide, List.reverse_append, zeros, List.reverse_replicate]
  rfl

theorem load_append (front : List UInt8) {back : List UInt8} (full : back.length = 8) :
    load (front ++ back) = load back := by
  apply UInt64.toNat_inj.mp
  rw [toNat_load, toNat_load, valueOf_eq_ofDigits, valueOf_eq_ofDigits, List.reverse_append, List.map_append,
    Nat.ofDigits_append, List.length_map, List.length_reverse, full]
  omega

theorem encode_load_wide {bytes : List UInt8} (wide : 8 ≤ bytes.length) :
    encode bytes.length (load bytes) = zeros (bytes.length - 8) ++ bytes.drop (bytes.length - 8) := by
  have full : (bytes.drop (bytes.length - 8)).length = 8 := by
    rw [List.length_drop]; omega
  have last : load bytes = load (bytes.drop (bytes.length - 8)) := by
    conv_lhs => rw [← List.take_append_drop (bytes.length - 8) bytes]
    exact load_append _ full
  have back := encode_load (Nat.le_of_eq full)
  rw [full] at back
  calc encode bytes.length (load bytes)
      = encode (8 + (bytes.length - 8)) (load bytes) := by rw [Nat.add_sub_of_le wide]
    _ = zeros (bytes.length - 8) ++ encode 8 (load bytes) := encode_wide ..
    _ = zeros (bytes.length - 8) ++ bytes.drop (bytes.length - 8) := by rw [last, back]

theorem toNat_load_encode (width : Nat) (value : UInt64) :
    (load (encode width value)).toNat = value.toNat % 2 ^ (8 * min width 8) := by
  have bytes : ∀ n : Nat, (256 : Nat) ^ n = 2 ^ (8 * n) := fun n => by rw [Nat.pow_mul]
  rw [toNat_load, valueOf_encode, bytes]
  by_cases short : width ≤ 8
  · have reach : 2 ^ (8 * width) ≤ 2 ^ 64 := Nat.pow_le_pow_right (by decide) (by omega)
    have low := Nat.mod_lt value.toNat (Nat.two_pow_pos (8 * width))
    rw [Nat.min_eq_left short, Nat.mod_eq_of_lt (Nat.lt_of_lt_of_le low reach)]
  · have reach : 2 ^ 64 ≤ 2 ^ (8 * width) := Nat.pow_le_pow_right (by decide) (by omega)
    rw [Nat.min_eq_right (by omega), Nat.mod_eq_of_lt (Nat.lt_of_lt_of_le value.toNat_lt reach)]

/-! ### Both ways -/

/-- A slot of any width and content takes the bytes of a number from its end on, and
zeros in front of them; what is loaded from it is the number as far as it had room.
Loading reads digits of base 256 up to 64 bits, and storing the result leaves the last
eight bytes as they were and zeros in front of them. -/
theorem store_load (slot bytes : List UInt8) (value : UInt64) :
    (store slot value).length = slot.length ∧
    (∀ place < slot.length, (store slot value)[slot.length - 1 - place]? =
      some (if place < 8 then byteOf value place else 0)) ∧
    (load (store slot value)).toNat = value.toNat % 2 ^ (8 * min slot.length 8) ∧
    (load bytes).toNat = Nat.ofDigits 256 (bytes.reverse.map UInt8.toNat) % 2 ^ 64 ∧
    (slot.length = bytes.length → store slot (load bytes) =
      if bytes.length ≤ 8 then bytes else zeros (bytes.length - 8) ++ bytes.drop (bytes.length - 8)) := by
  refine ⟨length_store slot value, ?_, toNat_load_encode slot.length value, ?_, ?_⟩
  · intro place inside
    rw [store, getElem?_encode inside]
    split
    · rfl
    · next far => rw [byteOf_beyond value (Nat.le_of_not_lt far)]
  · rw [toNat_load, valueOf_eq_ofDigits]
  · intro same
    rw [store, same]
    split
    · next short => exact encode_load short
    · next wide => exact encode_load_wide (by omega)

/-- Ten bytes, two more than a number fills. -/
theorem store_load_ten_bytes :
    let bytes : List UInt8 := [9, 8, 7, 6, 5, 4, 3, 2, 1, 0]
    bytes.length = (List.replicate 10 (0xFF : UInt8)).length ∧
      (load bytes).toNat = 0x0706050403020100 ∧
      store (List.replicate 10 0xFF) (load bytes) = [0, 0, 7, 6, 5, 4, 3, 2, 1, 0] ∧
      (store (List.replicate 10 0xFF) 0x0102)[9 - 1]? = some 1 ∧
      (store (List.replicate 10 0xFF) 0x0102)[9 - 8]? = some 0 := by
  intro bytes
  obtain ⟨-, written, -, read, again⟩ := store_load (List.replicate 10 0xFF) bytes 0x0102
  exact ⟨rfl, read.trans (by decide +kernel), again rfl, written 1 (by decide), written 8 (by decide)⟩

end Residency.BigEndian

/-!
## Numbers as they are written

The text of an integer is read back as that integer.
-/

namespace Residency

theorem isDigit_eq (c : Char) : isDigit c = c.isDigit := by
  simp only [isDigit, Char.isDigit, UInt32.le_iff_toNat_le, ge_iff_le]
  rfl

theorem isDigit_repr (n : Nat) : ∀ c ∈ n.repr.toList, isDigit c = true := by
  intro c there
  rw [Nat.toList_repr] at there
  rw [isDigit_eq]
  exact Nat.isDigit_of_mem_toDigits (by decide) (by decide) there

theorem exists_digit_repr (n : Nat) : ∃ first rest, n.repr.toList = first :: rest ∧ isDigit first = true := by
  obtain ⟨first, rest, spelled⟩ := List.exists_cons_of_ne_nil (Nat.toDigits_ne_nil (n := n) (b := 10))
  rw [← Nat.toList_repr] at spelled
  exact ⟨first, rest, spelled, isDigit_repr n first (by rw [spelled]; exact .head rest)⟩

theorem toList_negSucc (n : Nat) : (toString (Int.negSucc n)).toList = '-' :: (n + 1).repr.toList := by
  show ("-" ++ (n + 1).repr).toList = _
  rw [String.toList_append]
  rfl

theorem readNat?_repr (n : Nat) : readNat? n.repr.toList = some n := by
  have some_digit : n.repr.toList.isEmpty = false := by
    rw [Nat.toList_repr, List.isEmpty_eq_false_iff]
    exact Nat.toDigits_ne_nil
  have value : digitsValue n.repr.toList = n := by
    rw [Nat.toList_repr]
    exact Nat.ofDigitChars_ten_toDigits
  rw [readNat?, List.all_eq_true.mpr (isDigit_repr n), some_digit, value]
  rfl

theorem readInt?_repr (n : Nat) : readInt? n.repr.toList = some (n : Int) := by
  have read := readNat?_repr n
  obtain ⟨first, rest, spelled, digit⟩ := exists_digit_repr n
  rw [spelled] at read ⊢
  -- a sign is not a digit
  have noMinus : first ≠ '-' := by
    rintro rfl
    cases digit
  have noPlus : first ≠ '+' := by
    rintro rfl
    cases digit
  unfold readInt?
  split
  · next same => exact absurd (List.cons.inj same).1 noMinus
  · next same => exact absurd (List.cons.inj same).1 noPlus
  · rw [read]
    rfl

theorem readInt?_toString (n : Int) : readInt? (toString n).toList = some n := by
  cases n with
  | ofNat n => exact readInt?_repr n
  | negSucc n =>
    rw [toList_negSucc, readInt?, readNat?_repr]
    rfl

theorem readInt64?_toString (n : Int64) : readInt64? (toString n.toInt).toList = some n.toInt := by
  have within : inInt64 n.toInt = true := by
    have low := n.minValue_le_toInt
    have high := n.toInt_le
    simp only [inInt64, Bool.and_eq_true, decide_eq_true_eq]
    exact ⟨low, high⟩
  rw [readInt64?, readInt?_toString, Option.filter_some, if_pos within]

/-!
## Texts that spell bytes

Digits of either case with blanks around them are read as the bytes that they
spell (`Spells.decode`), among them the text that `encode` writes (`spells_encode`).
-/

/-! ### Blanks at the ends -/

namespace Text

theorem trim_between {before text after : List Char} (front : ∀ c ∈ before, isBlank c)
    (back : ∀ c ∈ after, isBlank c) (dense : ∀ c ∈ text, ¬ isBlank c) :
    trim (before ++ text ++ after) = text := by
  have reached : ∀ {text : List Char}, (∀ c ∈ text, ¬ isBlank c) → text.dropWhile isBlank = text := by
    intro text dense
    cases text with
    | nil => rfl
    | cons c rest => exact List.dropWhile_cons_of_neg (dense c (.head rest))
  cases text with
  | nil =>
    have blank : ∀ c ∈ before ++ [] ++ after, isBlank c := by
      intro c there
      rw [List.append_nil, List.mem_append] at there
      exact there.elim (front c) (back c)
    rw [trim, List.dropWhile_eq_nil_iff.mpr blank]
    rfl
  | cons c rest =>
    have start : (c :: rest ++ after).dropWhile isBlank = c :: rest ++ after :=
      List.dropWhile_cons_of_neg (dense c (.head rest))
    have turned : ∀ c ∈ after.reverse, isBlank c := fun c there => back c (List.mem_reverse.mp there)
    rw [trim, List.append_assoc, List.dropWhile_append_of_pos front, start, List.reverse_append,
      List.dropWhile_append_of_pos turned,
      reached fun c there => dense c (List.mem_reverse.mp there), List.reverse_reverse]

end Text

/-! ### Bytes of a text -/

theorem toList_toByteArray (bytes : List UInt8) : bytes.toByteArray.toList = bytes := by
  have loop : ∀ (array : ByteArray) (left i : Nat) (read : List UInt8), array.size - i = left →
      ByteArray.toList.loop array i read = read.reverse ++ array.data.toList.drop i := by
    intro array left
    induction left with
    | zero =>
      intro i read past
      have none : array.data.toList.drop i = [] := List.drop_eq_nil_of_le (by
        rw [Array.length_toList, ByteArray.size_data]
        omega)
      rw [ByteArray.toList.loop, if_neg (by omega), none, List.append_nil]
    | succ left ih =>
      intro i read here
      have inside : i < array.data.toList.length := by
        rw [Array.length_toList, ByteArray.size_data]
        omega
      have byte : array.get! i = array.data.toList[i] := by
        simp only [ByteArray.get!]
        exact getElem!_pos array.data i inside
      rw [ByteArray.toList.loop, if_pos (by omega), ih (i + 1) _ (by omega), byte,
        List.drop_eq_getElem_cons inside, List.reverse_cons, List.append_assoc]
      rfl
  rw [ByteArray.toList, loop _ _ _ _ rfl, List.toList_data_toByteArray]
  rfl

theorem bytes_ofList (text : List Char) :
    (String.ofList text).toUTF8.toList = text.flatMap String.utf8EncodeChar := by
  rw [String.toUTF8_eq_toByteArray, String.toByteArray_ofList, List.utf8Encode, toList_toByteArray]

namespace Hex

/-! ### Digits -/

theorem toNat_toLower (c : Char) :
    c.toLower.toNat = if 65 ≤ c.toNat ∧ c.toNat ≤ 90 then c.toNat + 32 else c.toNat := by
  have capital : c.val ≥ 'A'.val ∧ c.val ≤ 'Z'.val ↔ 65 ≤ c.toNat ∧ c.toNat ≤ 90 := by
    simp only [ge_iff_le, UInt32.le_iff_toNat_le]
    rfl
  unfold Char.toLower
  by_cases within : 65 ≤ c.toNat ∧ c.toNat ≤ 90
  · rw [if_pos within, dif_pos (capital.mpr within)]
    show (c.val + 32).toNat = c.toNat + 32
    have room : c.val.toNat ≤ 90 := within.2
    rw [UInt32.toNat_add, Nat.mod_eq_of_lt (by simp; omega)]
    rfl
  · rw [if_neg within, dif_neg (mt capital.mp within)]

theorem toNat_digitChar {n : Nat} (small : n < 16) :
    (digitChar n).toNat = if n < 10 then 48 + n else 87 + n := by
  revert n
  decide

theorem toLower_digitChar {n : Nat} (small : n < 16) : (digitChar n).toLower = digitChar n := by
  revert n
  decide

/-- The characters that become a digit in lower case. -/
theorem toNat_spelled {c : Char} {n : Nat} (small : n < 16) (spelled : c.toLower = digitChar n) :
    n < 10 ∧ c.toNat = 48 + n ∨ 10 ≤ n ∧ (c.toNat = 87 + n ∨ c.toNat = 55 + n) := by
  have low := congrArg Char.toNat spelled
  rw [toNat_toLower, toNat_digitChar small] at low
  by_cases capital : 65 ≤ c.toNat ∧ c.toNat ≤ 90
  · rw [if_pos capital] at low
    split at low
    · omega
    · omega
  · rw [if_neg capital] at low
    split at low
    · omega
    · omega

/-- Such a character is one byte, which stands for the digit. -/
theorem utf8EncodeChar_spelled {c : Char} {n : Nat} (small : n < 16) (spelled : c.toLower = digitChar n) :
    ∃ byte, String.utf8EncodeChar c = [byte] ∧ digitValue? byte = some n := by
  have place := toNat_spelled small spelled
  have ascii : c.toNat ≤ 127 := by omega
  have single : c.utf8Size = 1 := if_pos (UInt32.le_iff_toNat_le.mpr (show c.val.toNat ≤ 127 from ascii))
  have number : c.val.toUInt8.toNat = c.toNat := by
    rw [UInt32.toNat_toUInt8]
    exact Nat.mod_eq_of_lt (Nat.lt_of_le_of_lt ascii (by decide))
  refine ⟨c.val.toUInt8, String.utf8EncodeChar_eq_singleton single, ?_⟩
  simp only [digitValue?, number]
  obtain ⟨figure, place⟩ | ⟨letter, place | place⟩ := place
  · rw [if_pos (by omega), place]
    exact congrArg some (by omega)
  · rw [if_neg (by omega), if_pos (by omega), place]
    exact congrArg some (by omega)
  · rw [if_neg (by omega), if_neg (by omega), if_pos (by omega), place]
    exact congrArg some (by omega)

theorem not_isBlank_spelled {c : Char} {n : Nat} (small : n < 16) (spelled : c.toLower = digitChar n) :
    ¬ Text.isBlank c := by
  have place := toNat_spelled small spelled
  have visible : 48 ≤ c.toNat ∧ c.toNat ≤ 102 := by omega
  simp only [Text.isBlank, Text.blankRanges, List.any_cons, List.any_nil, Bool.or_eq_true, Bool.and_eq_true,
    decide_eq_true_eq, Bool.false_eq_true, or_false]
  omega

theorem mem_encodeChars {c : Char} {raw : List UInt8} (there : c ∈ encodeChars raw) :
    ∃ n < 16, c = digitChar n := by
  obtain ⟨byte, -, digit⟩ := List.mem_flatMap.mp there
  have bound : byte.toNat < 256 := byte.toNat_lt
  obtain rfl | rfl : c = digitChar (byte.toNat / 16) ∨ c = digitChar (byte.toNat % 16) := by
    simpa [encodeByte] using digit
  · exact ⟨_, by omega, rfl⟩
  · exact ⟨_, by omega, rfl⟩

theorem length_encodeChars (raw : List UInt8) : (encodeChars raw).length = 2 * raw.length := by
  induction raw with
  | nil => rfl
  | cons byte raw ih =>
    have pair : (encodeByte byte).length = 2 := rfl
    rw [encodeChars, List.flatMap_cons, List.length_append, pair, List.length_cons]
    unfold encodeChars at ih
    omega

theorem length_encode (raw : List UInt8) : (encode raw).length = 2 * raw.length := by
  rw [encode, String.length_ofList, length_encodeChars]

theorem decodePairs_spelled : ∀ {raw : List UInt8} {digits : List Char} (position : Nat),
    digits.map Char.toLower = encodeChars raw →
      (digits.flatMap String.utf8EncodeChar).length = 2 * raw.length ∧
      decodePairs position (digits.flatMap String.utf8EncodeChar) = .ok raw
  | [], digits, position, spelled => by
    rw [List.map_eq_nil_iff.mp spelled]
    exact ⟨rfl, rfl⟩
  | value :: raw, digits, position, spelled => by
    have bound : value.toNat < 256 := value.toNat_lt
    obtain ⟨c, rest, rfl, first, spelled⟩ := List.map_eq_cons_iff.mp spelled
    obtain ⟨d, rest, rfl, second, spelled⟩ := List.map_eq_cons_iff.mp spelled
    obtain ⟨high, onceHigh, standsHigh⟩ := utf8EncodeChar_spelled (by omega) first
    obtain ⟨low, onceLow, standsLow⟩ := utf8EncodeChar_spelled (by omega) second
    obtain ⟨length, read⟩ := decodePairs_spelled (position + 2) spelled
    have whole : UInt8.ofNat (16 * (value.toNat / 16) + value.toNat % 16) = value := by
      rw [Nat.div_add_mod, UInt8.ofNat_toNat]
    simp only [List.flatMap_cons, onceHigh, onceLow, List.singleton_append, List.length_cons, length, decodePairs,
      standsHigh, standsLow, read, whole]
    exact ⟨by omega, rfl⟩

/-! ### Texts -/

/-- Two digits of either case for each byte, with blanks around them. -/
def Spells (raw : List UInt8) (text : String) : Prop :=
  ∃ before digits after, text.toList = before ++ digits ++ after ∧ digits.map Char.toLower = encodeChars raw ∧
    (∀ c ∈ before, Text.isBlank c) ∧ ∀ c ∈ after, Text.isBlank c

theorem Spells.decode {raw : List UInt8} {text : String} (spells : Spells raw text) :
    Hex.decode (String.ofList (Text.trim text.toList)).toUTF8.toList = .ok raw := by
  obtain ⟨before, digits, after, whole, spelled, front, back⟩ := spells
  have dense : ∀ c ∈ digits, ¬ Text.isBlank c := by
    intro c there
    obtain ⟨n, small, digit⟩ := mem_encodeChars (spelled ▸ List.mem_map_of_mem there)
    exact not_isBlank_spelled small digit
  obtain ⟨length, read⟩ := decodePairs_spelled 0 spelled
  rw [whole, Text.trim_between front back dense, bytes_ofList, Hex.decode, if_pos (by omega), read]

theorem spells_encode (raw : List UInt8) : Spells raw (encode raw) := by
  refine ⟨[], encodeChars raw, [], ?_, ?_, ?_, ?_⟩
  · rw [encode, String.toList_ofList, List.nil_append, List.append_nil]
  · refine (List.map_congr_left fun c there => ?_).trans (List.map_id _)
    obtain ⟨n, small, rfl⟩ := mem_encodeChars there
    exact toLower_digitChar small
  · intro c none
    cases none
  · intro c none
    cases none

theorem encode_inj {a b : List UInt8} (same : encode a = encode b) : a = b := by
  have read := (spells_encode a).decode
  rw [same, (spells_encode b).decode] at read
  cases read
  rfl

end Hex

end Residency
