import Mathlib.Data.List.Range
import Residency.Proofs.Attribute.Rewriting
import Residency.Proofs.Attribute.RoundTrip
import Residency.System

/-!
# Reading and writing with every check

No bytes stop a reader and no view stops a writer, and checks change nothing of what
they read and write.
-/

/-!
## Reading values with every check

Here the readers of values are written with every check on indices, slices and
lengths. No bytes stop them, and they read what the readers without checks read
(`View.decodeChecked_eq`).
-/

namespace Residency

namespace Checked

def byteAt (bytes : List UInt8) (i : Nat) : Checked UInt8 :=
  match bytes[i]? with
  | some byte => .ok byte
  | none => .error .outOfRange

/-- The bytes from `start` on, up to `stop`. -/
def slice (bytes : List UInt8) (start stop : Nat) : Checked (List UInt8) :=
  if start ≤ stop ∧ stop ≤ bytes.length then .ok ((bytes.drop start).take (stop - start))
  else .error .outOfRange

/-- A block filled from as many bytes. -/
def copy (n : Nat) (bytes : List UInt8) : Checked (FixedBytes n) :=
  match FixedBytes.ofList? n bytes with
  | some block => .ok block
  | none => .error .unequalLengths

theorem slice_eq {bytes : List UInt8} {start stop : Nat} (order : start ≤ stop) (inside : stop ≤ bytes.length) :
    slice bytes start stop = .ok ((bytes.drop start).take (stop - start)) :=
  if_pos ⟨order, inside⟩

theorem slice_to_end {bytes : List UInt8} {start : Nat} (inside : start ≤ bytes.length) :
    slice bytes start bytes.length = .ok (bytes.drop start) := by
  rw [slice_eq inside (Nat.le_refl _), List.take_of_length_le (Nat.le_of_eq List.length_drop)]

theorem byteAt_eq {bytes : List UInt8} {i : Nat} (inside : i < bytes.length) :
    byteAt bytes i = .ok (numberAt bytes i 1).toUInt8 := by
  have single : (bytes.drop i).take 1 = [bytes[i]] := by
    rw [List.drop_eq_getElem_cons inside]
    rfl
  unfold byteAt numberAt
  rw [List.getElem?_eq_getElem inside, single, BigEndian.load_singleton]

theorem copy_slice_eq {n : Nat} {bytes : List UInt8} {start : Nat} (inside : start + n ≤ bytes.length) :
    copy n ((bytes.drop start).take n) = .ok (.ofPadded n (bytes.drop start)) := by
  have enough : n ≤ (bytes.drop start).length := by
    rw [List.length_drop]
    omega
  have length : ((bytes.drop start).take n).length = n := List.length_take_of_le enough
  have same : FixedBytes.ofPadded n (bytes.drop start) = ⟨_, length⟩ := by
    ext1
    exact List.take_append_of_le_length enough
  unfold copy FixedBytes.ofList?
  rw [dif_pos length, same]

end Checked

open Checked

/-! ### Headers and regions -/

def Header.decodeChecked (raw : List UInt8) : Checked Header := do
  let bfid ← copy 16 (← slice raw Layout.bfid (Layout.bfid + 16))
  let fsys ← byteAt raw Layout.fsys
  let version ← byteAt raw Layout.version
  let state ← slice raw Layout.state (Layout.state + 2)
  let flags ← slice raw Layout.flags (Layout.flags + 2)
  .ok ⟨fsys, version, (BigEndian.load state).toUInt16, (BigEndian.load flags).toUInt16, bfid⟩

def MultiRegionHeader.decodeChecked (raw : List UInt8) : Checked MultiRegionHeader := do
  let header ← Header.decodeChecked raw
  let siteTag ← slice raw Layout.siteTag (Layout.siteTag + 4)
  let regionCount ← slice raw Layout.regionCount (Layout.regionCount + 2)
  .ok ⟨header, (BigEndian.load siteTag).toUInt32, (BigEndian.load regionCount).toUInt16⟩

def Region.decodeChecked (raw : List UInt8) : Checked Region := do
  let offset ← slice raw 0 8
  let size ← slice raw 8 16
  let state ← slice raw 16 18
  let eventFlags ← byteAt raw 18
  let flagBits ← byteAt raw 19
  .ok ⟨BigEndian.load offset, BigEndian.load size, (BigEndian.load state).toUInt16, eventFlags, flagBits⟩

def Region.decodeAllChecked : (slots count : Nat) → List UInt8 → Checked (List Region)
  | slots + 1, count + 1, raw => do
    let region ← decodeChecked (raw.take Layout.regionLength)
    let rest ← decodeAllChecked slots count (raw.drop Layout.regionLength)
    .ok (region :: rest)
  | _, _, _ => .ok []

theorem Header.decodeChecked_eq {raw : List UInt8} (long : 22 ≤ raw.length) :
    decodeChecked raw = .ok (decode raw) := by
  unfold decodeChecked Layout.bfid Layout.fsys Layout.version Layout.state Layout.flags
  rw [slice_eq (by decide) (by omega), slice_eq (by decide) (by omega), slice_eq (by decide) (by omega),
    byteAt_eq (by omega), byteAt_eq (by omega)]
  simp only [ok_bind, Nat.add_sub_cancel_left]
  rw [copy_slice_eq (by omega)]
  rfl

theorem MultiRegionHeader.decodeChecked_eq {raw : List UInt8} (long : 28 ≤ raw.length) :
    decodeChecked raw = .ok (decode raw) := by
  unfold decodeChecked Layout.siteTag Layout.regionCount
  rw [Header.decodeChecked_eq (by omega), slice_eq (by decide) (by omega), slice_eq (by decide) (by omega)]
  rfl

theorem Region.decodeChecked_eq {raw : List UInt8} (long : 20 ≤ raw.length) :
    decodeChecked raw = .ok (decode raw) := by
  unfold decodeChecked
  rw [slice_eq (by decide) (by omega), slice_eq (by decide) (by omega), slice_eq (by decide) (by omega),
    byteAt_eq (by omega), byteAt_eq (by omega)]
  rfl

theorem Region.decodeAllChecked_eq :
    ∀ (slots count : Nat) {raw : List UInt8}, slots * Layout.regionLength ≤ raw.length →
      decodeAllChecked slots count raw = .ok (decodeAll slots count raw)
  | 0, _, _, _ => rfl
  | _ + 1, 0, _, _ => rfl
  | slots + 1, count + 1, raw, long => by
    unfold Layout.regionLength at long
    have first : 20 ≤ (raw.take Layout.regionLength).length := by
      rw [List.length_take, Layout.regionLength]
      omega
    have others : slots * Layout.regionLength ≤ (raw.drop Layout.regionLength).length := by
      rw [List.length_drop, Layout.regionLength]
      omega
    rw [decodeAllChecked, decodeChecked_eq first, decodeAllChecked_eq slots count others]
    rfl

/-! ### Whole values -/

def View.decodeChecked (raw : List UInt8) : Checked (Except LayoutError View) :=
  if raw.length ≤ Layout.version then .ok (.error (.tooShort raw.length Layout.format0Length))
  else do
    let version ← byteAt raw Layout.version
    if version = 0 then
      if raw.length ≠ Layout.format0Length then .ok (.error (.badLength 0 raw.length))
      else
        let header ← Header.decodeChecked raw
        .ok (.ok (.format0 header))
    else if version = 1 then
      if raw.length < Layout.format1Minimum then .ok (.error (.badLength 1 raw.length))
      else
        let header ← MultiRegionHeader.decodeChecked raw
        let slots ← slice raw Layout.format1HeaderLength raw.length
        let regions ← Region.decodeAllChecked (slots.length / Layout.regionLength) header.regionCount.toNat slots
        .ok (.ok (.format1 header regions))
    else .ok (.error (.unsupportedFormat version))

/-- No bytes lead a reader of values out of range. -/
theorem View.decodeChecked_eq (raw : List UInt8) : decodeChecked raw = .ok (decode raw) := by
  unfold decodeChecked
  by_cases short : raw.length ≤ Layout.version
  · rw [if_pos short]
    match raw, short with
    | [], _ => rfl
    | [_], _ => rfl
  · have long : 1 < raw.length := Nat.lt_of_not_le short
    have second : raw[1]? = some raw[1] := List.getElem?_eq_getElem long
    have version : byteAt raw Layout.version = .ok raw[1] := by
      unfold byteAt Layout.version
      rw [second]
    rw [if_neg short, version, ok_bind, decode_eq second]
    by_cases zero : raw[1] = 0
    · rw [if_pos zero, if_pos zero]
      by_cases exact : raw.length = 22
      · have kept : ¬ raw.length ≠ Layout.format0Length := not_not.mpr exact
        rw [if_neg kept, if_pos exact, Header.decodeChecked_eq (by omega)]
        rfl
      · have refused : raw.length ≠ Layout.format0Length := exact
        rw [if_pos refused, if_neg exact]
    · rw [if_neg zero, if_neg zero]
      by_cases one : raw[1] = 1
      · rw [if_pos one, if_pos one]
        by_cases few : raw.length < 48
        · have refused : raw.length < Layout.format1Minimum := few
          rw [if_pos refused, if_pos few]
        · have kept : ¬ raw.length < Layout.format1Minimum := few
          have inside : Layout.format1HeaderLength ≤ raw.length := by
            unfold Layout.format1HeaderLength
            omega
          have slots : (raw.drop Layout.format1HeaderLength).length = raw.length - 28 := List.length_drop
          have complete : (raw.length - 28) / Layout.regionLength * Layout.regionLength ≤
              (raw.drop Layout.format1HeaderLength).length := by
            rw [slots]
            exact Nat.div_mul_le_self _ _
          rw [if_neg kept, if_neg few, MultiRegionHeader.decodeChecked_eq (by omega), ok_bind,
            slice_to_end inside, ok_bind, slots, Region.decodeAllChecked_eq _ _ complete]
          rfl
      · rw [if_neg one, if_neg one]

end Residency

/-!
## Values written in place

The writer fills a block of zeros through slices and, for the regions, through the
slots of 20 bytes that fit behind the header. Here it is written with a check of
each slice and of each copied length. It never stops, and what it leaves in the
block is one field after the other, with a slot for every region. Main statement:
`encode_written`.
-/

namespace Residency

open BigEndian Checked

/-! ### One field after the other -/

/-- The big-endian bytes of a number: `place` counts from the last byte. -/
def BigEndian.spell (width n : Nat) : List UInt8 :=
  (List.range width).reverse.map fun place => UInt8.ofNat (n / 256 ^ place)

def Header.plain (header : Header) : List UInt8 :=
  [header.fsys, header.version] ++ spell 2 header.state.toNat ++ spell 2 header.flags.toNat ++ header.bfid.toList

def Region.plain (region : Region) : List UInt8 :=
  spell 8 region.offset.toNat ++ spell 8 region.size.toNat ++ spell 2 region.state.toNat ++
    [region.eventFlags, region.flagBits]

def View.plain : View → List UInt8
  | .format0 header => header.plain
  | .format1 header regions =>
    header.header.plain ++ spell 4 header.siteTag.toNat ++ spell 2 header.regionCount.toNat ++
      regions.flatMap Region.plain

theorem BigEndian.spell_succ (width n : Nat) : spell (width + 1) n = spell width (n / 256) ++ [UInt8.ofNat n] := by
  unfold spell
  rw [List.range_succ_eq_map, List.reverse_cons, List.map_append, List.map_reverse, List.map_map, List.map_reverse]
  congr 1
  · congr 1
    apply List.map_congr_left
    intro place _
    show UInt8.ofNat (n / 256 ^ (place + 1)) = UInt8.ofNat (n / 256 / 256 ^ place)
    rw [Nat.pow_succ', Nat.div_div_eq_div_mul]
  · simp

theorem BigEndian.encode_eq_spell (width : Nat) (value : UInt64) : encode width value = spell width value.toNat := by
  induction width generalizing value with
  | zero => rfl
  | succ width ih =>
    have low : value.toUInt8 = UInt8.ofNat value.toNat := by
      apply UInt8.toNat_inj.mp
      rw [UInt64.toNat_toUInt8, UInt8.toNat_ofNat']
    rw [encode_succ, spell_succ, ih, toNat_shiftRight_byte, low]

theorem Header.wire_eq_plain (header : Header) : header.wire = header.plain := by
  simp [wire, fields, plain, encode_eq_spell]

theorem Region.wire_eq_plain (region : Region) : region.wire = region.plain := by
  simp [wire, fields, plain, encode_eq_spell]

theorem Region.flatMap_wire (regions : List Region) : regions.flatMap wire = regions.flatMap plain :=
  List.flatMap_congr fun region _ => region.wire_eq_plain

theorem View.wire_eq_plain (view : View) : view.wire = view.plain := by
  cases view with
  | format0 header => exact header.wire_eq_plain
  | format1 header regions =>
    rw [wire, plain, MultiRegionHeader.wire_eq, Header.wire_eq_plain, Region.flatMap_wire]
    simp [encode_eq_spell]

/-! ### With every check -/

namespace Checked

def setByte (block : List UInt8) (i : Nat) (byte : UInt8) : Checked (List UInt8) :=
  if i < block.length then .ok (block.set i byte) else .error .outOfRange

/-- Fills the slice from `start` on, up to `stop`, with a number. -/
def storeAt (block : List UInt8) (start stop : Nat) (value : UInt64) : Checked (List UInt8) := do
  let slot ← slice block start stop
  .ok (block.take start ++ store slot value ++ block.drop stop)

/-- Fills the slice from `start` on, up to `stop`, with as many bytes. -/
def copyAt (block : List UInt8) (start stop : Nat) (bytes : List UInt8) : Checked (List UInt8) := do
  let slot ← slice block start stop
  if bytes.length = slot.length then .ok (block.take start ++ bytes ++ block.drop stop) else .error .unequalLengths

theorem setByte_eq {block : List UInt8} {i : Nat} (inside : i < block.length) (byte : UInt8) :
    setByte block i byte = .ok (overlay i [byte] block) := by
  have room : [byte].take (block.length - i) = [byte] := List.take_of_length_le (by simp; omega)
  unfold setByte overlay
  rw [if_pos inside, List.set_eq_take_cons_drop byte inside, room]
  simp

theorem storeAt_eq {block : List UInt8} {start stop : Nat} (order : start ≤ stop) (inside : stop ≤ block.length)
    (value : UInt64) : storeAt block start stop value = .ok (overlay start (encode (stop - start) value) block) := by
  have width : ((block.drop start).take (stop - start)).length = stop - start := by
    rw [List.length_take, List.length_drop]
    omega
  have room : (encode (stop - start) value).take (block.length - start) = encode (stop - start) value := by
    apply List.take_of_length_le
    rw [length_encode]
    omega
  unfold storeAt store overlay
  rw [slice_eq order inside, ok_bind, width, room, length_encode, Nat.add_sub_cancel' order]

theorem copyAt_eq {block bytes : List UInt8} {start stop : Nat} (width : stop = start + bytes.length)
    (inside : stop ≤ block.length) : copyAt block start stop bytes = .ok (overlay start bytes block) := by
  subst width
  have length : ((block.drop start).take bytes.length).length = bytes.length := by
    rw [List.length_take, List.length_drop]
    omega
  have room : bytes.take (block.length - start) = bytes := List.take_of_length_le (by omega)
  unfold copyAt overlay
  rw [slice_eq (Nat.le_add_right _ _) inside, ok_bind, Nat.add_sub_cancel_left, if_pos length.symm, room]

end Checked

def Header.encodeIntoChecked (header : Header) (block : List UInt8) : Checked (List UInt8) := do
  let block ← setByte block Layout.fsys header.fsys
  let block ← setByte block Layout.version header.version
  let block ← storeAt block Layout.state (Layout.state + 2) header.state.toUInt64
  let block ← storeAt block Layout.flags (Layout.flags + 2) header.flags.toUInt64
  copyAt block Layout.bfid (Layout.bfid + 16) header.bfid.toList

def MultiRegionHeader.encodeIntoChecked (header : MultiRegionHeader) (block : List UInt8) : Checked (List UInt8) := do
  let block ← header.header.encodeIntoChecked block
  let block ← storeAt block Layout.siteTag (Layout.siteTag + 4) header.siteTag.toUInt64
  storeAt block Layout.regionCount (Layout.regionCount + 2) header.regionCount.toUInt64

def Region.encodeIntoChecked (region : Region) (slot : List UInt8) : Checked (List UInt8) := do
  let slot ← storeAt slot 0 8 region.offset
  let slot ← storeAt slot 8 16 region.size
  let slot ← storeAt slot 16 18 region.state.toUInt64
  let slot ← setByte slot 18 region.eventFlags
  setByte slot 19 region.flagBits

def Region.encodeAllChecked : (slots : Nat) → List Region → List UInt8 → Checked (List UInt8)
  | slots + 1, region :: rest, block => do
    let slot ← region.encodeIntoChecked (block.take Layout.regionLength)
    let others ← encodeAllChecked slots rest (block.drop Layout.regionLength)
    .ok (slot ++ others)
  | _, _, block => .ok block

def View.encodeChecked (view : View) : Checked (List UInt8) :=
  let block := zeros view.encodedLength
  match view with
  | .format0 header => header.encodeIntoChecked block
  | .format1 header regions => do
    let block ← header.encodeIntoChecked block
    let slots ← slice block Layout.format1HeaderLength block.length
    let filled ← Region.encodeAllChecked (slots.length / Layout.regionLength) regions slots
    .ok (block.take Layout.format1HeaderLength ++ filled)

theorem Header.encodeIntoChecked_eq (header : Header) {block : List UInt8} (room : 22 ≤ block.length) :
    header.encodeIntoChecked block = .ok (header.encodeInto block) := by
  have bfid : Layout.bfid + 16 = Layout.bfid + header.bfid.toList.length := by rw [header.bfid.length_toList]
  unfold Layout.bfid at bfid
  unfold encodeIntoChecked encodeInto Layout.fsys Layout.version Layout.state Layout.flags Layout.bfid
  rw [setByte_eq (by omega), ok_bind, setByte_eq (by rw [length_overlay]; omega), ok_bind,
    storeAt_eq (by decide) (by simp only [length_overlay]; omega), ok_bind,
    storeAt_eq (by decide) (by simp only [length_overlay]; omega), ok_bind,
    copyAt_eq bfid (by simp only [length_overlay]; omega)]

theorem Header.length_encodeInto (header : Header) (block : List UInt8) :
    (header.encodeInto block).length = block.length := by
  simp [encodeInto]

theorem MultiRegionHeader.length_encodeInto (header : MultiRegionHeader) (block : List UInt8) :
    (header.encodeInto block).length = block.length := by
  simp [encodeInto, Header.length_encodeInto]

theorem MultiRegionHeader.encodeIntoChecked_eq (header : MultiRegionHeader) {block : List UInt8}
    (room : 28 ≤ block.length) : header.encodeIntoChecked block = .ok (header.encodeInto block) := by
  have length := header.header.length_encodeInto block
  unfold encodeIntoChecked encodeInto Layout.siteTag Layout.regionCount
  rw [Header.encodeIntoChecked_eq _ (by omega), ok_bind, storeAt_eq (by decide) (by omega), ok_bind,
    storeAt_eq (by decide) (by rw [length_overlay]; omega)]

theorem Region.encodeIntoChecked_eq (region : Region) {slot : List UInt8} (room : 20 ≤ slot.length) :
    region.encodeIntoChecked slot = .ok (region.encodeInto slot) := by
  unfold encodeIntoChecked encodeInto
  rw [storeAt_eq (by decide) (by omega), ok_bind, storeAt_eq (by decide) (by rw [length_overlay]; omega), ok_bind,
    storeAt_eq (by decide) (by simp only [length_overlay]; omega), ok_bind,
    setByte_eq (by simp only [length_overlay]; omega), ok_bind, setByte_eq (by simp only [length_overlay]; omega)]

theorem Region.encodeAllChecked_eq : ∀ (slots : Nat) (regions : List Region) {block : List UInt8},
    slots * Layout.regionLength ≤ block.length →
    encodeAllChecked slots regions block = .ok (encodeAll slots regions block)
  | 0, _, _, _ => by simp [encodeAllChecked, encodeAll]
  | _ + 1, [], _, _ => rfl
  | slots + 1, region :: rest, block, room => by
    unfold Layout.regionLength at room
    have first : 20 ≤ (block.take Layout.regionLength).length := by
      rw [List.length_take, Layout.regionLength]
      omega
    have others : slots * Layout.regionLength ≤ (block.drop Layout.regionLength).length := by
      rw [List.length_drop, Layout.regionLength]
      omega
    rw [encodeAllChecked, region.encodeIntoChecked_eq first, ok_bind, encodeAllChecked_eq slots rest others]
    rfl

theorem View.encodeChecked_eq (view : View) : view.encodeChecked = .ok view.encode := by
  cases view with
  | format0 header =>
    have room : 22 ≤ (zeros (format0 header).encodedLength).length := Nat.le_of_eq (length_zeros _).symm
    exact header.encodeIntoChecked_eq room
  | format1 header regions =>
    have room : 28 ≤ (zeros (format1 header regions).encodedLength).length := by
      rw [length_zeros]
      exact Nat.le_add_right _ _
    have inside : 28 ≤ (header.encodeInto (zeros (format1 header regions).encodedLength)).length := by
      rw [header.length_encodeInto]
      exact room
    unfold encodeChecked encode Layout.format1HeaderLength
    dsimp only
    rw [header.encodeIntoChecked_eq room, ok_bind, slice_to_end inside, ok_bind,
      Region.encodeAllChecked_eq _ _ (Nat.div_mul_le_self _ _), ok_bind]

/-! ### The place of a region -/

theorem Region.length_plain (region : Region) : region.plain.length = 20 := by
  rw [← wire_eq_plain, length_wire]

theorem Region.slot_plain : ∀ (regions : List Region) (k : Nat) {region : Region}, regions[k]? = some region →
    ((regions.flatMap plain).drop (20 * k)).take 20 = region.plain
  | [], _, _, found => by simp at found
  | first :: rest, 0, _, found => by
    obtain rfl : first = _ := Option.some.inj found
    rw [List.flatMap_cons, Nat.mul_zero, List.drop_zero, List.take_left' first.length_plain]
  | first :: rest, k + 1, _, found => by
    rw [List.flatMap_cons, Nat.mul_succ, Nat.add_comm, ← List.drop_drop, List.drop_left' first.length_plain]
    exact slot_plain rest k found

/-- The writer passes every check and writes one field after the other. With format 1, each region
has a slot of its own. -/
theorem View.encode_written (view : View) :
    view.encodeChecked = .ok view.encode ∧ view.encode = view.plain ∧ view.encode.length = view.encodedLength ∧
      ∀ header regions, view = .format1 header regions → ∀ k region, regions[k]? = some region →
        (view.encode.drop (28 + 20 * k)).take 20 = region.plain := by
  have plain : view.encode = view.plain := view.encode_eq_wire.trans view.wire_eq_plain
  refine ⟨view.encodeChecked_eq, plain, view.length_encode, ?_⟩
  rintro header regions rfl k region found
  rw [encode_eq_wire, wire, ← List.drop_drop, List.drop_left' header.length_wire, Region.flatMap_wire]
  exact Region.slot_plain regions k found

/-- Neither the version byte nor the stored count decides what is written. -/
theorem View.encode_written_second_region :
    let second : Region := ⟨4096, 258, 2, 7, 255⟩
    let view := format1 ⟨⟨1, 7, 6, 0, .ofPadded 16 [171]⟩, 9, 0⟩ [⟨0, 4096, 4, 0, 0⟩, second]
    view.encode.length = 68 ∧ (view.encode.drop 48).take 20 = second.plain ∧
      second.plain = [0, 0, 0, 0, 0, 0, 16, 0, 0, 0, 0, 0, 0, 0, 1, 2, 0, 2, 7, 255] := by
  intro second view
  obtain ⟨-, -, length, slots⟩ := encode_written view
  exact ⟨length, slots _ _ rfl 1 second rfl, by decide⟩

end Residency
