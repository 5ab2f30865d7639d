import Mathlib.Algebra.Ring.Nat
import Mathlib.Data.List.SplitLengths
import Residency.Attribute
import Residency.Proofs.Attribute.RoundTrip

/-!
# Replacing and rewriting a value

What a replacement keeps of a value, and which bytes a value that was read is
written as.
-/

/-!
## The replacement as a value

Replacing twice is replacing once, and the last size wins. The replacement of a
view that was read is a value of one region at most, which is read back as it
was written; its state is offline and its filesystem type is that of the view.
-/

namespace Residency

/-! ### What was read -/

theorem Header.fsys_decode (fsys : UInt8) (rest : List UInt8) : (decode (fsys :: rest)).fsys = fsys :=
  BigEndian.load_singleton fsys

theorem Header.version_decode (fsys version : UInt8) (rest : List UInt8) :
    (decode (fsys :: version :: rest)).version = version :=
  BigEndian.load_singleton version

theorem Header.version_of_second {raw : List UInt8} {version : UInt8} (second : raw[1]? = some version) :
    (decode raw).version = version := by
  match raw, second with
  | fsys :: _ :: rest, rfl => exact version_decode fsys _ rest

namespace View

theorem decode_eq_ok {raw : List UInt8} {view : View} (read : decode raw = .ok view) :
    (raw[1]? = some 0 ∧ raw.length = 22 ∧ view = .format0 (.decode raw)) ∨
      (raw[1]? = some 1 ∧ 48 ≤ raw.length ∧ view = .format1 (.decode raw)
        (Region.decodeAll ((raw.length - 28) / 20) (MultiRegionHeader.decode raw).regionCount.toNat
          (raw.drop 28))) := by
  cases second : raw[1]? with
  | none =>
    rw [List.getElem?_eq_none_iff] at second
    match raw, second with
    | [], _ => simp [decode] at read
    | [_], _ => simp [decode] at read
  | some version =>
    rw [decode_eq second] at read
    by_cases h₀ : version = 0
    · subst h₀
      by_cases length : raw.length = 22
      · exact .inl ⟨rfl, length, by simpa [length] using read.symm⟩
      · simp [length] at read
    · by_cases h₁ : version = 1
      · subst h₁
        by_cases short : raw.length < 48
        · simp [short] at read
        · exact .inr ⟨rfl, by omega, by simpa [short] using read.symm⟩
      · simp [h₀, h₁] at read

theorem header_decode {raw : List UInt8} {view : View} (read : decode raw = .ok view) :
    view.header = Header.decode raw := by
  obtain ⟨_, _, rfl⟩ | ⟨_, _, rfl⟩ := decode_eq_ok read <;> rfl

theorem decode_eq_format0 {raw : List UInt8} {header : Header} (read : decode raw = .ok (.format0 header)) :
    raw[1]? = some 0 ∧ raw.length = 22 ∧ header = .decode raw := by
  obtain ⟨second, length, same⟩ | ⟨_, _, same⟩ := decode_eq_ok read
  · cases same
    exact ⟨second, length, rfl⟩
  · cases same

theorem decode_eq_format1 {raw : List UInt8} {header : MultiRegionHeader} {regions : List Region}
    (read : decode raw = .ok (.format1 header regions)) :
    raw[1]? = some 1 ∧ 48 ≤ raw.length ∧ header = .decode raw ∧
      regions = Region.decodeAll ((raw.length - 28) / 20) header.regionCount.toNat (raw.drop 28) := by
  obtain ⟨_, _, same⟩ | ⟨second, long, same⟩ := decode_eq_ok read
  · cases same
  · cases same
    exact ⟨second, long, rfl, rfl⟩

theorem version_decode_format1 {raw : List UInt8} {header : MultiRegionHeader} {regions : List Region}
    (read : decode raw = .ok (.format1 header regions)) : header.header.version = 1 := by
  obtain ⟨second, _, rfl, _⟩ := decode_eq_format1 read
  exact Header.version_of_second second

/-! ### Lengths -/

theorem length_wire (view : View) : view.wire.length = view.encodedLength := by
  cases view with
  | format0 header => exact header.length_wire
  | format1 header regions =>
    rw [wire, List.length_append, header.length_wire, length_flatMap_wire, encodedLength,
      Layout.format1HeaderLength, Layout.regionLength, Nat.mul_comm]

theorem length_encode (view : View) : view.encode.length = view.encodedLength := by
  rw [encode_eq_wire, length_wire]

theorem encode_head? (view : View) : view.encode.head? = some view.header.fsys := by
  rw [encode_eq_wire]
  cases view with
  | format0 header => rfl
  | format1 header regions => rfl

/-! ### The replacement -/

theorem offlineReplacement_format1 {header : MultiRegionHeader} (regions : List Region) (fileSize : Int64)
    (tagged : header.siteTag ≠ 0) :
    (format1 header regions).offlineReplacement fileSize =
      .format1 { header with header := header.header.offline, regionCount := 1 } [.wholeFile fileSize] := by
  simp [offlineReplacement, tagged]

theorem offlineReplacement_untagged {header : MultiRegionHeader} (regions : List Region) (fileSize : Int64)
    (untagged : header.siteTag = 0) :
    (format1 header regions).offlineReplacement fileSize =
      .format0 { header.header.offline with version := 0 } := by
  simp [offlineReplacement, untagged]

theorem header_offlineReplacement (view : View) (fileSize : Int64) :
    (view.offlineReplacement fileSize).header.fsys = view.header.fsys ∧
      (view.offlineReplacement fileSize).header.state = 3 := by
  cases view with
  | format0 header => exact ⟨rfl, rfl⟩
  | format1 header regions =>
    by_cases tag : header.siteTag = 0
    · rw [offlineReplacement_untagged regions fileSize tag]; exact ⟨rfl, rfl⟩
    · rw [offlineReplacement_format1 regions fileSize tag]; exact ⟨rfl, rfl⟩

theorem offlineReplacement_twice (view : View) (first last : Int64) :
    (view.offlineReplacement first).offlineReplacement last = view.offlineReplacement last := by
  cases view with
  | format0 header => rfl
  | format1 header regions =>
    by_cases tag : header.siteTag = 0
    · rw [offlineReplacement_untagged regions _ tag, offlineReplacement_untagged regions _ tag]; rfl
    · rw [offlineReplacement_format1 regions _ tag, offlineReplacement_format1 regions _ tag,
        offlineReplacement_format1 _ _ (by exact tag)]
      rfl

theorem encodedLength_offlineReplacement (view : View) (fileSize : Int64) :
    (view.offlineReplacement fileSize).encodedLength = 22 ∨
      (view.offlineReplacement fileSize).encodedLength = 48 := by
  cases view with
  | format0 header => exact .inl rfl
  | format1 header regions =>
    by_cases tag : header.siteTag = 0
    · rw [offlineReplacement_untagged regions fileSize tag]; exact .inl rfl
    · rw [offlineReplacement_format1 regions fileSize tag]; exact .inr rfl

/-- Format 0 is written with its own version byte. Format 1 inherits the byte, which
need not name the format in a view built by hand. -/
theorem decode_encode_offlineReplacement_iff (view : View) (fileSize : Int64) :
    decode (view.offlineReplacement fileSize).encode = .ok (view.offlineReplacement fileSize) ↔
      match view with
      | .format0 _ => True
      | .format1 header _ => header.siteTag = 0 ∨ header.header.version = 1 := by
  cases view with
  | format0 header => simp [offlineReplacement, decode_encode_format0]
  | format1 header regions =>
    by_cases tag : header.siteTag = 0
    · simp [offlineReplacement_untagged regions fileSize tag, decode_encode_format0, tag]
    · rw [offlineReplacement_format1 regions fileSize tag, decode_encode_format1]
      by_cases one : header.header.version = 1
      · simp [Header.offline, one]
      · by_cases zero : header.header.version = 0
        · simp [Header.offline, zero, tag]
        · simp [Header.offline, zero, one, tag]

theorem decode_encode_offlineReplacement {raw : List UInt8} {view : View} (read : decode raw = .ok view)
    (fileSize : Int64) :
    decode (view.offlineReplacement fileSize).encode = .ok (view.offlineReplacement fileSize) := by
  rw [decode_encode_offlineReplacement_iff]
  cases view with
  | format0 header => trivial
  | format1 header regions => exact .inr (version_decode_format1 read)

end View

/-!
## Writing what was read

The fields of a header or region that was read are the pieces of the bytes, cut
at the fields' widths. A view that was read is therefore written as the front of
the bytes it came from, and what stood behind it is lost (`encode_decode`). Its
region count is kept even where it is zero; such a view has no region and is not
read back (`decode_encode_decode`).
-/

open BigEndian

theorem flatten_splitLengths_eq_take {α : Type} : ∀ (widths : List Nat) (l : List α),
    (widths.splitLengths l).flatten = l.take widths.sum
  | [], l => rfl
  | width :: widths, l => by
    rw [List.splitLengths_cons, List.flatten_cons, flatten_splitLengths_eq_take widths, List.sum_cons,
      List.take_add]

/-! ### Numbers -/

section
variable {raw : List UInt8} {offset : Nat}

theorem toNat_numberAt (raw : List UInt8) (offset : Nat) {width : Nat} (narrow : width ≤ 8) :
    (numberAt raw offset width).toNat = valueOf ((raw.drop offset).take width) := by
  have short : ((raw.drop offset).take width).length ≤ 8 := by
    rw [List.length_take]; omega
  exact toNat_load_short short

theorem toNat_numberAt_lt (raw : List UInt8) (offset : Nat) {width : Nat} (narrow : width ≤ 8) :
    (numberAt raw offset width).toNat < 256 ^ width := by
  have bound := valueOf_lt ((raw.drop offset).take width)
  have taken : ((raw.drop offset).take width).length ≤ width := by
    rw [List.length_take]; omega
  rw [toNat_numberAt raw offset narrow]
  exact Nat.lt_of_lt_of_le bound (Nat.pow_le_pow_right (by decide) taken)

theorem toNat_uint8At (raw : List UInt8) (offset : Nat) :
    (numberAt raw offset 1).toUInt8.toNat = valueOf ((raw.drop offset).take 1) := by
  have bound := toNat_numberAt_lt raw offset (by decide : 1 ≤ 8)
  calc (numberAt raw offset 1).toUInt8.toNat
      = (numberAt raw offset 1).toNat % 2 ^ 8 := UInt64.toNat_toUInt8 _
    _ = (numberAt raw offset 1).toNat := Nat.mod_eq_of_lt bound
    _ = valueOf ((raw.drop offset).take 1) := toNat_numberAt raw offset (by decide)

theorem toNat_uint16At (raw : List UInt8) (offset : Nat) :
    (numberAt raw offset 2).toUInt16.toNat = valueOf ((raw.drop offset).take 2) := by
  have bound := toNat_numberAt_lt raw offset (by decide : 2 ≤ 8)
  calc (numberAt raw offset 2).toUInt16.toNat
      = (numberAt raw offset 2).toNat % 2 ^ 16 := UInt64.toNat_toUInt16 _
    _ = (numberAt raw offset 2).toNat := Nat.mod_eq_of_lt bound
    _ = valueOf ((raw.drop offset).take 2) := toNat_numberAt raw offset (by decide)

theorem toNat_uint32At (raw : List UInt8) (offset : Nat) :
    (numberAt raw offset 4).toUInt32.toNat = valueOf ((raw.drop offset).take 4) := by
  have bound := toNat_numberAt_lt raw offset (by decide : 4 ≤ 8)
  calc (numberAt raw offset 4).toUInt32.toNat
      = (numberAt raw offset 4).toNat % 2 ^ 32 := UInt64.toNat_toUInt32 _
    _ = (numberAt raw offset 4).toNat := Nat.mod_eq_of_lt bound
    _ = valueOf ((raw.drop offset).take 4) := toNat_numberAt raw offset (by decide)

theorem encode_numberAt {width : Nat} (narrow : width ≤ 8) (inside : offset + width ≤ raw.length) :
    encode width (numberAt raw offset width) = (raw.drop offset).take width := by
  have full : ((raw.drop offset).take width).length = width := by
    rw [List.length_take, List.length_drop]; omega
  have written := encode_load (Nat.le_trans (Nat.le_of_eq full) narrow)
  rwa [full] at written

theorem encode_uint8At (inside : offset + 1 ≤ raw.length) :
    [(numberAt raw offset 1).toUInt8] = (raw.drop offset).take 1 := by
  obtain ⟨byte, rest, there⟩ : ∃ byte rest, raw.drop offset = byte :: rest := by
    cases front : raw.drop offset with
    | nil => rw [List.drop_eq_nil_iff] at front; omega
    | cons byte rest => exact ⟨byte, rest, rfl⟩
  rw [numberAt, there]
  exact congrArg (· :: []) (load_singleton byte)

theorem encode_uint16At (inside : offset + 2 ≤ raw.length) :
    encode 2 (numberAt raw offset 2).toUInt16.toUInt64 = (raw.drop offset).take 2 := by
  have same : (numberAt raw offset 2).toUInt16.toUInt64 = numberAt raw offset 2 := by
    apply UInt64.toNat_inj.mp
    rw [UInt16.toNat_toUInt64, toNat_uint16At, toNat_numberAt raw offset (by decide)]
  rw [same, encode_numberAt (by decide) inside]

theorem encode_uint32At (inside : offset + 4 ≤ raw.length) :
    encode 4 (numberAt raw offset 4).toUInt32.toUInt64 = (raw.drop offset).take 4 := by
  have same : (numberAt raw offset 4).toUInt32.toUInt64 = numberAt raw offset 4 := by
    apply UInt64.toNat_inj.mp
    rw [UInt32.toNat_toUInt64, toNat_uint32At, toNat_numberAt raw offset (by decide)]
  rw [same, encode_numberAt (by decide) inside]

end

/-! ### Headers and regions -/

theorem Header.fields_decode {raw : List UInt8} (room : 22 ≤ raw.length) :
    (decode raw).fields = [1, 1, 2, 2, 16].splitLengths raw := by
  have bfid : ((raw.drop 6).take 16).length = 16 := by
    rw [List.length_take, List.length_drop]; omega
  -- there is enough to read, so none of the padding is taken
  have padded : ((raw.drop 6) ++ zeros 16).take 16 = (raw.drop 6).take 16 :=
    List.take_append_of_le_length (by rw [List.length_drop]; omega)
  simp only [fields, decode, Layout.fsys, Layout.version, Layout.state, Layout.flags, Layout.bfid,
    FixedBytes.ofPadded, List.splitLengths_cons, List.splitLengths_nil, List.drop_drop]
  rw [encode_uint8At (by omega), encode_uint8At (by omega), encode_uint16At (by omega),
    encode_uint16At (by omega), padded]
  rfl

theorem MultiRegionHeader.fields_decode {raw : List UInt8} (room : 28 ≤ raw.length) :
    (decode raw).fields = [1, 1, 2, 2, 16, 4, 2].splitLengths raw := by
  have common : (Header.decode raw).fields = _ := Header.fields_decode (by omega)
  rw [fields]
  simp only [decode, common, Layout.siteTag, Layout.regionCount, List.splitLengths_cons,
    List.splitLengths_nil, List.drop_drop]
  rw [encode_uint32At (by omega), encode_uint16At (by omega)]
  rfl

theorem Region.fields_decode {slot : List UInt8} (room : 20 ≤ slot.length) :
    (decode slot).fields = [8, 8, 2, 1, 1].splitLengths slot := by
  simp only [fields, decode, List.splitLengths_cons, List.splitLengths_nil, List.drop_drop]
  rw [encode_numberAt (by decide) (by omega), encode_numberAt (by decide) (by omega),
    encode_uint16At (by omega), encode_uint8At (by omega), encode_uint8At (by omega)]
  rfl

theorem Header.wire_decode {raw : List UInt8} (room : 22 ≤ raw.length) : (decode raw).wire = raw.take 22 := by
  rw [wire, fields_decode room, flatten_splitLengths_eq_take]
  rfl

theorem MultiRegionHeader.wire_decode {raw : List UInt8} (room : 28 ≤ raw.length) :
    (decode raw).wire = raw.take 28 := by
  rw [wire, fields_decode room, flatten_splitLengths_eq_take]
  rfl

theorem Region.wire_decode {slot : List UInt8} (full : slot.length = 20) : (decode slot).wire = slot := by
  rw [wire, fields_decode (by omega), flatten_splitLengths_eq_take]
  exact List.take_of_length_le (by rw [full]; decide)

theorem Header.toNat_state_decode (fsys version high low : UInt8) (rest : List UInt8) :
    (decode (fsys :: version :: high :: low :: rest)).state.toNat = 256 * high.toNat + low.toNat := by
  have value : valueOf [high, low] = 256 * high.toNat + low.toNat := by
    simp [valueOf, Nat.mul_comm]
  rw [← value]
  exact toNat_uint16At (fsys :: version :: high :: low :: rest) 2

theorem MultiRegionHeader.toNat_regionCount_decode (raw : List UInt8) :
    (decode raw).regionCount.toNat = valueOf ((raw.drop 26).take 2) :=
  toNat_uint16At raw 26

theorem Region.length_decodeAll : ∀ (slots count : Nat) (raw : List UInt8),
    (decodeAll slots count raw).length = min slots count
  | 0, _, _ => by simp [decodeAll]
  | _ + 1, 0, _ => by simp [decodeAll]
  | slots + 1, count + 1, raw => by
    rw [decodeAll, List.length_cons, length_decodeAll slots count, Nat.succ_min_succ]

theorem Region.wire_decodeAll : ∀ (slots count : Nat) (raw : List UInt8), 20 * slots ≤ raw.length →
    (decodeAll slots count raw).flatMap wire = raw.take (20 * min slots count)
  | 0, _, _, _ => by simp [decodeAll]
  | _ + 1, 0, _, _ => by simp [decodeAll]
  | slots + 1, count + 1, raw, room => by
    have full : (raw.take 20).length = 20 := by rw [List.length_take]; omega
    have left : 20 * slots ≤ (raw.drop 20).length := by rw [List.length_drop]; omega
    have cut : 20 * min (slots + 1) (count + 1) = 20 + 20 * min slots count := by omega
    rw [decodeAll, Layout.regionLength, List.flatMap_cons, wire_decode full, wire_decodeAll slots count _ left,
      cut, List.take_add]

/-! ### Whole values -/

namespace View

variable {raw : List UInt8} {header : MultiRegionHeader} {regions : List Region} {view : View}

theorem length_regions_decode (read : decode raw = .ok (.format1 header regions)) :
    regions.length = min ((raw.length - 28) / 20) header.regionCount.toNat := by
  obtain ⟨_, _, _, rfl⟩ := decode_eq_format1 read
  exact Region.length_decodeAll _ _ _

theorem encodedLength_decode_format1 (read : decode raw = .ok (.format1 header regions)) :
    (format1 header regions).encodedLength =
      28 + 20 * min (valueOf ((raw.drop 26).take 2)) ((raw.length - 28) / 20) := by
  have length := length_regions_decode read
  obtain ⟨_, _, rfl, _⟩ := decode_eq_format1 read
  rw [MultiRegionHeader.toNat_regionCount_decode, Nat.min_comm] at length
  rw [encodedLength, length, Layout.format1HeaderLength, Layout.regionLength, Nat.mul_comm]

theorem encodedLength_le (read : decode raw = .ok view) : view.encodedLength ≤ raw.length := by
  cases view with
  | format0 header =>
    obtain ⟨_, length, _⟩ := decode_eq_format0 read
    exact Nat.le_of_eq length.symm
  | format1 header regions =>
    obtain ⟨_, long, _⟩ := decode_eq_format1 read
    rw [encodedLength_decode_format1 read]
    omega

theorem wire_decode (read : decode raw = .ok view) : view.wire = raw.take view.encodedLength := by
  cases view with
  | format0 header =>
    obtain ⟨_, length, rfl⟩ := decode_eq_format0 read
    exact Header.wire_decode (Nat.le_of_eq length.symm)
  | format1 header regions =>
    have length := length_regions_decode read
    obtain ⟨_, long, rfl, eq⟩ := decode_eq_format1 read
    have slots : 20 * ((raw.length - 28) / 20) ≤ (raw.drop 28).length := by
      rw [List.length_drop]; omega
    have written := Region.wire_decodeAll _ (MultiRegionHeader.decode raw).regionCount.toNat _ slots
    rw [← eq, ← length] at written
    rw [wire, MultiRegionHeader.wire_decode (by omega), written, ← List.take_add, encodedLength,
      Layout.format1HeaderLength, Layout.regionLength, Nat.mul_comm 20]

/-- A view that was read is written as the front of what was read: all of a
format 0 value, and of a format 1 value the header and the regions that the count
and the complete descriptors allow. Equal views come from equal fronts. -/
theorem encode_decode (read : decode raw = .ok view) :
    view.encodedLength ≤ raw.length ∧ view.encode = raw.take view.encodedLength ∧
    (match view with
      | .format0 _ => view.encode = raw
      | .format1 _ _ =>
        view.encodedLength = 28 + 20 * min (valueOf ((raw.drop 26).take 2)) ((raw.length - 28) / 20)) ∧
    ∀ other, decode other = .ok view → other.take view.encodedLength = raw.take view.encodedLength := by
  have written : view.encode = raw.take view.encodedLength := by
    rw [encode_eq_wire, wire_decode read]
  refine ⟨encodedLength_le read, written, ?_, ?_⟩
  · cases view with
    | format0 header =>
      obtain ⟨_, length, _⟩ := decode_eq_format0 read
      rw [written]
      exact List.take_of_length_le (Nat.le_of_eq length)
    | format1 header regions => exact encodedLength_decode_format1 read
  · intro other again
    rw [← wire_decode read, wire_decode again]

/-- One region is counted; another descriptor and part of a third stand behind it. -/
def overlong : List UInt8 :=
  [1, 1, 0, 6] ++ zeros 22 ++ [0, 1] ++ List.replicate 20 7 ++ List.replicate 25 0xFF

theorem encode_decode_overlong : ∃ view, decode overlong = .ok view ∧
    view.encode = overlong.take 48 ∧
    decode (overlong.take 60) = .ok view ∧ (overlong.take 60).take 48 = overlong.take 48 := by
  have front := encode_decode (show decode overlong = .ok _ from rfl)
  exact ⟨_, rfl, front.2.1, rfl, front.2.2.2 (overlong.take 60) rfl⟩

/-- What was read is read back the same, and a format 1 value has a region, unless
the stored count is zero: then no region is read, and what is written is refused. -/
theorem decode_encode_decode (read : decode raw = .ok view) :
    match view with
    | .format0 _ => decode view.encode = .ok view
    | .format1 header regions =>
      if header.regionCount = 0 then regions = [] ∧ decode view.encode = .error (.badLength 1 28)
      else 1 ≤ regions.length ∧ decode view.encode = .ok view := by
  cases view with
  | format0 header =>
    obtain ⟨second, _, rfl⟩ := decode_eq_format0 read
    have version := Header.version_of_second second
    simp [decode_encode_format0, version]
  | format1 header regions =>
    have version := version_decode_format1 read
    have length := length_regions_decode read
    have slot : 1 ≤ (raw.length - 28) / 20 := by
      obtain ⟨_, long, _⟩ := decode_eq_format1 read
      omega
    simp only
    -- the length makes room for a region; the stored count decides whether one is read
    by_cases none : header.regionCount = 0
    · have empty : regions = [] := by
        rw [← List.length_eq_zero_iff, length, none]
        exact Nat.min_zero _
      simp [none, empty, decode_encode_format1, version]
    · have counted : header.regionCount.toNat ≠ 0 := by
        intro zero
        exact none (UInt16.toNat_inj.mp zero)
      have some : 1 ≤ regions.length := by omega
      have nonempty : regions ≠ [] := List.length_pos_iff.mp some
      have all : regions.take (min regions.length header.regionCount.toNat) = regions :=
        List.take_of_length_le (by omega)
      simp [none, some, nonempty, all, decode_encode_format1, version]

theorem decode_encode_decode_overlong : ∃ view, decode overlong = .ok view ∧ decode view.encode = .ok view := by
  have again := decode_encode_decode (show decode overlong = .ok _ from rfl)
  exact ⟨_, rfl, again.2⟩

/-- Long enough for a region, but the stored count is zero. -/
def regionless : List UInt8 := [1, 1, 0, 3] ++ zeros 44

theorem decode_encode_regionless : ∃ header, decode regionless = .ok (.format1 header []) ∧
    decode (View.format1 header []).encode = .error (.badLength 1 28) :=
  ⟨_, rfl, rfl⟩

end View

end Residency
