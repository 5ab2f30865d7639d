import Residency.Attribute
import Residency.Proofs.Bytes

/-!
# Wire forms and reading them back

Each part of a value has a wire form; a value written in it is read back.
-/

/-!
## The wire form of a value

The wire form of a value is its fields, one after the other. The writer fills a
block of zeros field by field at fixed offsets, and region by region in slots of
20 bytes. Main statement: what it leaves in the block is the wire form, whatever
the number of regions.
-/

namespace Residency

/-! ### Contiguous fields -/

/-- Writes fields to a block, each where the one before it ends. -/
def overlayAll : Nat → List (List UInt8) → List UInt8 → List UInt8
  | _, [], block => block
  | offset, field :: fields, block =>
    overlayAll (offset + field.length) fields (overlay offset field block)

theorem overlayAll_append : ∀ (fields : List (List UInt8)) (front rest : List UInt8),
    fields.flatten.length ≤ rest.length →
    overlayAll front.length fields (front ++ rest) =
      front ++ fields.flatten ++ rest.drop fields.flatten.length
  | [], front, rest, _ => by simp [overlayAll]
  | field :: fields, front, rest, room => by
    rw [List.flatten_cons, List.length_append] at room
    have fits : field.length ≤ rest.length := by omega
    rw [overlayAll, overlay_append front field fits, ← List.append_assoc, ← List.length_append,
      overlayAll_append fields _ _ (by rw [List.length_drop]; omega)]
    simp [List.append_assoc, List.drop_drop]

theorem overlayAll_zero {fields : List (List UInt8)} {block : List UInt8}
    (room : fields.flatten.length ≤ block.length) :
    overlayAll 0 fields block = fields.flatten ++ block.drop fields.flatten.length :=
  overlayAll_append fields [] block room

/-! ### Headers and regions -/

def Header.fields (header : Header) : List (List UInt8) :=
  [[header.fsys], [header.version], BigEndian.encode 2 header.state.toUInt64,
    BigEndian.encode 2 header.flags.toUInt64, header.bfid.toList]

def MultiRegionHeader.fields (header : MultiRegionHeader) : List (List UInt8) :=
  header.header.fields ++
    [BigEndian.encode 4 header.siteTag.toUInt64, BigEndian.encode 2 header.regionCount.toUInt64]

def Region.fields (region : Region) : List (List UInt8) :=
  [BigEndian.encode 8 region.offset, BigEndian.encode 8 region.size,
    BigEndian.encode 2 region.state.toUInt64, [region.eventFlags], [region.flagBits]]

def Header.wire (header : Header) : List UInt8 := header.fields.flatten

def MultiRegionHeader.wire (header : MultiRegionHeader) : List UInt8 := header.fields.flatten

def Region.wire (region : Region) : List UInt8 := region.fields.flatten

def View.wire : View → List UInt8
  | .format0 header => header.wire
  | .format1 header regions => header.wire ++ regions.flatMap Region.wire

@[simp] theorem Header.length_wire (header : Header) : header.wire.length = 22 := by
  simp [wire, fields, header.bfid.length_toList]

@[simp] theorem MultiRegionHeader.length_wire (header : MultiRegionHeader) : header.wire.length = 28 := by
  simp [wire, fields, Header.fields, header.header.bfid.length_toList]

@[simp] theorem Region.length_wire (region : Region) : region.wire.length = 20 := by
  simp [wire, fields]

theorem length_flatMap_wire (regions : List Region) :
    (regions.flatMap Region.wire).length = 20 * regions.length := by
  induction regions with
  | nil => rfl
  | cons region regions ih => simp [ih]; omega

theorem Header.encodeInto_eq (header : Header) {block : List UInt8} (room : 22 ≤ block.length) :
    header.encodeInto block = header.wire ++ block.drop 22 := by
  have filled : header.encodeInto block = overlayAll 0 header.fields block := by
    simp [encodeInto, overlayAll, fields, Layout.fsys, Layout.version, Layout.state, Layout.flags,
      Layout.bfid]
  have fits : header.fields.flatten.length ≤ block.length := by
    rw [← wire, length_wire]; exact room
  rw [filled, overlayAll_zero fits, ← wire, length_wire]

theorem MultiRegionHeader.encodeInto_eq (header : MultiRegionHeader) {block : List UInt8}
    (room : 28 ≤ block.length) : header.encodeInto block = header.wire ++ block.drop 28 := by
  have filled : header.encodeInto block = overlayAll 0 header.fields block := by
    simp [encodeInto, Header.encodeInto, overlayAll, fields, Header.fields, Layout.fsys, Layout.version,
      Layout.state, Layout.flags, Layout.bfid, Layout.siteTag, Layout.regionCount,
      header.header.bfid.length_toList]
  have fits : header.fields.flatten.length ≤ block.length := by
    rw [← wire, length_wire]; exact room
  rw [filled, overlayAll_zero fits, ← wire, length_wire]

theorem Region.encodeInto_eq (region : Region) {slot : List UInt8} (full : slot.length = 20) :
    region.encodeInto slot = region.wire := by
  have filled : region.encodeInto slot = overlayAll 0 region.fields slot := by
    simp [encodeInto, overlayAll, fields]
  have fits : region.fields.flatten.length ≤ slot.length := by
    refine Nat.le_of_eq ?_
    rw [← wire, length_wire, full]
  rw [filled, overlayAll_zero fits, ← wire, length_wire, ← full, List.drop_length, List.append_nil]

/-! ### Whole values -/

theorem Region.encodeAll_eq : ∀ (slots : Nat) (regions : List Region) (block : List UInt8),
    regions.length ≤ slots → 20 * slots ≤ block.length →
    encodeAll slots regions block = regions.flatMap wire ++ block.drop (20 * regions.length)
  | 0, [], block, _, _ => by simp [encodeAll]
  | slots + 1, [], block, _, _ => by simp [encodeAll]
  | slots + 1, region :: regions, block, enough, room => by
    have full : (block.take Layout.regionLength).length = 20 := by
      simp only [List.length_take, Layout.regionLength]; omega
    rw [encodeAll, region.encodeInto_eq full, encodeAll_eq slots regions _ (by simpa using enough)
      (by simp only [List.length_drop, Layout.regionLength]; omega)]
    simp only [List.flatMap_cons, List.append_assoc, List.drop_drop, Layout.regionLength,
      List.length_cons]
    rw [show 20 + 20 * regions.length = 20 * (regions.length + 1) by omega]

theorem View.encode_eq_wire (view : View) : view.encode = view.wire := by
  cases view with
  | format0 header =>
    have room : 22 ≤ (zeros 22).length := by simp
    simpa [encode, wire, encodedLength, Layout.format0Length, zeros] using header.encodeInto_eq room
  | format1 header regions =>
    have room : 28 ≤ (zeros (28 + regions.length * 20)).length := by simp
    have left : (zeros (28 + regions.length * 20)).drop 28 = zeros (20 * regions.length) := by
      simp [zeros]; omega
    simp only [encode, wire, encodedLength, Layout.format1HeaderLength, Layout.regionLength]
    rw [header.encodeInto_eq room, left, List.take_left' header.length_wire,
      List.drop_left' header.length_wire, length_zeros, Nat.mul_div_cancel_left _ (by decide),
      Region.encodeAll_eq _ _ _ (Nat.le_refl _) (by simp)]
    simp [zeros]

/-!
## Reading a written value

Headers and regions are read back from their wire forms, whatever follows them.
A view may be built by hand, so its version byte and its region count need not
agree with its format and its regions. Main statement: what reading a written
view gives, for every view, and that it is the view itself exactly when version
and count agree with the rest.
-/

open BigEndian

/-! ### Headers and regions -/

theorem drop_flatten (fields : List (List UInt8)) (k : Nat) (rest : List UInt8) :
    (fields.flatten ++ rest).drop (fields.take k).flatten.length = (fields.drop k).flatten ++ rest := by
  have split : fields.flatten = (fields.take k).flatten ++ (fields.drop k).flatten := by
    rw [← List.flatten_append, List.take_append_drop]
  rw [split, List.append_assoc, List.drop_left]

/-- Field `k` of contiguous fields is where the ones before it end. -/
theorem numberAt_fields {fields : List (List UInt8)} {offset width : Nat} (k : Nat) {field : List UInt8}
    (rest : List UInt8) (there : fields[k]? = some field)
    (start : (fields.take k).flatten.length = offset) (full : field.length = width) :
    numberAt (fields.flatten ++ rest) offset width = load field := by
  obtain ⟨inside, rfl⟩ := List.getElem?_eq_some_iff.mp there
  subst start
  rw [numberAt, drop_flatten, List.drop_eq_getElem_cons inside, List.flatten_cons, List.append_assoc,
    List.take_left' full]

theorem uint8At_fields {fields : List (List UInt8)} {offset : Nat} (k : Nat) {value : UInt8} (rest : List UInt8)
    (there : fields[k]? = some [value]) (start : (fields.take k).flatten.length = offset) :
    (numberAt (fields.flatten ++ rest) offset 1).toUInt8 = value := by
  rw [numberAt_fields k rest there start List.length_singleton, load_singleton]

theorem uint16At_fields {fields : List (List UInt8)} {offset : Nat} (k : Nat) {value : UInt16} (rest : List UInt8)
    (there : fields[k]? = some (encode 2 value.toUInt64)) (start : (fields.take k).flatten.length = offset) :
    (numberAt (fields.flatten ++ rest) offset 2).toUInt16 = value := by
  rw [numberAt_fields k rest there start (length_encode ..), load_encode_uint16]

theorem uint32At_fields {fields : List (List UInt8)} {offset : Nat} (k : Nat) {value : UInt32} (rest : List UInt8)
    (there : fields[k]? = some (encode 4 value.toUInt64)) (start : (fields.take k).flatten.length = offset) :
    (numberAt (fields.flatten ++ rest) offset 4).toUInt32 = value := by
  rw [numberAt_fields k rest there start (length_encode ..), load_encode_uint32]

theorem uint64At_fields {fields : List (List UInt8)} {offset : Nat} (k : Nat) {value : UInt64} (rest : List UInt8)
    (there : fields[k]? = some (encode 8 value)) (start : (fields.take k).flatten.length = offset) :
    numberAt (fields.flatten ++ rest) offset 8 = value := by
  rw [numberAt_fields k rest there start (length_encode ..), load_encode_uint64]

theorem Header.decode_wire (header : Header) (rest : List UInt8) : decode (header.wire ++ rest) = header := by
  obtain ⟨fsys, version, state, flags, bfid⟩ := header
  simp only [decode, Header.mk.injEq, wire, Layout.fsys, Layout.version, Layout.state, Layout.flags, Layout.bfid]
  refine ⟨?_, ?_, ?_, ?_, ?_⟩
  · exact uint8At_fields 0 rest (by rfl) (by rfl)
  · exact uint8At_fields 1 rest (by rfl) (by rfl)
  · exact uint16At_fields 2 rest (by rfl) (by rfl)
  · exact uint16At_fields 3 rest (by rfl) (by rfl)
  -- the id is not a number: it is what is left after the four numbers
  · have tail := drop_flatten (fields ⟨fsys, version, state, flags, bfid⟩) 4 rest
    simpa [fields, FixedBytes.ofPadded_append] using congrArg (FixedBytes.ofPadded 16) tail

theorem MultiRegionHeader.wire_eq (header : MultiRegionHeader) : header.wire =
    header.header.wire ++ (encode 4 header.siteTag.toUInt64 ++ encode 2 header.regionCount.toUInt64) := by
  simp [wire, fields, Header.wire]

theorem MultiRegionHeader.decode_wire (header : MultiRegionHeader) (rest : List UInt8) :
    decode (header.wire ++ rest) = header := by
  have common : Header.decode (header.wire ++ rest) = header.header := by
    rw [wire_eq, List.append_assoc]
    exact header.header.decode_wire _
  have bfid := header.header.bfid.length_toList
  obtain ⟨header, siteTag, regionCount⟩ := header
  simp only [decode, MultiRegionHeader.mk.injEq, Layout.siteTag, Layout.regionCount]
  refine ⟨common, ?_, ?_⟩
  · exact uint32At_fields 5 rest (by rfl) (by simp [fields, Header.fields, bfid])
  · exact uint16At_fields 6 rest (by rfl) (by simp [fields, Header.fields, bfid])

theorem Region.decode_wire (region : Region) : decode region.wire = region := by
  obtain ⟨offset, size, state, eventFlags, flagBits⟩ := region
  rw [← List.append_nil (wire _)]
  simp only [decode, Region.mk.injEq, wire]
  refine ⟨?_, ?_, ?_, ?_, ?_⟩
  · exact uint64At_fields 0 [] (by rfl) (by rfl)
  · exact uint64At_fields 1 [] (by rfl) (by rfl)
  · exact uint16At_fields 2 [] (by rfl) (by rfl)
  · exact uint8At_fields 3 [] (by rfl) (by rfl)
  · exact uint8At_fields 4 [] (by rfl) (by rfl)

theorem Region.decodeAll_wire : ∀ (regions : List Region) (count : Nat),
    decodeAll regions.length count (regions.flatMap wire) = regions.take count
  | [], _ => by simp [decodeAll]
  | region :: regions, 0 => by simp [decodeAll]
  | region :: regions, count + 1 => by
    rw [List.flatMap_cons, List.length_cons, decodeAll, Layout.regionLength,
      List.take_left' region.length_wire, List.drop_left' region.length_wire, region.decode_wire,
      decodeAll_wire regions count, List.take_succ_cons]

/-! ### Whole values -/

theorem View.decode_eq {raw : List UInt8} {version : UInt8} (second : raw[1]? = some version) :
    decode raw =
      if version = 0 then
        if raw.length = 22 then .ok (.format0 (.decode raw)) else .error (.badLength 0 raw.length)
      else if version = 1 then
        if raw.length < 48 then .error (.badLength 1 raw.length)
        else .ok (.format1 (.decode raw) (Region.decodeAll ((raw.length - 28) / 20)
          (MultiRegionHeader.decode raw).regionCount.toNat (raw.drop 28)))
      else .error (.unsupportedFormat version) := by
  match raw, second with
  | _ :: version :: rest, rfl =>
    by_cases h₀ : version = 0
    · subst h₀; rfl
    · by_cases h₁ : version = 1
      · subst h₁; simp [decode, Layout.format1Minimum, Layout.format1HeaderLength, Layout.regionLength]
      · simp [decode, h₀, h₁]

theorem Header.wire_second (header : Header) (rest : List UInt8) :
    (header.wire ++ rest)[1]? = some header.version := by
  simp [wire, fields]

theorem View.decode_encode_format0 (header : Header) : decode (View.format0 header).encode =
    if header.version = 0 then .ok (.format0 header)
    else if header.version = 1 then .error (.badLength 1 22)
    else .error (.unsupportedFormat header.version) := by
  have second := header.wire_second []
  have read := header.decode_wire []
  rw [List.append_nil] at second read
  simp [encode_eq_wire, wire, decode_eq second, read]

theorem View.decode_encode_format1 (header : MultiRegionHeader) (regions : List Region) :
    decode (View.format1 header regions).encode =
      if header.header.version = 0 then .error (.badLength 0 (28 + 20 * regions.length))
      else if header.header.version = 1 then
        if regions = [] then .error (.badLength 1 28)
        else .ok (.format1 header (regions.take (min regions.length header.regionCount.toNat)))
      else .error (.unsupportedFormat header.header.version) := by
  have second : (header.wire ++ regions.flatMap Region.wire)[1]? = some header.header.version := by
    rw [MultiRegionHeader.wire_eq, List.append_assoc]
    exact header.header.wire_second _
  have length : (header.wire ++ regions.flatMap Region.wire).length = 28 + 20 * regions.length := by
    rw [List.length_append, header.length_wire, length_flatMap_wire]
  have slots : (28 + 20 * regions.length - 28) / 20 = regions.length := by omega
  have long : 28 + 20 * regions.length ≠ 22 := by omega
  have short : 28 + 20 * regions.length < 48 ↔ regions = [] := by
    rw [← List.length_eq_zero_iff]; omega
  rw [encode_eq_wire, wire, decode_eq second, length, slots, header.decode_wire,
    List.drop_left' header.length_wire, Region.decodeAll_wire, Nat.min_comm, ← List.take_eq_take_min]
  simp only [long, short, ite_false]
  by_cases empty : regions = []
  · subst empty; simp
  · simp [empty]

/-- A written view is read back up to its region count. It is the view itself
exactly when version and count agree with the format and the regions. -/
theorem View.decode_encode (view : View) :
    decode view.encode =
      (match view with
      | .format0 header =>
        if header.version = 0 then .ok view
        else if header.version = 1 then .error (.badLength 1 22)
        else .error (.unsupportedFormat header.version)
      | .format1 header regions =>
        if header.header.version = 0 then .error (.badLength 0 (28 + 20 * regions.length))
        else if header.header.version = 1 then
          if regions = [] then .error (.badLength 1 28)
          else .ok (.format1 header (regions.take (min regions.length header.regionCount.toNat)))
        else .error (.unsupportedFormat header.header.version)) ∧
    (decode view.encode = .ok view ↔
      match view with
      | .format0 header => header.version = 0
      | .format1 header regions =>
        header.header.version = 1 ∧ 1 ≤ regions.length ∧ regions.length ≤ header.regionCount.toNat) := by
  cases view with
  | format0 header =>
    refine ⟨decode_encode_format0 header, ?_⟩
    rw [decode_encode_format0]
    by_cases h₀ : header.version = 0
    · simp [h₀]
    · by_cases h₁ : header.version = 1 <;> simp [h₀, h₁]
  | format1 header regions =>
    refine ⟨decode_encode_format1 header regions, ?_⟩
    rw [decode_encode_format1]
    by_cases h₁ : header.header.version = 1
    · by_cases empty : regions = []
      · simp [h₁, empty]
      · have some : 1 ≤ regions.length := List.length_pos_iff.mpr empty
        have all : regions.take (min regions.length header.regionCount.toNat) = regions ↔
            regions.length ≤ header.regionCount.toNat := by
          constructor
          · intro h
            have length := congrArg List.length h
            rw [List.length_take] at length
            omega
          · intro h
            exact List.take_of_length_le (by omega)
        simp [h₁, empty, some, all]
    · by_cases h₀ : header.header.version = 0 <;> simp [h₀, h₁]

end Residency
