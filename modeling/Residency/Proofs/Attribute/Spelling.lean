import Residency.Proofs.Attribute.Checked
import Residency.Proofs.Attribute.Rewriting

/-!
# What the bytes of a value spell

What an offline value cuts out of the bytes it replaces, and which bytes are read as a
value at all, field by field.
-/

/-!
## The offline value

The value of the offline copy keeps its file's flags, id and site tag, and holds
one region at most. As an operation on views, replacing forgets the size of an
earlier replacement, and its result is readable exactly if the version byte that
it writes names its format (`offlineReplacement_stable`). As an operation on
bytes, it cuts the fields that stay out of the value that it replaces
(`encode_offlineReplacement`).
-/

namespace Residency

open BigEndian

namespace View

/-- The last size wins, and the value is read back as it was written unless a tagged
view of format 1 was built with another version byte. -/
theorem offlineReplacement_stable (view : View) (first last : Int64) :
    (view.offlineReplacement first).offlineReplacement last = view.offlineReplacement last ∧
    (decode (view.offlineReplacement first).encode = .ok (view.offlineReplacement first) ↔
      match view with
      | .format0 _ => True
      | .format1 header _ => header.siteTag = 0 ∨ header.header.version = 1) ∧
    ∀ raw, decode raw = .ok view →
      decode (view.offlineReplacement first).encode = .ok (view.offlineReplacement first) := by
  refine ⟨view.offlineReplacement_twice first last, view.decode_encode_offlineReplacement_iff first, ?_⟩
  intro raw read
  exact decode_encode_offlineReplacement read first

/-- A tagged value with one region. -/
def tagged : List UInt8 := [1, 1, 0, 6] ++ zeros 18 ++ [0, 0, 0, 7, 0, 1] ++ zeros 20

/-- With another version byte the view is no longer read back. -/
theorem offlineReplacement_stable_tagged : ∃ header regions,
    let view := format1 header regions
    let other := format1 { header with header := { header.header with version := 0 } } regions
    decode tagged = .ok view ∧
      decode (view.offlineReplacement 512).encode = .ok (view.offlineReplacement 512) ∧
      decode (other.offlineReplacement 512).encode ≠ .ok (other.offlineReplacement 512) := by
  refine ⟨_, _, rfl, ?_, ?_⟩
  · exact (offlineReplacement_stable _ 512 512).2.2 tagged rfl
  · intro readable
    have named := (offlineReplacement_stable _ 512 512).2.1.mp readable
    revert named
    decide

end View

/-! ### Bytes -/

/-- What replaces a tagged value, for a file whose size these bytes spell. -/
def taggedBytes (raw size : List UInt8) : List UInt8 :=
  raw.extract 0 1 ++ [1, 0, 3] ++ raw.extract 4 22 ++ raw.extract 22 26 ++ [0, 1] ++ zeros 8 ++ size ++ [0, 3, 7, 0]

/-- What replaces any other value. -/
def untaggedBytes (raw : List UInt8) : List UInt8 := raw.extract 0 1 ++ [0, 0, 3] ++ raw.extract 4 22

theorem extract_between {front middle : List UInt8} (rest : List UInt8) {start stop : Nat}
    (starts : front.length = start) (stops : start + middle.length = stop) :
    (front ++ middle ++ rest).extract start stop = middle := by
  subst starts stops
  simp [List.extract_eq_take_drop]

theorem length_extract {raw : List UInt8} {start stop : Nat} (inside : stop ≤ raw.length) :
    (raw.extract start stop).length = stop - start := by
  rw [List.extract_eq_take_drop, List.length_take, List.length_drop]
  omega

section
variable {raw : List UInt8}

theorem length_taggedBytes {size : List UInt8} (long : 26 ≤ raw.length) (eight : size.length = 8) :
    (taggedBytes raw size).length = 48 := by
  simp only [taggedBytes, List.length_append, List.length_cons, List.length_nil, length_zeros, eight]
  rw [length_extract (by omega), length_extract (by omega), length_extract (by omega)]

theorem length_untaggedBytes (room : 22 ≤ raw.length) : (untaggedBytes raw).length = 22 := by
  simp only [untaggedBytes, List.length_append, List.length_cons, List.length_nil]
  rw [length_extract (by omega), length_extract (by omega)]

theorem extract_kept (room : 22 ≤ raw.length) (version : UInt8) (rest : List UInt8) :
    (raw.extract 0 1 ++ [version, 0, 3] ++ raw.extract 4 22 ++ rest).extract 4 22 = raw.extract 4 22 := by
  have first : (raw.extract 0 1).length = 1 := length_extract (by omega)
  have kept : (raw.extract 4 22).length = 18 := length_extract (by omega)
  apply extract_between
  · rw [List.length_append, first]; rfl
  · rw [kept]

theorem extract_tag (long : 26 ≤ raw.length) (version : UInt8) (rest : List UInt8) :
    (raw.extract 0 1 ++ [version, 0, 3] ++ raw.extract 4 22 ++ raw.extract 22 26 ++ rest).extract 22 26 =
      raw.extract 22 26 := by
  have first : (raw.extract 0 1).length = 1 := length_extract (by omega)
  have kept : (raw.extract 4 22).length = 18 := length_extract (by omega)
  have tag : (raw.extract 22 26).length = 4 := length_extract (by omega)
  apply extract_between
  · rw [List.length_append, List.length_append, first, kept]; rfl
  · rw [tag]

/-- Flags and id stay where they are, and so does a tag. -/
theorem extract_taggedBytes (long : 26 ≤ raw.length) (size : List UInt8) :
    (taggedBytes raw size).extract 4 22 = raw.extract 4 22 ∧
      (taggedBytes raw size).extract 22 26 = raw.extract 22 26 := by
  constructor
  · have split : taggedBytes raw size = raw.extract 0 1 ++ [1, 0, 3] ++ raw.extract 4 22 ++
        (raw.extract 22 26 ++ [0, 1] ++ zeros 8 ++ size ++ [0, 3, 7, 0]) := by
      simp only [taggedBytes, List.append_assoc]
    rw [split, extract_kept (by omega)]
  · have split : taggedBytes raw size = raw.extract 0 1 ++ [1, 0, 3] ++ raw.extract 4 22 ++ raw.extract 22 26 ++
        ([0, 1] ++ zeros 8 ++ size ++ [0, 3, 7, 0]) := by
      simp only [taggedBytes, List.append_assoc]
    rw [split, extract_tag long]

theorem extract_untaggedBytes (room : 22 ≤ raw.length) :
    (untaggedBytes raw).extract 4 22 = raw.extract 4 22 := by
  have kept := extract_kept room 0 []
  rwa [List.append_nil] at kept

end

theorem encode_offline : encode 2 DmfState.offline.toRaw.toUInt64 = [0, 3] := by decide

theorem Header.wire_offline {raw : List UInt8} (room : 22 ≤ raw.length) (version : UInt8) :
    Header.wire { (decode raw).offline with version } =
      raw.extract 0 1 ++ [version, 0, 3] ++ raw.extract 4 22 := by
  -- only the version and the state are written anew
  have fields := Header.fields_decode room
  simp only [Header.fields, List.splitLengths_cons, List.splitLengths_nil, List.drop_drop,
    List.cons.injEq, and_true] at fields
  obtain ⟨fsys, _, _, flags, bfid⟩ := fields
  have rest : raw.extract 4 22 = (raw.drop 4).take 2 ++ (raw.drop 6).take 16 := by
    have split : (raw.drop 4).take (2 + 16) = _ := List.take_add
    rwa [List.drop_drop] at split
  simp only [wire, Header.fields, Header.offline, List.flatten_cons, List.flatten_nil]
  rw [fsys, flags, bfid, encode_offline, rest]
  simp

theorem MultiRegionHeader.encode_siteTag_decode {raw : List UInt8} (room : 26 ≤ raw.length) :
    encode 4 (decode raw).siteTag.toUInt64 = raw.extract 22 26 :=
  encode_uint32At (show 22 + 4 ≤ raw.length by omega)

theorem MultiRegionHeader.siteTag_decode_eq_zero_iff {raw : List UInt8} (room : 26 ≤ raw.length) :
    (decode raw).siteTag = 0 ↔ raw.extract 22 26 = [0, 0, 0, 0] := by
  have read : (decode raw).siteTag = (load (raw.extract 22 26)).toUInt32 := rfl
  constructor
  · intro zero
    rw [← encode_siteTag_decode room, zero]
    decide
  · intro zeros
    rw [read, zeros]
    decide

theorem MultiRegionHeader.wire_offline {raw : List UInt8} (room : 28 ≤ raw.length)
    (version : (decode raw).header.version = 1) :
    wire { decode raw with header := (decode raw).header.offline, regionCount := 1 } =
      raw.extract 0 1 ++ [1, 0, 3] ++ raw.extract 4 22 ++ raw.extract 22 26 ++ [0, 1] := by
  have common : (decode raw).header.offline = { (Header.decode raw).offline with version := 1 } := by
    rw [← version]; rfl
  have one : encode 2 (1 : UInt16).toUInt64 = [0, 1] := by decide
  rw [wire_eq, common, Header.wire_offline (by omega), encode_siteTag_decode (by omega), one,
    List.append_assoc _ (raw.extract 22 26)]

theorem Region.wire_wholeFile (fileSize : Int64) :
    (wholeFile fileSize).wire = zeros 8 ++ encode 8 fileSize.toUInt64 ++ [0, 3, 7, 0] := by
  have first : encode 8 0 = zeros 8 := by decide
  have events : offlineEvents = 7 := by decide
  simp only [wire, Region.fields, wholeFile, List.flatten_cons, List.flatten_nil]
  rw [first, encode_offline, events]
  simp

namespace View

theorem encode_offlineReplacement {raw : List UInt8} {view : View} (read : decode raw = .ok view) (fileSize : Int64) :
    (view.offlineReplacement fileSize).encode =
      if raw[1]? = some 1 ∧ raw.extract 22 26 ≠ [0, 0, 0, 0] then
        taggedBytes raw (BigEndian.encode 8 fileSize.toUInt64)
      else untaggedBytes raw := by
  rw [encode_eq_wire]
  cases view with
  | format0 header =>
    obtain ⟨second, length, rfl⟩ := decode_eq_format0 read
    rw [if_neg (by simp [second])]
    exact Header.wire_offline (Nat.le_of_eq length.symm) 0
  | format1 header regions =>
    have version := version_decode_format1 read
    obtain ⟨second, long, rfl, -⟩ := decode_eq_format1 read
    have untagged := MultiRegionHeader.siteTag_decode_eq_zero_iff (show 26 ≤ raw.length by omega)
    by_cases tag : (MultiRegionHeader.decode raw).siteTag = 0
    · rw [offlineReplacement_untagged regions fileSize tag, if_neg (by simp [untagged.mp tag])]
      exact Header.wire_offline (by omega) 0
    · rw [offlineReplacement_format1 regions fileSize tag, if_pos ⟨second, fun zeros => tag (untagged.mpr zeros)⟩,
        wire, MultiRegionHeader.wire_offline (by omega) version, List.flatMap_singleton, Region.wire_wholeFile]
      simp only [taggedBytes, List.append_assoc]

end View

end Residency

/-!
## What the bytes of a value spell

A view is spelled by bytes if each number is the big-endian one at its place, the
id is the block at its place, and the regions follow one another for as long as
both the stored count and the complete descriptors last. Reading accepts what
spells a view, and gives that view (`decode_eq_ok_iff`). Main statement: what
reading makes of any bytes, without leaving them (`decode_decides`).
-/

namespace Residency

open BigEndian

structure Header.SpelledBy (header : Header) (raw : List UInt8) : Prop where
  fsys : header.fsys.toNat = valueOf (raw.extract 0 1)
  version : header.version.toNat = valueOf (raw.extract 1 2)
  state : header.state.toNat = valueOf (raw.extract 2 4)
  flags : header.flags.toNat = valueOf (raw.extract 4 6)
  bfid : header.bfid.toList = raw.extract 6 22

structure MultiRegionHeader.SpelledBy (header : MultiRegionHeader) (raw : List UInt8) : Prop where
  common : header.header.SpelledBy raw
  siteTag : header.siteTag.toNat = valueOf (raw.extract 22 26)
  regionCount : header.regionCount.toNat = valueOf (raw.extract 26 28)

structure Region.SpelledBy (region : Region) (slot : List UInt8) : Prop where
  offset : region.offset.toNat = valueOf (slot.extract 0 8)
  size : region.size.toNat = valueOf (slot.extract 8 16)
  state : region.state.toNat = valueOf (slot.extract 16 18)
  eventFlags : region.eventFlags.toNat = valueOf (slot.extract 18 19)
  flagBits : region.flagBits.toNat = valueOf (slot.extract 19 20)

/-- The second byte names the format, the length is one of that format, and what
stands behind the last region is not looked at. -/
def View.SpelledBy (view : View) (raw : List UInt8) : Prop :=
  match view with
  | .format0 header => raw[1]? = some 0 ∧ raw.length = 22 ∧ header.SpelledBy raw
  | .format1 header regions =>
    raw[1]? = some 1 ∧ 48 ≤ raw.length ∧ header.SpelledBy raw ∧
    regions.length = min header.regionCount.toNat ((raw.length - 28) / 20) ∧
    ∀ (k : Nat) (region : Region), regions[k]? = some region →
      region.SpelledBy (raw.extract (28 + 20 * k) (48 + 20 * k))

/-! ### What is read is spelled -/

theorem Header.spelledBy_decode {raw : List UInt8} (room : 22 ≤ raw.length) : (decode raw).SpelledBy raw where
  fsys := toNat_uint8At raw 0
  version := toNat_uint8At raw 1
  state := toNat_uint16At raw 2
  flags := toNat_uint16At raw 4
  bfid := List.take_append_of_le_length (by rw [List.length_drop]; exact Nat.le_sub_of_add_le room)

theorem MultiRegionHeader.spelledBy_decode {raw : List UInt8} (room : 28 ≤ raw.length) :
    (decode raw).SpelledBy raw where
  common := Header.spelledBy_decode (by omega)
  siteTag := toNat_uint32At raw 22
  regionCount := toNat_uint16At raw 26

theorem Region.spelledBy_decode (slot : List UInt8) : (decode slot).SpelledBy slot where
  offset := toNat_numberAt slot 0 (by decide)
  size := toNat_numberAt slot 8 (by decide)
  state := toNat_uint16At slot 16
  eventFlags := toNat_uint8At slot 18
  flagBits := toNat_uint8At slot 19

theorem Region.getElem?_decodeAll : ∀ (slots count : Nat) (raw : List UInt8) (k : Nat),
    (decodeAll slots count raw)[k]? =
      if k < min slots count then some (decode ((raw.drop (20 * k)).take 20)) else none
  | 0, _, _, _ => by simp [decodeAll]
  | _ + 1, 0, _, _ => by simp [decodeAll]
  | slots + 1, count + 1, raw, 0 => by simp [decodeAll, Layout.regionLength]
  | slots + 1, count + 1, raw, k + 1 => by
    have next : 20 + 20 * k = 20 * (k + 1) := by omega
    have inside : k < min slots count ↔ k + 1 < min (slots + 1) (count + 1) := by omega
    rw [decodeAll, List.getElem?_cons_succ, getElem?_decodeAll slots count, Layout.regionLength,
      List.drop_drop, next]
    simp only [inside]

namespace View

theorem spelledBy_of_decode {raw : List UInt8} {view : View} (read : decode raw = .ok view) :
    view.SpelledBy raw := by
  cases view with
  | format0 header =>
    obtain ⟨second, length, rfl⟩ := decode_eq_format0 read
    exact ⟨second, length, Header.spelledBy_decode (Nat.le_of_eq length.symm)⟩
  | format1 header regions =>
    have length := length_regions_decode read
    obtain ⟨second, long, rfl, rfl⟩ := decode_eq_format1 read
    refine ⟨second, long, MultiRegionHeader.spelledBy_decode (by omega), by rw [length, Nat.min_comm], ?_⟩
    intro k region there
    rw [Region.getElem?_decodeAll, List.drop_drop] at there
    have slot : 48 + 20 * k - (28 + 20 * k) = 20 := by omega
    split at there
    · cases there
      rw [List.extract_eq_take_drop, slot]
      exact Region.spelledBy_decode _
    · cases there

end View

/-! ### One view is spelled -/

theorem Header.SpelledBy.unique {a b : Header} {raw : List UInt8} (ha : a.SpelledBy raw) (hb : b.SpelledBy raw) :
    a = b := by
  cases a; cases b
  rw [Header.mk.injEq]
  refine ⟨?_, ?_, ?_, ?_, ?_⟩
  · exact UInt8.toNat_inj.mp (ha.fsys.trans hb.fsys.symm)
  · exact UInt8.toNat_inj.mp (ha.version.trans hb.version.symm)
  · exact UInt16.toNat_inj.mp (ha.state.trans hb.state.symm)
  · exact UInt16.toNat_inj.mp (ha.flags.trans hb.flags.symm)
  · exact FixedBytes.ext (ha.bfid.trans hb.bfid.symm)

theorem MultiRegionHeader.SpelledBy.unique {a b : MultiRegionHeader} {raw : List UInt8} (ha : a.SpelledBy raw)
    (hb : b.SpelledBy raw) : a = b := by
  cases a; cases b
  rw [MultiRegionHeader.mk.injEq]
  refine ⟨ha.common.unique hb.common, ?_, ?_⟩
  · exact UInt32.toNat_inj.mp (ha.siteTag.trans hb.siteTag.symm)
  · exact UInt16.toNat_inj.mp (ha.regionCount.trans hb.regionCount.symm)

theorem Region.SpelledBy.unique {a b : Region} {slot : List UInt8} (ha : a.SpelledBy slot) (hb : b.SpelledBy slot) :
    a = b := by
  cases a; cases b
  rw [Region.mk.injEq]
  refine ⟨?_, ?_, ?_, ?_, ?_⟩
  · exact UInt64.toNat_inj.mp (ha.offset.trans hb.offset.symm)
  · exact UInt64.toNat_inj.mp (ha.size.trans hb.size.symm)
  · exact UInt16.toNat_inj.mp (ha.state.trans hb.state.symm)
  · exact UInt8.toNat_inj.mp (ha.eventFlags.trans hb.eventFlags.symm)
  · exact UInt8.toNat_inj.mp (ha.flagBits.trans hb.flagBits.symm)

namespace View

theorem SpelledBy.unique {a b : View} {raw : List UInt8} (ha : a.SpelledBy raw) (hb : b.SpelledBy raw) : a = b := by
  cases a with
  | format0 header =>
    cases b with
    | format0 other => rw [ha.2.2.unique hb.2.2]
    | format1 other regions => cases ha.1.symm.trans hb.1
  | format1 header regions =>
    cases b with
    | format0 other => cases ha.1.symm.trans hb.1
    | format1 other others =>
      obtain ⟨_, _, front, length, spelled⟩ := ha
      obtain ⟨_, _, front', length', spelled'⟩ := hb
      obtain rfl := front.unique front'
      suffices same : regions = others by rw [same]
      apply List.ext_getElem?
      intro k
      by_cases inside : k < regions.length
      · have inside' : k < others.length := by omega
        have there := List.getElem?_eq_getElem inside
        have there' := List.getElem?_eq_getElem inside'
        rw [there, there', (spelled k _ there).unique (spelled' k _ there')]
      · rw [List.getElem?_eq_none (by omega), List.getElem?_eq_none (by omega)]

/-! ### Bytes that are not looked at -/

end View

theorem extract_congr {a b : List UInt8} {n : Nat} (same : a.take n = b.take n) (start stop : Nat)
    (inside : stop ≤ n) : a.extract start stop = b.extract start stop := by
  have cut : a.take stop = b.take stop := by
    have shorter := congrArg (List.take stop) same
    rwa [List.take_take, List.take_take, Nat.min_eq_left inside] at shorter
  rw [List.extract_eq_take_drop, List.extract_eq_take_drop, ← List.drop_take, ← List.drop_take, cut]

section
variable {raw other : List UInt8}

theorem Header.SpelledBy.congr {header : Header} (spelled : header.SpelledBy raw) (same : raw.take 22 = other.take 22) :
    header.SpelledBy other where
  fsys := by rw [← extract_congr same 0 1 (by decide)]; exact spelled.fsys
  version := by rw [← extract_congr same 1 2 (by decide)]; exact spelled.version
  state := by rw [← extract_congr same 2 4 (by decide)]; exact spelled.state
  flags := by rw [← extract_congr same 4 6 (by decide)]; exact spelled.flags
  bfid := by rw [← extract_congr same 6 22 (by decide)]; exact spelled.bfid

theorem MultiRegionHeader.SpelledBy.congr {header : MultiRegionHeader} (spelled : header.SpelledBy raw)
    (same : raw.take 28 = other.take 28) : header.SpelledBy other where
  common := spelled.common.congr (extract_congr same 0 22 (by decide))
  siteTag := by rw [← extract_congr same 22 26 (by decide)]; exact spelled.siteTag
  regionCount := by rw [← extract_congr same 26 28 (by decide)]; exact spelled.regionCount

theorem View.SpelledBy.congr {view : View} (spelled : view.SpelledBy raw) (length : other.length = raw.length)
    (same : raw.take view.encodedLength = other.take view.encodedLength) : view.SpelledBy other := by
  have second (long : 1 < view.encodedLength) : other[1]? = raw[1]? := by
    have taken := congrArg (·[1]?) same
    simp only [List.getElem?_take, long, ite_true] at taken
    exact taken.symm
  cases view with
  | format0 header =>
    obtain ⟨version, short, spelled⟩ := spelled
    exact ⟨(second (show 1 < 22 by decide)).trans version, length.trans short, spelled.congr same⟩
  | format1 header regions =>
    obtain ⟨version, long, front, count, spelled⟩ := spelled
    -- the encoded length ends behind the last region that is there
    have upto : 28 + 20 * regions.length = (format1 header regions).encodedLength := by
      rw [encodedLength, Layout.format1HeaderLength, Layout.regionLength, Nat.mul_comm]
    rw [← upto] at same second
    refine ⟨(second (by omega)).trans version, by omega, front.congr (extract_congr same 0 28 (by omega)),
      by rw [length]; exact count, ?_⟩
    intro k region there
    obtain ⟨inside, -⟩ := List.getElem?_eq_some_iff.mp there
    rw [← extract_congr same _ _ (by omega)]
    exact spelled k region there

end

/-! ### Reading -/

namespace View

theorem exists_decode_of_spelled {raw : List UInt8} {view : View} (spelled : view.SpelledBy raw) :
    ∃ read, decode raw = .ok read := by
  cases view with
  | format0 header =>
    obtain ⟨second, length, _⟩ := spelled
    rw [decode_eq second, if_pos rfl, if_pos length]
    exact ⟨_, rfl⟩
  | format1 header regions =>
    obtain ⟨second, long, _⟩ := spelled
    rw [decode_eq second, if_neg (by decide), if_pos rfl, if_neg (by omega)]
    exact ⟨_, rfl⟩

theorem decode_eq_ok_iff (raw : List UInt8) (view : View) : decode raw = .ok view ↔ view.SpelledBy raw := by
  constructor
  · exact spelledBy_of_decode
  · intro spelled
    obtain ⟨read, eq⟩ := exists_decode_of_spelled spelled
    rw [eq, (spelledBy_of_decode eq).unique spelled]

theorem decode_short {raw : List UInt8} (short : raw.length < 2) : decode raw = .error (.tooShort raw.length 22) := by
  match raw, short with
  | [], _ => rfl
  | [_], _ => rfl
  | _ :: _ :: _, short => rw [List.length_cons, List.length_cons] at short; omega

theorem decode_of_second {raw : List UInt8} {format : UInt8} (second : raw[1]? = some format) :
    if 2 ≤ format then decode raw = .error (.unsupportedFormat format)
    else if format = 0 ∧ raw.length = 22 ∨ format = 1 ∧ 48 ≤ raw.length then ∃ view, decode raw = .ok view
    else decode raw = .error (.badLength format raw.length) := by
  rw [decode_eq second]
  by_cases zero : format = 0
  · subst zero
    by_cases length : raw.length = 22
    · simp [length]
    · simp [length]
  · by_cases one : format = 1
    · subst one
      by_cases short : raw.length < 48
      · simp [short, Nat.not_le.mpr short]
      · simp [short, Nat.le_of_not_lt short]
    · have other : 2 ≤ format := by
        have notZero : format.toNat ≠ 0 := fun h => zero (UInt8.toNat_inj.mp h)
        have notOne : format.toNat ≠ 1 := fun h => one (UInt8.toNat_inj.mp h)
        exact UInt8.le_iff_toNat_le.mpr (show 2 ≤ format.toNat by omega)
      rw [if_pos other, if_neg zero, if_neg one]

/-- Every value is read within its bounds. Its second byte decides the format and
the format the lengths; what is accepted is the view that the bytes spell, and
bytes behind the last region do not matter. -/
theorem decode_decides (raw : List UInt8) :
    decodeChecked raw = .ok (decode raw) ∧
    (raw.length < 2 → decode raw = .error (.tooShort raw.length 22)) ∧
    (∀ format, raw[1]? = some format →
      if 2 ≤ format then decode raw = .error (.unsupportedFormat format)
      else if format = 0 ∧ raw.length = 22 ∨ format = 1 ∧ 48 ≤ raw.length then ∃ view, decode raw = .ok view
      else decode raw = .error (.badLength format raw.length)) ∧
    ∀ view, (decode raw = .ok view ↔ view.SpelledBy raw) ∧
      ∀ other, decode raw = .ok view → other.length = raw.length →
        raw.take view.encodedLength = other.take view.encodedLength → decode other = .ok view := by
  refine ⟨decodeChecked_eq raw, decode_short, fun format => decode_of_second, ?_⟩
  intro view
  refine ⟨decode_eq_ok_iff raw view, ?_⟩
  intro other read length same
  rw [decode_eq_ok_iff] at read ⊢
  exact read.congr length same

theorem decode_decides_overlong : ∃ view, decode overlong = .ok view ∧ view.SpelledBy overlong ∧
    decode (overlong.take 48 ++ zeros 25) = .ok view := by
  obtain ⟨-, -, -, reads⟩ := decode_decides overlong
  have read : decode overlong = .ok _ := rfl
  obtain ⟨spelled, ignored⟩ := reads _
  exact ⟨_, read, spelled.mp read, ignored (overlong.take 48 ++ zeros 25) read rfl rfl⟩

end View

end Residency
