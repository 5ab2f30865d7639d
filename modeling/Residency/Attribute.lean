import Residency.Bytes
import Residency.Json

/-!
# The managed attribute

Its views, the storage a value is fetched into, the stored form, the value of an
offline copy, and how reports show a view.
-/

/-!
## Values of the managed attribute

A value comes in two formats. Format 0 is a header. Format 1 adds a site tag and
a region count to the header and carries a list of regions. A `View` may be
built by hand: its version byte and region count need not agree with the rest.
-/

namespace Residency

/-- Name of the managed attribute, kept in the privileged namespace. -/
def managedAttributeName : String := "SGI_DMI_DMFATTR"

/-- The residency states of a file that may be dumped as offline. -/
inductive DmfState where
  /-- Backed up, data still online. -/
  | dualState
  /-- Backed up, no data online. -/
  | offline
  /-- Data is being staged back in. -/
  | unmigrating
  /-- Backed up, parts of the data online. -/
  | part
deriving DecidableEq

namespace DmfState

def toRaw : DmfState → UInt16
  | dualState => 2
  | offline => 3
  | unmigrating => 4
  | part => 6

def ofRaw? (raw : UInt16) : Option DmfState :=
  if raw = 2 then some dualState
  else if raw = 3 then some offline
  else if raw = 4 then some unmigrating
  else if raw = 6 then some part
  else none

/-- The three letters by which the state is known. -/
def abbreviation : DmfState → String
  | dualState => "DUL"
  | offline => "OFL"
  | unmigrating => "UNM"
  | part => "PAR"

theorem ofRaw?_eq_some_iff (raw : UInt16) (s : DmfState) : ofRaw? raw = some s ↔ raw = s.toRaw := by
  constructor
  · intro h
    simp only [ofRaw?] at h
    repeat' split at h
    all_goals simp_all
    all_goals subst h; rfl
  · rintro rfl; cases s <;> rfl

end DmfState

/-- Fields common to both formats. -/
structure Header where
  fsys : UInt8
  version : UInt8
  state : UInt16
  flags : UInt16
  bfid : FixedBytes 16
deriving DecidableEq

/-- One managed region of a file. -/
structure Region where
  offset : UInt64
  size : UInt64
  state : UInt16
  eventFlags : UInt8
  flagBits : UInt8
deriving DecidableEq

/-- The header of format 1. -/
structure MultiRegionHeader where
  header : Header
  siteTag : UInt32
  regionCount : UInt16
deriving DecidableEq

inductive View where
  | format0 (header : Header)
  | format1 (header : MultiRegionHeader) (regions : List Region)
deriving DecidableEq

def View.header : View → Header
  | .format0 header => header
  | .format1 header _ => header.header

/-!
## Storage for a fetched value

The storage is allocated once and reused for every file. Only the first `length`
bytes are visible; the bytes behind them, and those that a failed producer left,
stay in the storage.
-/

/-- Bytes that a producer puts at one place of the storage. -/
structure Write where
  offset : Nat
  bytes : List UInt8

/-- What a producer does with the storage handed to it: some writes, then a
failure or the number of bytes that it says it wrote. -/
structure Fill (ε : Type) where
  writes : List Write
  outcome : Except ε Nat

structure Overflow where
  length : Nat
  capacity : Nat
deriving DecidableEq

def Overflow.message (overflow : Overflow) : String :=
  s!"attribute value of {overflow.length} bytes exceeds buffer capacity of {overflow.capacity}"

inductive FillError (ε : Type) where
  | producer (error : ε)
  | overflow (overflow : Overflow)

/-- Larger than any value that is ever written. -/
def bufferCapacity : Nat := 5000

structure AttributeBuffer where
  storage : FixedBytes bufferCapacity
  length : Nat
  length_le : length ≤ bufferCapacity
deriving DecidableEq

namespace AttributeBuffer

def empty : AttributeBuffer := ⟨⟨zeros bufferCapacity, length_zeros _⟩, 0, Nat.zero_le _⟩

/-- The visible bytes. -/
def toList (buffer : AttributeBuffer) : List UInt8 := buffer.storage.toList.take buffer.length

def clear (buffer : AttributeBuffer) : AttributeBuffer := ⟨buffer.storage, 0, Nat.zero_le _⟩

/-- The storage after a producer's writes, in their order, each cut off at the end. -/
def applyWrites (storage : FixedBytes bufferCapacity) (writes : List Write) : FixedBytes bufferCapacity :=
  writes.foldl (fun storage write => storage.overlay write.offset write.bytes) storage

/-- Lets a producer write, then shows as many bytes as it reports. Nothing is
shown if it fails or reports more than fits. -/
def fill {ε : Type} (buffer : AttributeBuffer) (produced : Fill ε) :
    Except (FillError ε) Nat × AttributeBuffer :=
  let storage := applyWrites buffer.storage produced.writes
  match produced.outcome with
  | .error error => (.error (.producer error), ⟨storage, 0, Nat.zero_le _⟩)
  | .ok written =>
    if fits : written ≤ bufferCapacity then (.ok written, ⟨storage, written, fits⟩)
    else (.error (.overflow ⟨written, bufferCapacity⟩), ⟨storage, 0, Nat.zero_le _⟩)

/-- One line for logs: the length, not the bytes. -/
def summary (buffer : AttributeBuffer) : String := s!"AttrBuffer \x7b len: {buffer.length} \x7d"

@[simp] theorem toList_empty : empty.toList = [] := List.take_zero

@[simp] theorem toList_clear (buffer : AttributeBuffer) : buffer.clear.toList = [] := List.take_zero

@[simp] theorem length_toList (buffer : AttributeBuffer) : buffer.toList.length = buffer.length := by
  simp [toList, buffer.storage.length_toList, buffer.length_le]

end AttributeBuffer

/-!
## The stored form of an attribute value

All numbers are big-endian. The offsets below are shared by the reader and the
writer. Format 0 fills 22 bytes; format 1 has a header of 28 bytes and a
descriptor of 20 bytes for each region.
-/

namespace Layout

def fsys : Nat := 0
def version : Nat := 1
def state : Nat := 2
def flags : Nat := 4
def bfid : Nat := 6
def siteTag : Nat := 22
def regionCount : Nat := 26

/-- Size of a format 0 value. -/
def format0Length : Nat := 22
/-- Size of the format 1 header without its regions. -/
def format1HeaderLength : Nat := 28
def regionLength : Nat := 20
/-- A format 1 value is long enough for one region. -/
def format1Minimum : Nat := format1HeaderLength + regionLength

/-- Type number of the filesystem whose values can be projected. -/
def xfs : UInt8 := 1

end Layout

/-- Why some bytes are no attribute value. -/
inductive LayoutError where
  | tooShort (length needed : Nat)
  | unsupportedFormat (version : UInt8)
  | badLength (format : UInt8) (length : Nat)
deriving DecidableEq

def LayoutError.message : LayoutError → String
  | .tooShort length needed => s!"attribute value too short: {length} bytes (need {needed})"
  | .unsupportedFormat version => s!"unsupported attribute format version: {version.toNat}"
  | .badLength format length => s!"bad length {length} for attribute format {format.toNat}"

/-- The number in `width` bytes from `offset` on. -/
def numberAt (raw : List UInt8) (offset width : Nat) : UInt64 :=
  BigEndian.load ((raw.drop offset).take width)

namespace Header

def decode (raw : List UInt8) : Header where
  fsys := (numberAt raw Layout.fsys 1).toUInt8
  version := (numberAt raw Layout.version 1).toUInt8
  state := (numberAt raw Layout.state 2).toUInt16
  flags := (numberAt raw Layout.flags 2).toUInt16
  bfid := .ofPadded 16 (raw.drop Layout.bfid)

/-- Writes the common fields to their places in a block. -/
def encodeInto (header : Header) (block : List UInt8) : List UInt8 :=
  block
  |> overlay Layout.fsys [header.fsys]
  |> overlay Layout.version [header.version]
  |> overlay Layout.state (BigEndian.encode 2 header.state.toUInt64)
  |> overlay Layout.flags (BigEndian.encode 2 header.flags.toUInt64)
  |> overlay Layout.bfid header.bfid.toList

end Header

namespace Region

def decode (raw : List UInt8) : Region where
  offset := numberAt raw 0 8
  size := numberAt raw 8 8
  state := (numberAt raw 16 2).toUInt16
  eventFlags := (numberAt raw 18 1).toUInt8
  flagBits := (numberAt raw 19 1).toUInt8

/-- Reads slots one after the other, until the complete slots or the number asked
for run out. -/
def decodeAll : (slots count : Nat) → List UInt8 → List Region
  | slots + 1, count + 1, raw =>
    decode (raw.take Layout.regionLength) :: decodeAll slots count (raw.drop Layout.regionLength)
  | _, _, _ => []

/-- Writes a region to its slot. -/
def encodeInto (region : Region) (slot : List UInt8) : List UInt8 :=
  slot
  |> overlay 0 (BigEndian.encode 8 region.offset)
  |> overlay 8 (BigEndian.encode 8 region.size)
  |> overlay 16 (BigEndian.encode 2 region.state.toUInt64)
  |> overlay 18 [region.eventFlags]
  |> overlay 19 [region.flagBits]

/-- Writes regions to slots one after the other, until the slots or the regions run
out. What is left of the block stays as it is. -/
def encodeAll : (slots : Nat) → List Region → List UInt8 → List UInt8
  | slots + 1, region :: rest, block =>
    region.encodeInto (block.take Layout.regionLength) ++
      encodeAll slots rest (block.drop Layout.regionLength)
  | _, _, block => block

end Region

namespace MultiRegionHeader

def decode (raw : List UInt8) : MultiRegionHeader where
  header := .decode raw
  siteTag := (numberAt raw Layout.siteTag 4).toUInt32
  regionCount := (numberAt raw Layout.regionCount 2).toUInt16

/-- Writes the header of format 1 to its place in a block. -/
def encodeInto (header : MultiRegionHeader) (block : List UInt8) : List UInt8 :=
  header.header.encodeInto block
  |> overlay Layout.siteTag (BigEndian.encode 4 header.siteTag.toUInt64)
  |> overlay Layout.regionCount (BigEndian.encode 2 header.regionCount.toUInt64)

end MultiRegionHeader

namespace View

/-- Reads and checks a value. The second byte names the format and the format
fixes the lengths. Regions are read up to the stored count or the last complete
descriptor, whichever comes first; what follows is ignored. -/
def decode (raw : List UInt8) : Except LayoutError View :=
  match raw with
  | _ :: version :: _ =>
    if version = 0 then
      if raw.length = Layout.format0Length then .ok (.format0 (.decode raw))
      else .error (.badLength version raw.length)
    else if version = 1 then
      if raw.length < Layout.format1Minimum then .error (.badLength version raw.length)
      else
        let header := MultiRegionHeader.decode raw
        let slots := raw.drop Layout.format1HeaderLength
        .ok (.format1 header
          (Region.decodeAll (slots.length / Layout.regionLength) header.regionCount.toNat slots))
    else .error (.unsupportedFormat version)
  | _ => .error (.tooShort raw.length Layout.format0Length)

def encodedLength : View → Nat
  | .format0 _ => Layout.format0Length
  | .format1 _ regions => Layout.format1HeaderLength + regions.length * Layout.regionLength

/-- Fills a block of the value's length, field by field. -/
def encode (view : View) : List UInt8 :=
  let block := zeros view.encodedLength
  match view with
  | .format0 header => header.encodeInto block
  | .format1 header regions =>
    let block := header.encodeInto block
    let slots := block.drop Layout.format1HeaderLength
    block.take Layout.format1HeaderLength ++
      Region.encodeAll (slots.length / Layout.regionLength) regions slots

end View

/-!
## The value of an offline copy

A file that is dumped as offline gets a new attribute: one region over
the whole file, everything offline. A single region needs format 1 only for the
sake of a site tag, so a value without one goes back to format 0.
-/

namespace Region

/-- Event bits of a region without online data: read, write, truncate. -/
def offlineEvents : UInt8 := 0x1 ||| 0x2 ||| 0x4

/-- The region from the start of a file to its end, offline. -/
def wholeFile (fileSize : Int64) : Region where
  offset := 0
  size := fileSize.toUInt64
  state := DmfState.offline.toRaw
  eventFlags := offlineEvents
  flagBits := 0

end Region

def Header.offline (header : Header) : Header := { header with state := DmfState.offline.toRaw }

/-- What a fully offline copy of this file carries. -/
def View.offlineReplacement (view : View) (fileSize : Int64) : View :=
  match view with
  | .format1 header _ =>
    if header.siteTag = 0 then .format0 { header.header.offline with version := 0 }
    else .format1 { header with header := header.header.offline, regionCount := 1 } [.wholeFile fileSize]
  | .format0 header => .format0 { header.offline with version := 0 }

/-!
## Attribute values in reports

A view names its format. The fields of a header without regions stand beside
that name; the bitfile id is written in hexadecimal. Members are in the order of
their names.
-/

def Json.ofBytes (bytes : List UInt8) : Json := .text (Hex.encode bytes)

def Header.toJson (header : Header) : Json := .object [
  ("bfid", .ofBytes header.bfid.toList),
  ("flags", .number header.flags.toNat),
  ("format", .text "0"),
  ("fsys", .number header.fsys.toNat),
  ("state", .number header.state.toNat),
  ("version", .number header.version.toNat)]

def MultiRegionHeader.toJson (header : MultiRegionHeader) : Json := .object [
  ("bfid", .ofBytes header.header.bfid.toList),
  ("flags", .number header.header.flags.toNat),
  ("fsys", .number header.header.fsys.toNat),
  ("region_count", .number header.regionCount.toNat),
  ("site_tag", .number header.siteTag.toNat),
  ("state", .number header.header.state.toNat),
  ("version", .number header.header.version.toNat)]

def Region.toJson (region : Region) : Json := .object [
  ("event_flags", .number region.eventFlags.toNat),
  ("flag_bits", .number region.flagBits.toNat),
  ("offset", .number region.offset.toNat),
  ("size", .number region.size.toNat),
  ("state", .number region.state.toNat)]

def View.toJson : View → Json
  | .format0 header => header.toJson
  | .format1 header regions => .object [
      ("format", .text "1"),
      ("header", header.toJson),
      ("regions", .array (regions.map Region.toJson))]

end Residency
