import Residency.Attribute
import Residency.Bytes
import Residency.Context

/-!
# Projection and sessions

What a dump sees of a candidate, and hosts that call the operations in any order.
-/

/-!
## Extent maps

Offsets and lengths count basic blocks of 512 bytes. In one page of a map the
first slot is a header whose `entries` counts the records that follow.
-/

namespace Residency

/-- Bytes to basic blocks, rounding up. The carry is taken from the low bits
before the shift, so no size overflows. -/
def basicBlocks (bytes : Int64) : Int64 := (bytes >>> 9) + (if bytes &&& 511 = 0 then 0 else 1)

/-- Difference that stays at the least or greatest value where the exact one does not fit. -/
def saturatingSub (a b : Int64) : Int64 :=
  let exact := a.toInt - b.toInt
  if exact < Int64.minValue.toInt then Int64.minValue
  else if Int64.maxValue.toInt < exact then Int64.maxValue
  else Int64.ofInt exact

structure ExtentRecord where
  offset : Int64
  block : Int64
  length : Int64
  count : Int32
  entries : Int32
  iflags : Int32
  oflags : Int32
deriving DecidableEq

namespace ExtentRecord

/-- Block number of a hole. -/
def holeBlock : Int64 := -1

def extent (offset block length : Int64) : ExtentRecord := ⟨offset, block, length, 0, 0, 0, 0⟩

/-- Header slot of a page with room for `count` slots that announces `entries` records. -/
def header (count entries : Int32) : ExtentRecord := ⟨0, 0, 0, count, entries, 0, 0⟩

def isHole (record : ExtentRecord) : Bool := record.block == holeBlock

end ExtentRecord

/-!
## Projection of a candidate

The dump sees a candidate as fully offline: the event mask of an offline file,
one hole up to the end of the file, and a managed attribute that says so. Every
other file passes through untouched.
-/

/-- What becomes of an existing attribute. -/
inductive AttributeFilter where
  | keep
  /-- Left out; a replacement is added. -/
  | skip
deriving DecidableEq

/-- The word for a filter in reports. -/
def AttributeFilter.word : AttributeFilter → String
  | .keep => "Keep"
  | .skip => "Skip"

structure NewAttribute where
  name : String
  space : Namespace
  value : List UInt8
deriving DecidableEq

def NewAttribute.valueSize (entry : NewAttribute) : UInt32 := UInt32.ofNat entry.value.length

/-- Failures after which a file's attributes or extents must not be dumped. -/
inductive ProjectionError where
  | corruptAttribute (name : String) (size : UInt32) (minimum : Nat)
  | extentMapTooShort (slots : Nat)
deriving DecidableEq

def ProjectionError.message : ProjectionError → String
  | .corruptAttribute name size minimum =>
    s!"Corrupt attribute {name}: {size.toNat} bytes (min {minimum})"
  | .extentMapTooShort slots => s!"Extent map too short: {slots} slots (min 2)"

namespace FileContext

/-- A candidate gets the event mask of an offline file. -/
def projectMetadata (context : FileContext) (stat : InodeStat) : InodeStat :=
  if context.isCandidate then { stat with dmevmask := InodeStat.offlineEventMask } else stat

/-- One page of a file of `blocks` blocks as a single hole from the first extent's
offset to the end of the file, or as empty if the offset is at the end or past it. -/
def collapse (blocks : Int64) (header first : ExtentRecord) : ExtentRecord × ExtentRecord :=
  let remaining := saturatingSub blocks first.offset
  if 0 < remaining then
    ({ header with entries := 1 }, { first with block := ExtentRecord.holeBlock, length := remaining })
  else ({ header with entries := 0 }, first)

/-- Collapses a candidate's page of an extent map. Slot 0 is the header; slot 1 is
the first extent at or after the current offset and keeps its own. A header that
announces nothing means that the end of the file is reached. -/
def projectExtents (context : FileContext) : List ExtentRecord → Except ProjectionError (List ExtentRecord)
  | header :: first :: rest =>
    if header.entries ≤ 0 then .ok (header :: first :: rest)
    else
      match context.fileSize? with
      | none => .ok (header :: first :: rest)
      | some fileSize =>
        let (header, first) := collapse (basicBlocks fileSize) header first
        .ok (header :: first :: rest)
  | short => .error (.extentMapTooShort short.length)

/-- Only a candidate's managed attribute is left out. One too short to hold a
header is an error. -/
def filterAttribute (context : FileContext) (name : String) (size : UInt32) (space : Namespace) :
    Except ProjectionError AttributeFilter :=
  if context.isCandidate ∧ space = .root ∧ name = managedAttributeName then
    if size.toNat < Layout.format0Length then .error (.corruptAttribute name size Layout.format0Length)
    else .ok .skip
  else .ok .keep

/-- Attribute number `cursor` to add to a file's dump. A candidate gets one: its
managed attribute as it is for a file that is entirely offline. -/
def newAttribute? (context : FileContext) (cursor : UInt32) (space : Namespace) : Option NewAttribute :=
  if space = .root ∧ cursor = 0 then
    context.candidate?.map fun (fileSize, view) =>
      ⟨managedAttributeName, space, (view.offlineReplacement fileSize).encode⟩
  else none

end FileContext

/-!
## Sessions

One backend, any number of filesystems and file contexts, and a host that calls
the operations in any order. Contexts are numbered in the order of their
creation. Between calls the world behind the backend may change.
-/

structure Session (σ : Type) where
  world : σ
  filesystems : List Filesystem
  files : List FileContext

inductive Operation (σ : Type) where
  | init (mount : RawText) (apiVersion : UInt32)
  | allocate (filesystem : Nat)
  | classify (file : Nat) (stat : InodeStat)
  | metadata (file : Nat) (stat : InodeStat)
  | extents (file : Nat) (page : List ExtentRecord)
  | filter (file : Nat) (name : String) (size : UInt32) (space : Namespace)
  | add (file : Nat) (cursor : UInt32) (space : Namespace)
  | estimateSpace (filesystem : Nat) (stat : InodeStat)
  | estimateOffset (filesystem : Nat) (stat : InodeStat) (byteCount : Int64)
  /-- Looks at a context and calls nothing. -/
  | inspect (file : Nat)
  /-- The world changes on its own. -/
  | change (effect : σ → σ)

inductive Reply (ε : Type) where
  | noSuchContext
  | mounted (number : Nat) (filesystem : Filesystem)
  | notMounted (error : MountError ε)
  | allocated (number : Nat) (context : FileContext)
  | classified (classification : Classification)
  | metadata (stat : InodeStat)
  | extents (answer : Except ProjectionError (List ExtentRecord))
  | filtered (answer : Except ProjectionError AttributeFilter)
  | added (entry : Option NewAttribute)
  | estimated (size : Option Int64)
  | nothing

namespace Session

variable {σ ε : Type}

def start (world : σ) : Session σ := ⟨world, [], []⟩

/-- Runs `act` on a file context, if there is one of that number. -/
def onFile (session : Session σ) (file : Nat) (act : FileContext → Reply ε × Session σ) :
    Reply ε × Session σ :=
  match session.files[file]? with
  | some context => act context
  | none => (.noSuchContext, session)

/-- Runs `act` on a filesystem, if there is one of that number. -/
def onFilesystem (session : Session σ) (filesystem : Nat) (act : Filesystem → Reply ε × Session σ) :
    Reply ε × Session σ :=
  match session.filesystems[filesystem]? with
  | some context => act context
  | none => (.noSuchContext, session)

/-- One operation of the host. -/
def step (backend : Backend σ ε) (session : Session σ) : Operation σ → Reply ε × Session σ
  | .init mount apiVersion =>
    match Filesystem.init backend mount apiVersion session.world with
    | (.ok filesystem, world) =>
      (.mounted session.filesystems.length filesystem,
        { session with world, filesystems := session.filesystems ++ [filesystem] })
    | (.error error, world) => (.notMounted error, { session with world })
  | .allocate number => session.onFilesystem number fun filesystem =>
    (.allocated session.files.length filesystem.allocate,
      { session with files := session.files ++ [filesystem.allocate] })
  | .classify file stat => session.onFile file fun context =>
    let ((classification, context), world) := context.classify backend stat session.world
    (.classified classification, { session with world, files := session.files.set file context })
  | .metadata file stat => session.onFile file fun context => (.metadata (context.projectMetadata stat), session)
  | .extents file page => session.onFile file fun context => (.extents (context.projectExtents page), session)
  | .filter file name size space => session.onFile file fun context =>
    (.filtered (context.filterAttribute name size space), session)
  | .add file cursor space => session.onFile file fun context =>
    (.added (context.newAttribute? cursor space), session)
  | .estimateSpace number stat => session.onFilesystem number fun _ =>
    (.estimated (Filesystem.estimateSpace stat), session)
  | .estimateOffset number stat byteCount => session.onFilesystem number fun filesystem =>
    let (size, world) := filesystem.estimateOffset backend stat byteCount session.world
    (.estimated size, { session with world })
  | .inspect file => session.onFile file fun _ => (.nothing, session)
  | .change effect => (.nothing, { session with world := effect session.world })

/-- The replies to a sequence of operations, and the session after them. -/
def run (backend : Backend σ ε) : Session σ → List (Operation σ) → List (Reply ε) × Session σ
  | session, [] => ([], session)
  | session, operation :: rest =>
    let (reply, session) := step backend session operation
    let (replies, session) := run backend session rest
    (reply :: replies, session)

end Session

end Residency

/-!
## Scripted services

A backend whose answers are written down in advance: ids of mounts, and for each
inode what a handle and an attribute read give. It fails with plain texts.
-/

namespace Residency.Scripted

/-- What the script says of one inode. -/
structure FileScript where
  handleError : Option String
  attributeError : Option String
  value : Option (List UInt8)
  /-- The length reported for the value, if not its own. -/
  reported : Option Nat

structure Script where
  mounts : List (RawText × Except String FsId)
  files : List (UInt64 × FileScript)

namespace Script

def file? (script : Script) (ino : UInt64) : Option FileScript := script.files.lookup ino

/-- The script with one inode described anew, or no longer. -/
def describe (ino : UInt64) (file : Option FileScript) (script : Script) : Script :=
  let others := script.files.filter fun entry => entry.1 != ino
  { script with files := (file.map fun file => (ino, file)).toList ++ others }

end Script

/-- Error text for an attribute that the script does not know. -/
def noAttribute : String := "ENOATTR"

/-- Handles are the filesystem id, the inode number and the generation. -/
def handleOf (fsid : FsId) (ino : UInt64) (generation : UInt32) : Handle :=
  fsid.toList ++ BigEndian.encode 8 ino ++ BigEndian.encode 4 generation.toUInt64

/-- The inode number in a handle. -/
def handleIno (handle : Handle) : UInt64 := BigEndian.load ((handle.drop 8).take 8)

def backend : Backend Script String where
  resolveMount path script :=
    ((script.mounts.lookup path).getD (.error s!"{path.shown} is not a DMF filesystem"), script)
  makeHandle fsid ino generation script :=
    match (script.file? ino).bind (·.handleError) with
    | some error => (.error error, script)
    | none => (.ok (handleOf fsid ino generation), script)
  readAttribute handle _ _ _ script :=
    match script.file? (handleIno handle) with
    | none => (⟨[], .error noAttribute⟩, script)
    | some file =>
      match file.attributeError, file.value with
      | some error, _ => (⟨[], .error error⟩, script)
      | none, none => (⟨[], .error noAttribute⟩, script)
      | none, some value => (⟨[⟨0, value⟩], .ok (file.reported.getD value.length)⟩, script)

end Residency.Scripted
