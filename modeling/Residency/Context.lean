import Residency.Attribute
import Residency.Bytes

/-!
# Classification and estimates

The record of a file, the services of its filesystem, and the context in which files
are classified one after the other.
-/

/-!
## Bulk-stat records

The part of an inode's record that decides how the file is dumped.
-/

namespace Residency

inductive FileKind where
  | regularFile
  | directory
  | symlink
  | other
deriving DecidableEq

/-- The type bits of a mode. -/
def FileKind.ofMode (mode : UInt32) : FileKind :=
  let type := mode &&& 0o170000
  if type = 0o100000 then .regularFile
  else if type = 0o040000 then .directory
  else if type = 0o120000 then .symlink
  else .other

structure InodeStat where
  ino : UInt64
  generation : UInt32
  mode : UInt32
  /-- Extended inode flags. -/
  xflags : UInt32
  /-- Mask of the events that are reported for the file. -/
  dmevmask : UInt32
  /-- Logical size in bytes. -/
  size : Int64
deriving DecidableEq

namespace InodeStat

/-- Inode flag: the inode has an attribute fork. -/
def hasAttributeFlag : UInt32 := 0x80000000

/-- The mask with one event of the given number. -/
def eventBit (number : UInt32) : UInt32 := 1 <<< number

def readEvent : UInt32 := eventBit 16
def writeEvent : UInt32 := eventBit 17
def truncateEvent : UInt32 := eventBit 18
def destroyEvent : UInt32 := eventBit 20

/-- The event mask of files without all their data online. -/
def offlineEventMask : UInt32 := destroyEvent ||| readEvent ||| writeEvent ||| truncateEvent

def kind (stat : InodeStat) : FileKind := .ofMode stat.mode

def hasAttributeFork (stat : InodeStat) : Bool := stat.xflags &&& hasAttributeFlag != 0

def hasManagedEvents (stat : InodeStat) : Bool := stat.dmevmask &&& offlineEventMask != 0

end InodeStat

/-!
## Services of a filesystem

What classification needs from a filesystem: the id of what is mounted at a
path, a handle for an inode, and an attribute's value read into storage. A
backend may keep a state of its own. Its answers are data, so a read is a list
of writes into the storage and a reported length, which need not agree.
-/

inductive Namespace where
  | user
  /-- The privileged namespace. -/
  | root
  | secure
deriving DecidableEq

abbrev FsId := FixedBytes 8

/-- Opaque bytes that name one inode of one filesystem. -/
abbrev Handle := List UInt8

structure Backend (σ ε : Type) where
  /-- The id of the filesystem mounted at a path. -/
  resolveMount : RawText → σ → Except ε FsId × σ
  /-- A handle for an inode number and generation. -/
  makeHandle : FsId → UInt64 → UInt32 → σ → Except ε Handle × σ
  /-- Reads an attribute into storage of the given capacity. -/
  readAttribute : Handle → String → Namespace → Nat → σ → Fill ε × σ

/-- One request to a backend. -/
inductive Call where
  | resolveMount (path : RawText)
  | makeHandle (fsid : FsId) (ino : UInt64) (generation : UInt32)
  | readAttribute (handle : Handle) (name : String) (space : Namespace) (capacity : Nat)
deriving DecidableEq

namespace Backend

variable {σ ε : Type}

/-- The same backend, which also notes each request, the latest last. -/
def recorded (backend : Backend σ ε) : Backend (σ × List Call) ε where
  resolveMount path world :=
    let (answer, state) := backend.resolveMount path world.1
    (answer, state, world.2 ++ [.resolveMount path])
  makeHandle fsid ino generation world :=
    let (answer, state) := backend.makeHandle fsid ino generation world.1
    (answer, state, world.2 ++ [.makeHandle fsid ino generation])
  readAttribute handle name space capacity world :=
    let (answer, state) := backend.readAttribute handle name space capacity world.1
    (answer, state, world.2 ++ [.readAttribute handle name space capacity])

end Backend

/-!
## Contexts of a dump

A `Filesystem` is set up once for each dumped filesystem. A `FileContext` belongs
to one dump stream, which reuses it for every file: its state says where it
stands for the file classified last.
-/

/-- The one version of the host interface that is spoken. -/
def supportedApiVersion : UInt32 := 1

structure Filesystem where
  apiVersion : UInt32
  fsid : FsId
deriving DecidableEq

/-- Why a filesystem must not be dumped with residency support. -/
inductive MountError (ε : Type) where
  | unsupportedApiVersion (requested supported : UInt32)
  | unresolved (mount : RawText) (source : ε)

/-- Why a file is dumped as it is. -/
inductive Disqualification where
  | notRegularFile
  | noAttributeFork
  | noManagedEvents
  | handleUnavailable
  | attributeUnavailable
  | attributeTooLarge (length : Nat)
  | foreignFilesystem (fsys : UInt8)
  | layout (error : LayoutError)
  | stateNotProjectable (state : UInt16)
deriving DecidableEq

def Disqualification.message : Disqualification → String
  | .notRegularFile => "not a regular file"
  | .noAttributeFork => "no attribute fork"
  | .noManagedEvents => "no DMF event bits set"
  | .handleUnavailable => "cannot build file handle"
  | .attributeUnavailable => "no DMF attribute"
  | .attributeTooLarge length => s!"attribute of {length} bytes does not fit"
  | .foreignFilesystem fsys => s!"unsupported filesystem type {fsys.toNat}"
  | .layout error => error.message
  | .stateNotProjectable state => s!"DMF state {state.toNat} cannot be dumped offline"

inductive FileState where
  | unclassified
  | rejected (reason : Disqualification)
  /-- The file is dumped as if it were offline. -/
  | candidate (fileSize : Int64) (view : View)
deriving DecidableEq

structure FileContext where
  filesystem : Filesystem
  state : FileState
  buffer : AttributeBuffer
deriving DecidableEq

namespace Filesystem

variable {σ ε : Type}

/-- Sets up the filesystem mounted at a path. The version is checked before the
backend is asked. -/
def init (backend : Backend σ ε) (mount : RawText) (apiVersion : UInt32) (world : σ) :
    Except (MountError ε) Filesystem × σ :=
  if apiVersion = supportedApiVersion then
    match backend.resolveMount mount world with
    | (.ok fsid, world) => (.ok ⟨apiVersion, fsid⟩, world)
    | (.error source, world) => (.error (.unresolved mount source), world)
  else (.error (.unsupportedApiVersion apiVersion supportedApiVersion), world)

/-- A context for one dump stream, before its first file. -/
def allocate (filesystem : Filesystem) : FileContext := ⟨filesystem, .unclassified, .empty⟩

/-- One line for logs: version and id. -/
def summary (filesystem : Filesystem) : String :=
  let bytes := ", ".intercalate (filesystem.fsid.toList.map fun byte => toString byte.toNat)
  s!"FilesystemContext \x7b api_version: {filesystem.apiVersion.toNat}, fsid: FsId([{bytes}]), .. \x7d"

end Filesystem

/-- The wording of a failed set-up, given that of the backend's own errors. -/
def MountError.message {ε : Type} (describe : ε → String) : MountError ε → String
  | .unsupportedApiVersion requested supported =>
    s!"Unsupported HSM API version: {requested.toNat} (supported: {supported.toNat})"
  | .unresolved mount source => s!"Cannot resolve {mount.shown} to a filesystem id: {describe source}"

namespace FileContext

/-- The size and view of a candidate. -/
def candidate? (context : FileContext) : Option (Int64 × View) :=
  match context.state with
  | .candidate fileSize view => some (fileSize, view)
  | _ => none

def isCandidate (context : FileContext) : Bool := context.candidate?.isSome

def fileSize? (context : FileContext) : Option Int64 := context.candidate?.map (·.1)

/-- The bytes fetched for the file classified last. -/
def rawAttribute (context : FileContext) : List UInt8 := context.buffer.toList

end FileContext

/-!
## Classification

A file can be dumped as offline if its bulk-stat record allows it to be a
managed file at all, its attribute can be read, and the attribute is a valid
value of this filesystem type in a state that can be projected. The first test
that fails is the reason given. The attribute is fetched only after the tests on
the record.
-/

inductive Classification where
  | candidate (fileSize : Int64)
  | rejected (reason : Disqualification)
deriving DecidableEq

def Classification.isCandidate : Classification → Bool
  | .candidate _ => true
  | .rejected _ => false

/-- The tests that need nothing but the record. -/
def quickReject (stat : InodeStat) : Option Disqualification :=
  if stat.kind ≠ .regularFile then some .notRegularFile
  else if !stat.hasAttributeFork then some .noAttributeFork
  else if !stat.hasManagedEvents then some .noManagedEvents
  else none

/-- The tests on a fetched value. The filesystem type is looked at before the layout. -/
def judge (raw : List UInt8) : Except Disqualification View :=
  match raw with
  | [] => .error (.layout (.tooShort 0 Layout.format0Length))
  | fsys :: _ =>
    if fsys ≠ Layout.xfs then .error (.foreignFilesystem fsys)
    else
      match View.decode raw with
      | .error error => .error (.layout error)
      | .ok view =>
        match DmfState.ofRaw? view.header.state with
        | some _ => .ok view
        | none => .error (.stateNotProjectable view.header.state)

/-- The verdict on a fetch, with the storage as the fetch leaves it. -/
def judgeFetch {ε : Type} (buffer : AttributeBuffer) (produced : Fill ε) :
    Except Disqualification View × AttributeBuffer :=
  match buffer.fill produced with
  | (.error (.producer _), buffer) => (.error .attributeUnavailable, buffer)
  | (.error (.overflow overflow), buffer) => (.error (.attributeTooLarge overflow.length), buffer)
  | (.ok _, buffer) => (judge buffer.toList, buffer)

namespace FileContext

variable {σ ε : Type}

/-- The verdict on one file, with the storage as the fetch leaves it. -/
def evaluate (backend : Backend σ ε) (filesystem : Filesystem) (buffer : AttributeBuffer)
    (stat : InodeStat) (world : σ) : (Except Disqualification View × AttributeBuffer) × σ :=
  match quickReject stat with
  | some reason => ((.error reason, buffer), world)
  | none =>
    match backend.makeHandle filesystem.fsid stat.ino stat.generation world with
    | (.error _, world) => ((.error .handleUnavailable, buffer), world)
    | (.ok handle, world) =>
      let (produced, world) := backend.readAttribute handle managedAttributeName .root bufferCapacity world
      (judgeFetch buffer produced, world)

/-- A verdict as the host is told it, and as the context keeps it. -/
def conclude (filesystem : Filesystem) (stat : InodeStat) (buffer : AttributeBuffer) :
    Except Disqualification View → Classification × FileContext
  | .ok view => (.candidate stat.size, ⟨filesystem, .candidate stat.size view, buffer⟩)
  | .error reason => (.rejected reason, ⟨filesystem, .rejected reason, buffer⟩)

/-- Classifies a file and replaces whatever the context held for the file before. -/
def classify (backend : Backend σ ε) (context : FileContext) (stat : InodeStat) (world : σ) :
    (Classification × FileContext) × σ :=
  let ((verdict, buffer), world) := evaluate backend context.filesystem context.buffer.clear stat world
  (conclude context.filesystem stat buffer verdict, world)

end FileContext

end Residency

/-!
## Estimates

Sizes by which dump streams are balanced. No estimate leaves the choice to the
host; an estimate of zero is one.
-/

namespace Residency.Filesystem

variable {σ ε : Type}

/-- Bytes needed if everything that may be offline is dumped as holes. Only the
record is looked at, so files on their way offline count as offline. -/
def estimateSpace (stat : InodeStat) : Option Int64 :=
  match quickReject stat with
  | some _ => none
  | none => some 0

/-- Offset in the file before which `byteCount` bytes of dump lie. A candidate is
one hole, so every count leads to its end. The verdict is found in a context of
its own. -/
def estimateOffset (backend : Backend σ ε) (filesystem : Filesystem) (stat : InodeStat)
    (_byteCount : Int64) (world : σ) : Option Int64 × σ :=
  let ((classification, _), world) := filesystem.allocate.classify backend stat world
  (if classification.isCandidate then some stat.size else none, world)

end Residency.Filesystem
