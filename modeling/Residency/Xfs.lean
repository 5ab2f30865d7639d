import Residency.Attribute
import Residency.Bytes
import Residency.Context
import Residency.System

/-!
# XFS

The requests that reach the kernel, the services made of them, and a scripted kernel.
-/

/-!
## Control requests of XFS

Three requests reach the kernel: the handle of a mounted filesystem, attributes
of the inode behind a handle, and the bulk-stat record of one inode. A request
fails with an error number, or the kernel fills in the reply.
-/

namespace Residency.Xfs

/-- One attribute operation on the inode behind a handle. -/
structure AttributeRequest where
  handle : List UInt8
  count : UInt32
  opcode : UInt32
  name : String
  /-- Room for the value. -/
  length : UInt32
  flags : UInt32
deriving DecidableEq

inductive Request where
  | filesystemHandle (path : RawText)
  | attributes (request : AttributeRequest)
  | bulkStat (ino : UInt64) (count : Int32)
deriving DecidableEq

/-- A filesystem handle as the kernel writes it, and the length that it reports. -/
structure HandleReply where
  bytes : List UInt8
  length : UInt32

/-- An attribute operation's own error code, what it wrote and the length it reports. -/
structure AttributeReply where
  writes : List Write
  status : Int32
  length : UInt32

/-- The fields read from a bulk-stat record; the mode has sixteen bits. -/
structure BulkRecord where
  ino : UInt64
  generation : UInt32
  mode : UInt16
  xflags : UInt32
  dmevmask : UInt32
  size : Int64
deriving DecidableEq

def BulkRecord.toStat (record : BulkRecord) : InodeStat where
  ino := record.ino
  generation := record.generation
  mode := record.mode.toUInt32
  xflags := record.xflags
  dmevmask := record.dmevmask
  size := record.size

structure Kernel (σ : Type) where
  filesystemHandle : RawText → σ → Except Errno HandleReply × σ
  attributes : AttributeRequest → σ → Except Errno AttributeReply × σ
  bulkStat : UInt64 → Int32 → σ → Except Errno BulkRecord × σ

/-- The same kernel, which also notes each request, the latest last. -/
def Kernel.recorded {σ : Type} (kernel : Kernel σ) : Kernel (σ × List Request) where
  filesystemHandle path world :=
    let (answer, state) := kernel.filesystemHandle path world.1
    (answer, state, world.2 ++ [.filesystemHandle path])
  attributes request world :=
    let (answer, state) := kernel.attributes request world.1
    (answer, state, world.2 ++ [.attributes request])
  bulkStat ino count world :=
    let (answer, state) := kernel.bulkStat ino count world.1
    (answer, state, world.2 ++ [.bulkStat ino count])

end Residency.Xfs

namespace Residency

/-- The system that a run is made on. -/
structure Host (σ : Type) where
  kernel : Xfs.Kernel σ
  files : Files σ

/-- The same system, whose kernel also notes each request. -/
def Host.recorded {σ : Type} (host : Host σ) : Host (σ × List Xfs.Request) :=
  ⟨host.kernel.recorded, host.files.within Prod.fst⟩

end Residency

/-!
## Filesystem services over XFS

A handle is the filesystem id, the length of what follows, the generation and
the inode number, all little-endian. Texts with a NUL are refused before the
kernel is asked. The kernel gives the error of a failed read with a sign, which is
taken off; one number has no absolute value in its 32 bits and stops the run.
-/

namespace Residency.Xfs

inductive Failure where
  | openMount (path : RawText) (cause : FileError)
  | nulInText (position : Nat)
  | mountHandle (path : RawText) (errno : Errno)
  | shortHandle (length : UInt32)
  | attributeRequest (errno : Errno)
  /-- The request went through and the operation in it failed. -/
  | attributeOperation (errno : Errno)
  | bulkStat (ino : UInt64) (errno : Errno)
deriving DecidableEq

namespace Failure

/-- The texts of a failure, outermost first. -/
def chain : Failure → List String
  | openMount path cause => [s!"Failed to open mount point {path.shown}", cause.message]
  | nulInText position => [s!"nul byte found in provided data at position: {position}"]
  | mountHandle path errno => [s!"XFS_IOC_PATH_TO_FSHANDLE failed for {path.shown}", errno.requestText]
  | shortHandle length => [s!"filesystem handle of {length.toNat} bytes is too short"]
  | attributeRequest errno => ["XFS_IOC_ATTRMULTI_BY_HANDLE failed", errno.requestText]
  | attributeOperation errno => ["attribute get failed", errno.libraryText]
  | bulkStat ino errno => [s!"XFS_IOC_FSBULKSTAT_SINGLE failed for inode {ino.toNat}", errno.requestText]

/-- The outermost text. -/
def message (failure : Failure) : String := failure.chain.headD ""

end Failure

/-- Largest handle that the kernel writes. -/
def handleCapacity : Nat := 64

/-- Bytes of a filesystem id in a handle. -/
def fsidLength : Nat := 8

/-- What a handle gives as the length of its second half, itself not counted. -/
def fidLength : UInt64 := 14

/-- Opcode of reading an attribute. -/
def getOpcode : UInt32 := 1

def namespaceFlags : Namespace → UInt32
  | .user => 0
  | .root => 0x2
  | .secure => 0x8

/-- Runs `ask` on a text that holds no NUL. -/
def withoutNul {σ α : Type} (text : RawText) (failed : Failure → α) (ask : σ → α × σ) (world : σ) : α × σ :=
  match text.nulPosition? with
  | some position => (failed (.nulInText position), world)
  | none => ask world

def handleOf (fsid : FsId) (ino : UInt64) (generation : UInt32) : Handle :=
  fsid.toList ++ LittleEndian.encode 2 fidLength ++ LittleEndian.encode 2 0
    ++ LittleEndian.encode 4 generation.toUInt64 ++ LittleEndian.encode 8 ino

/-- What the kernel's answer to a request for a handle means for a mount. The id is
the start of the filesystem's handle, read from storage that held zeros before. -/
def fsidOf (path : RawText) : Except Errno HandleReply → Except Failure FsId
  | .error errno => .error (.mountHandle path errno)
  | .ok reply =>
    if reply.length.toNat < fsidLength then .error (.shortHandle reply.length)
    else .ok (.ofPadded 8 (reply.bytes.take handleCapacity))

/-- What the kernel's answer to a read brings. -/
def fillOf : Except Errno AttributeReply → Checked (Fill Failure)
  | .error errno => .ok ⟨[], .error (.attributeRequest errno)⟩
  | .ok reply =>
    if reply.status = 0 then .ok ⟨reply.writes, .ok reply.length.toNat⟩
    else do
      let number ← Checked.magnitude reply.status
      .ok ⟨reply.writes, .error (.attributeOperation number.toInt)⟩

section
variable {σ : Type} (kernel : Kernel σ)

def resolveMount (path : RawText) : σ → Except Failure FsId × σ :=
  withoutNul path .error fun world =>
    let (answer, world) := kernel.filesystemHandle path world
    (fsidOf path answer, world)

def attributeRequest (handle : Handle) (name : String) (space : Namespace) (capacity : Nat) : AttributeRequest where
  handle := handle
  count := 1
  opcode := getOpcode
  name := name
  length := UInt32.ofNat capacity
  flags := namespaceFlags space

def readAttribute (handle : Handle) (name : String) (space : Namespace) (capacity : Nat) :
    σ → Checked (Fill Failure) × σ :=
  withoutNul name (fun failure => .ok ⟨[], .error failure⟩) fun world =>
    let (answer, world) := kernel.attributes (attributeRequest handle name space capacity) world
    (fillOf answer, world)

/-- The bulk-stat record of one inode. -/
def bulkStat (ino : UInt64) (world : σ) : Except Failure InodeStat × σ :=
  match kernel.bulkStat ino 1 world with
  | (.error errno, world) => (.error (.bulkStat ino errno), world)
  | (.ok record, world) => (.ok record.toStat, world)

/-- A read that nobody waits for. -/
def idleFill : Fill Failure := ⟨[], .ok 0⟩

def backend : Backend (Machine σ) Failure where
  resolveMount path := Machine.ask (.ok (.ofPadded 8 [])) fun world =>
    let (answer, world) := resolveMount kernel path world
    (.ok answer, world)
  makeHandle fsid ino generation machine := (.ok (handleOf fsid ino generation), machine)
  readAttribute handle name space capacity := Machine.ask idleFill (readAttribute kernel handle name space capacity)

end

/-- Opens the filesystem mounted at a path; nothing else is asked of the mount point. -/
def openMount {σ : Type} (files : Files σ) (path : RawText) (world : σ) : Except Failure Unit :=
  (files.openPath path world).mapError (.openMount path)

/-!
## A scripted kernel

Replies to the control requests that are written down in advance. Attributes
are looked up by the inode number in the handle; bulk-stat records are handed
out in their order, whatever inode is asked for.
-/

/-- What the script says of one inode's attribute. -/
inductive AttributeScript where
  | failed (errno : Errno)
  | status (code : Int32)
  | value (bytes : List UInt8) (reported : Option UInt32)

structure Script where
  filesystemHandle : Except Errno HandleReply
  attributes : List (UInt64 × AttributeScript)
  bulkStats : List (Except Errno BulkRecord)

namespace Script

/-- The reply where nothing answers the request. -/
def noSuchRequest : Errno := 25

/-- The reply to a request that makes no sense. -/
def invalid : Errno := 22

/-- Error code of an attribute that does not exist. -/
def noData : Int32 := -61

/-- A handle that the kernel can read has this many bytes. -/
def handleLength : Nat := 24

/-- A script that describes nothing. -/
def empty : Script := ⟨.error noSuchRequest, [], []⟩

/-- The inode number in a handle. -/
def handleIno (handle : List UInt8) : UInt64 := LittleEndian.load ((handle.drop 16).take 8)

/-- The script with one inode's attribute described anew, or no longer. -/
def describe (ino : UInt64) (entry : Option AttributeScript) (script : Script) : Script :=
  let others := script.attributes.filter fun entry => entry.1 != ino
  { script with attributes := (entry.map fun entry => (ino, entry)).toList ++ others }

/-- How the script answers an attribute operation. -/
def answer (entry : Option AttributeScript) (length : UInt32) : Except Errno AttributeReply :=
  match entry with
  | none => .ok ⟨[], noData, length⟩
  | some (.failed errno) => .error errno
  | some (.status code) => .ok ⟨[], code, length⟩
  | some (.value bytes reported) =>
    .ok ⟨[⟨0, bytes.take length.toNat⟩], 0, reported.getD (UInt32.ofNat bytes.length)⟩

def kernel : Kernel Script where
  filesystemHandle _ script := (script.filesystemHandle, script)
  attributes request script :=
    if request.handle.length < handleLength then (.error invalid, script)
    else (answer (script.attributes.lookup (handleIno request.handle)) request.length, script)
  bulkStat _ _ script :=
    match script.bulkStats with
    | [] => (.error invalid, script)
    | record :: rest => (record, { script with bulkStats := rest })

end Script

end Residency.Xfs
