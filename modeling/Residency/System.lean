import Residency.Bytes

/-!
# The system

What can stop a run, error numbers, and what a run asks of paths.
-/

/-!
## Faults

A run stops where arithmetic leaves its width, where an index or a slice leaves its
block, where a copy would change a length, and where text that is not UTF-8 would
be written. What can stop a run answers in `Checked`; a `Machine` is a world in
which a run goes on or has stopped.
-/

namespace Residency

theorem Except.bind_eq_ok_iff {ε α β : Type} {x : Except ε α} {f : α → Except ε β} {b : β} :
    (x >>= f) = .ok b ↔ ∃ a, x = .ok a ∧ f a = .ok b := by
  cases x with
  | ok a =>
    constructor
    · intro bound
      exact ⟨a, rfl, bound⟩
    · rintro ⟨_, ⟨⟩, bound⟩
      exact bound
  | error e =>
    constructor
    · intro bound
      cases bound
    · rintro ⟨_, ⟨⟩, -⟩

theorem Except.mapError_eq_ok_iff {α ε ε' : Type} {x : Except ε α} {f : ε → ε'} {a : α} :
    x.mapError f = .ok a ↔ x = .ok a := by
  cases x with
  | ok b =>
    show (Except.ok b : Except ε' α) = .ok a ↔ _
    rw [Except.ok.injEq, Except.ok.injEq]
  | error e =>
    constructor
    · intro mapped
      cases mapped
    · intro mapped
      cases mapped

/-- Why a run stops. -/
inductive Fault where
  | outOfRange
  | unequalLengths
  | overflow
  | notUtf8
deriving DecidableEq

abbrev Checked (α : Type) := Except Fault α

namespace Checked

variable {α β : Type}

@[simp] theorem ok_bind (a : α) (f : α → Checked β) : (Except.ok a >>= f : Checked β) = f a := rfl

@[simp] theorem error_bind (fault : Fault) (f : α → Checked β) :
    (Except.error fault >>= f : Checked β) = .error fault := rfl

def fault? : Checked α → Option Fault
  | .ok _ => none
  | .error fault => some fault

/-- The absolute value in the same 32 bits. -/
def magnitude (n : Int32) : Checked Int32 := if n = Int32.minValue then .error .overflow else .ok n.abs

end Checked

/-- A world and the fault of the run that has stopped in it, if one has. -/
structure Machine (σ : Type) where
  world : σ
  fault : Option Fault
deriving DecidableEq

namespace Machine

variable {σ α : Type}

def running (world : σ) : Machine σ := ⟨world, none⟩

@[simp] theorem world_running (world : σ) : (running world).world = world := rfl

@[simp] theorem fault_running (world : σ) : (running world).fault = none := rfl

theorem eq_running {machine : Machine σ} (whole : machine.fault = none) : machine = running machine.world := by
  cases machine
  cases whole
  rfl

/-- Asks the world while the run goes on. A run that has stopped asks nothing more,
and `idle` stands for what it would have been answered. -/
def ask (idle : α) (request : σ → Checked α × σ) (machine : Machine σ) : α × Machine σ :=
  match machine.fault with
  | some _ => (idle, machine)
  | none =>
    match request machine.world with
    | (.ok answer, world) => (answer, running world)
    | (.error fault, world) => (idle, ⟨world, some fault⟩)

theorem ask_running (idle : α) (request : σ → Checked α × σ) (world : σ) :
    ask idle request (running world) =
      ((request world).1.toOption.getD idle, ⟨(request world).2, (request world).1.fault?⟩) := by
  unfold ask running
  obtain ⟨answer, world⟩ := request world
  cases answer with
  | ok answer => rfl
  | error fault => rfl

end Machine

/-!
## Error numbers of the operating system

Each number has a name, the wording used for failed control requests and the
wording of the system's library, used for everything else.
-/

structure ErrnoEntry where
  number : Int
  name : String
  /-- Wording for failed control requests. -/
  request : String
  /-- Wording of the system's library. -/
  library : String

/-- All numbers that have a name, ascending. -/
def errnoTable : List ErrnoEntry := [
  ⟨1, "EPERM", "Operation not permitted", "Operation not permitted"⟩,
  ⟨2, "ENOENT", "No such file or directory", "No such file or directory"⟩,
  ⟨3, "ESRCH", "No such process", "No such process"⟩,
  ⟨4, "EINTR", "Interrupted system call", "Interrupted system call"⟩,
  ⟨5, "EIO", "I/O error", "Input/output error"⟩,
  ⟨6, "ENXIO", "No such device or address", "No such device or address"⟩,
  ⟨7, "E2BIG", "Argument list too long", "Argument list too long"⟩,
  ⟨8, "ENOEXEC", "Exec format error", "Exec format error"⟩,
  ⟨9, "EBADF", "Bad file number", "Bad file descriptor"⟩,
  ⟨10, "ECHILD", "No child processes", "No child processes"⟩,
  ⟨11, "EAGAIN", "Try again", "Resource temporarily unavailable"⟩,
  ⟨12, "ENOMEM", "Out of memory", "Cannot allocate memory"⟩,
  ⟨13, "EACCES", "Permission denied", "Permission denied"⟩,
  ⟨14, "EFAULT", "Bad address", "Bad address"⟩,
  ⟨15, "ENOTBLK", "Block device required", "Block device required"⟩,
  ⟨16, "EBUSY", "Device or resource busy", "Device or resource busy"⟩,
  ⟨17, "EEXIST", "File exists", "File exists"⟩,
  ⟨18, "EXDEV", "Cross-device link", "Invalid cross-device link"⟩,
  ⟨19, "ENODEV", "No such device", "No such device"⟩,
  ⟨20, "ENOTDIR", "Not a directory", "Not a directory"⟩,
  ⟨21, "EISDIR", "Is a directory", "Is a directory"⟩,
  ⟨22, "EINVAL", "Invalid argument", "Invalid argument"⟩,
  ⟨23, "ENFILE", "File table overflow", "Too many open files in system"⟩,
  ⟨24, "EMFILE", "Too many open files", "Too many open files"⟩,
  ⟨25, "ENOTTY", "Not a typewriter", "Inappropriate ioctl for device"⟩,
  ⟨26, "ETXTBSY", "Text file busy", "Text file busy"⟩,
  ⟨27, "EFBIG", "File too large", "File too large"⟩,
  ⟨28, "ENOSPC", "No space left on device", "No space left on device"⟩,
  ⟨29, "ESPIPE", "Illegal seek", "Illegal seek"⟩,
  ⟨30, "EROFS", "Read-only file system", "Read-only file system"⟩,
  ⟨31, "EMLINK", "Too many links", "Too many links"⟩,
  ⟨32, "EPIPE", "Broken pipe", "Broken pipe"⟩,
  ⟨33, "EDOM", "Math argument out of domain of func", "Numerical argument out of domain"⟩,
  ⟨34, "ERANGE", "Math result not representable", "Numerical result out of range"⟩,
  ⟨35, "EDEADLK", "Resource deadlock would occur", "Resource deadlock avoided"⟩,
  ⟨36, "ENAMETOOLONG", "File name too long", "File name too long"⟩,
  ⟨37, "ENOLCK", "No record locks available", "No locks available"⟩,
  ⟨38, "ENOSYS", "Function not implemented", "Function not implemented"⟩,
  ⟨39, "ENOTEMPTY", "Directory not empty", "Directory not empty"⟩,
  ⟨40, "ELOOP", "Too many symbolic links encountered", "Too many levels of symbolic links"⟩,
  ⟨42, "ENOMSG", "No message of desired type", "No message of desired type"⟩,
  ⟨43, "EIDRM", "Identifier removed", "Identifier removed"⟩,
  ⟨44, "ECHRNG", "Channel number out of range", "Channel number out of range"⟩,
  ⟨45, "EL2NSYNC", "Level 2 not synchronized", "Level 2 not synchronized"⟩,
  ⟨46, "EL3HLT", "Level 3 halted", "Level 3 halted"⟩,
  ⟨47, "EL3RST", "Level 3 reset", "Level 3 reset"⟩,
  ⟨48, "ELNRNG", "Link number out of range", "Link number out of range"⟩,
  ⟨49, "EUNATCH", "Protocol driver not attached", "Protocol driver not attached"⟩,
  ⟨50, "ENOCSI", "No CSI structure available", "No CSI structure available"⟩,
  ⟨51, "EL2HLT", "Level 2 halted", "Level 2 halted"⟩,
  ⟨52, "EBADE", "Invalid exchange", "Invalid exchange"⟩,
  ⟨53, "EBADR", "Invalid request descriptor", "Invalid request descriptor"⟩,
  ⟨54, "EXFULL", "Exchange full", "Exchange full"⟩,
  ⟨55, "ENOANO", "No anode", "No anode"⟩,
  ⟨56, "EBADRQC", "Invalid request code", "Invalid request code"⟩,
  ⟨57, "EBADSLT", "Invalid slot", "Invalid slot"⟩,
  ⟨59, "EBFONT", "Bad font file format", "Bad font file format"⟩,
  ⟨60, "ENOSTR", "Device not a stream", "Device not a stream"⟩,
  ⟨61, "ENODATA", "No data available", "No data available"⟩,
  ⟨62, "ETIME", "Timer expired", "Timer expired"⟩,
  ⟨63, "ENOSR", "Out of streams resources", "Out of streams resources"⟩,
  ⟨64, "ENONET", "Machine is not on the network", "Machine is not on the network"⟩,
  ⟨65, "ENOPKG", "Package not installed", "Package not installed"⟩,
  ⟨66, "EREMOTE", "Object is remote", "Object is remote"⟩,
  ⟨67, "ENOLINK", "Link has been severed", "Link has been severed"⟩,
  ⟨68, "EADV", "Advertise error", "Advertise error"⟩,
  ⟨69, "ESRMNT", "Srmount error", "Srmount error"⟩,
  ⟨70, "ECOMM", "Communication error on send", "Communication error on send"⟩,
  ⟨71, "EPROTO", "Protocol error", "Protocol error"⟩,
  ⟨72, "EMULTIHOP", "Multihop attempted", "Multihop attempted"⟩,
  ⟨73, "EDOTDOT", "RFS specific error", "RFS specific error"⟩,
  ⟨74, "EBADMSG", "Not a data message", "Bad message"⟩,
  ⟨75, "EOVERFLOW", "Value too large for defined data type", "Value too large for defined data type"⟩,
  ⟨76, "ENOTUNIQ", "Name not unique on network", "Name not unique on network"⟩,
  ⟨77, "EBADFD", "File descriptor in bad state", "File descriptor in bad state"⟩,
  ⟨78, "EREMCHG", "Remote address changed", "Remote address changed"⟩,
  ⟨79, "ELIBACC", "Can not access a needed shared library", "Can not access a needed shared library"⟩,
  ⟨80, "ELIBBAD", "Accessing a corrupted shared library", "Accessing a corrupted shared library"⟩,
  ⟨81, "ELIBSCN", ".lib section in a.out corrupted", ".lib section in a.out corrupted"⟩,
  ⟨82, "ELIBMAX", "Attempting to link in too many shared libraries", "Attempting to link in too many shared libraries"⟩,
  ⟨83, "ELIBEXEC", "Cannot exec a shared library directly", "Cannot exec a shared library directly"⟩,
  ⟨84, "EILSEQ", "Illegal byte sequence", "Invalid or incomplete multibyte or wide character"⟩,
  ⟨85, "ERESTART", "Interrupted system call should be restarted", "Interrupted system call should be restarted"⟩,
  ⟨86, "ESTRPIPE", "Streams pipe error", "Streams pipe error"⟩,
  ⟨87, "EUSERS", "Too many users", "Too many users"⟩,
  ⟨88, "ENOTSOCK", "Socket operation on non-socket", "Socket operation on non-socket"⟩,
  ⟨89, "EDESTADDRREQ", "Destination address required", "Destination address required"⟩,
  ⟨90, "EMSGSIZE", "Message too long", "Message too long"⟩,
  ⟨91, "EPROTOTYPE", "Protocol wrong type for socket", "Protocol wrong type for socket"⟩,
  ⟨92, "ENOPROTOOPT", "Protocol not available", "Protocol not available"⟩,
  ⟨93, "EPROTONOSUPPORT", "Protocol not supported", "Protocol not supported"⟩,
  ⟨94, "ESOCKTNOSUPPORT", "Socket type not supported", "Socket type not supported"⟩,
  ⟨95, "EOPNOTSUPP", "Operation not supported on transport endpoint", "Operation not supported"⟩,
  ⟨96, "EPFNOSUPPORT", "Protocol family not supported", "Protocol family not supported"⟩,
  ⟨97, "EAFNOSUPPORT", "Address family not supported by protocol", "Address family not supported by protocol"⟩,
  ⟨98, "EADDRINUSE", "Address already in use", "Address already in use"⟩,
  ⟨99, "EADDRNOTAVAIL", "Cannot assign requested address", "Cannot assign requested address"⟩,
  ⟨100, "ENETDOWN", "Network is down", "Network is down"⟩,
  ⟨101, "ENETUNREACH", "Network is unreachable", "Network is unreachable"⟩,
  ⟨102, "ENETRESET", "Network dropped connection because of reset", "Network dropped connection on reset"⟩,
  ⟨103, "ECONNABORTED", "Software caused connection abort", "Software caused connection abort"⟩,
  ⟨104, "ECONNRESET", "Connection reset by peer", "Connection reset by peer"⟩,
  ⟨105, "ENOBUFS", "No buffer space available", "No buffer space available"⟩,
  ⟨106, "EISCONN", "Transport endpoint is already connected", "Transport endpoint is already connected"⟩,
  ⟨107, "ENOTCONN", "Transport endpoint is not connected", "Transport endpoint is not connected"⟩,
  ⟨108, "ESHUTDOWN", "Cannot send after transport endpoint shutdown", "Cannot send after transport endpoint shutdown"⟩,
  ⟨109, "ETOOMANYREFS", "Too many references: cannot splice", "Too many references: cannot splice"⟩,
  ⟨110, "ETIMEDOUT", "Connection timed out", "Connection timed out"⟩,
  ⟨111, "ECONNREFUSED", "Connection refused", "Connection refused"⟩,
  ⟨112, "EHOSTDOWN", "Host is down", "Host is down"⟩,
  ⟨113, "EHOSTUNREACH", "No route to host", "No route to host"⟩,
  ⟨114, "EALREADY", "Operation already in progress", "Operation already in progress"⟩,
  ⟨115, "EINPROGRESS", "Operation now in progress", "Operation now in progress"⟩,
  ⟨116, "ESTALE", "Stale file handle", "Stale file handle"⟩,
  ⟨117, "EUCLEAN", "Structure needs cleaning", "Structure needs cleaning"⟩,
  ⟨118, "ENOTNAM", "Not a XENIX named type file", "Not a XENIX named type file"⟩,
  ⟨119, "ENAVAIL", "No XENIX semaphores available", "No XENIX semaphores available"⟩,
  ⟨120, "EISNAM", "Is a named type file", "Is a named type file"⟩,
  ⟨121, "EREMOTEIO", "Remote I/O error", "Remote I/O error"⟩,
  ⟨122, "EDQUOT", "Quota exceeded", "Disk quota exceeded"⟩,
  ⟨123, "ENOMEDIUM", "No medium found", "No medium found"⟩,
  ⟨124, "EMEDIUMTYPE", "Wrong medium type", "Wrong medium type"⟩,
  ⟨125, "ECANCELED", "Operation canceled", "Operation canceled"⟩,
  ⟨126, "ENOKEY", "Required key not available", "Required key not available"⟩,
  ⟨127, "EKEYEXPIRED", "Key has expired", "Key has expired"⟩,
  ⟨128, "EKEYREVOKED", "Key has been revoked", "Key has been revoked"⟩,
  ⟨129, "EKEYREJECTED", "Key was rejected by service", "Key was rejected by service"⟩,
  ⟨130, "EOWNERDEAD", "Owner died", "Owner died"⟩,
  ⟨131, "ENOTRECOVERABLE", "State not recoverable", "State not recoverable"⟩,
  ⟨132, "ERFKILL", "Operation not possible due to RF-kill", "Operation not possible due to RF-kill"⟩,
  ⟨133, "EHWPOISON", "Memory page has hardware error", "Memory page has hardware error"⟩]

abbrev Errno := Int

namespace Errno

def entry? (number : Errno) : Option ErrnoEntry := errnoTable.find? fun entry => entry.number = number

/-- The text for a failed control request: name and wording. -/
def requestText (number : Errno) : String :=
  match entry? number with
  | some entry => s!"{entry.name}: {entry.request}"
  | none => "UnknownErrno: Unknown errno"

/-- The text for any other failure: the library's wording and the number. -/
def libraryText (number : Errno) : String :=
  match entry? number with
  | some entry => s!"{entry.library} (os error {number})"
  | none => s!"Unknown error {number} (os error {number})"

end Errno

/-!
## Files

What a run asks of paths. The answers are those of one moment: between any two
questions of a check the kernel is asked for something, and the files may be others
after that. A `FileTree` answers from a tree that stays as it is; paths are walked
name by name, so a step below something that is no directory fails as such.
-/

/-- Why a path gives nothing. -/
inductive FileError where
  | system (errno : Errno)
  | nulInName
deriving DecidableEq

def FileError.message : FileError → String
  | .system errno => errno.libraryText
  | .nulInName => "file name contained an unexpected NUL byte"

structure Files (σ : Type) where
  /-- The inode behind a path, which may be a link. -/
  inode : RawText → σ → Except FileError UInt64
  /-- Opens a path for reading. -/
  openPath : RawText → σ → Except FileError Unit
  contents : RawText → σ → Except FileError (List UInt8)
  /-- A plain file stands at the path. -/
  isFile : RawText → σ → Bool

/-- The same files seen from worlds that hold more. -/
def Files.within {σ τ : Type} (files : Files σ) (inner : τ → σ) : Files τ where
  inode path world := files.inode path (inner world)
  openPath path world := files.openPath path (inner world)
  contents path world := files.contents path (inner world)
  isFile path world := files.isFile path (inner world)

inductive Node where
  | directory
  | file (bytes : List UInt8)
  | device
deriving DecidableEq

/-- Names from the root down. -/
abbrev Place := List RawText

structure FileTree where
  working : Place
  nodes : List (Place × Node)

namespace FileTree

/-- The byte between the names of a path. -/
def slash : UInt8 := 47

/-- The byte in front of an extension. -/
def dot : UInt8 := 46

def here : RawText := "."

def parent : RawText := ".."

def systemNodes : List (Place × Node) :=
  ([], .directory) :: (["dev", "null"], .device) ::
    (["bin", "dev", "etc", "home", "mnt", "opt", "proc", "root", "sys", "tmp", "usr", "var"].map
      fun name : String => ([RawText.ofString name], .directory))

/-- All places above a place, the root first. -/
def above (place : Place) : List Place := (List.range place.length).map place.take

/-- A path from the root. -/
def isAbsolute (path : RawText) : Bool := path.head? = some slash

/-- The path that leads to the same place from the root. -/
def absolute (tree : FileTree) (path : RawText) : RawText :=
  if isAbsolute path then path else slash :: [slash].intercalate (tree.working ++ [path])

/-- The place that a path spells from a working directory on. -/
def placeOf (working : Place) (path : RawText) : Place :=
  (path.splitOn slash).foldl
    (fun place name =>
      if name = [] ∨ name = here then place else if name = parent then place.dropLast else place ++ [name])
    (if isAbsolute path then [] else working)

/-- A working directory and what stands at some paths; of a path that is given
twice the last counts. -/
def ofNodes (named : List (RawText × Node)) : FileTree :=
  let working : Place := ["tmp", "work"]
  let nodes := named.reverse.map fun (path, node) => (placeOf working path, node)
  let directories := nodes.flatMap fun (place, _) => (above place).map fun place => (place, Node.directory)
  ⟨working, systemNodes ++ (working, .directory) :: directories ++ nodes⟩

/-- A working directory with files of the given names and contents. -/
def ofList (named : List (RawText × List UInt8)) : FileTree :=
  ofNodes (named.map fun (name, bytes) => (name, .file bytes))

def node? (tree : FileTree) (place : Place) : Option Node := tree.nodes.lookup place

/-- The inode number of a place. -/
def ino (tree : FileTree) (place : Place) : UInt64 :=
  UInt64.ofNat (tree.nodes.findIdx (fun entry => entry.1 == place) + 64)

/-- Longest name, in bytes. -/
def nameLimit : Nat := 255

/-- Longest path, in bytes. -/
def pathLimit : Nat := 4095

def notFound : FileError := .system 2

def notDirectory : FileError := .system 20

def isDirectory : FileError := .system 21

def nameTooLong : FileError := .system 36

/-- Follows names from a place that exists. -/
def walk (tree : FileTree) : Place → List RawText → Except FileError (Place × Node)
  | place, [] =>
    match tree.node? place with
    | some node => .ok (place, node)
    | none => .error notFound
  | place, name :: rest =>
    match tree.node? place with
    | none => .error notFound
    | some .directory =>
      if name = [] ∨ name = here then tree.walk place rest
      else if name = parent then tree.walk place.dropLast rest
      else if nameLimit < name.length then .error nameTooLong
      else tree.walk (place ++ [name]) rest
    | some _ => .error notDirectory

/-- What a path names, absolute or below the working directory. -/
def resolve (tree : FileTree) (path : RawText) : Except FileError (Place × Node) :=
  if path.nulPosition?.isSome then .error .nulInName
  else if path = [] then .error notFound
  else if pathLimit < path.length then .error nameTooLong
  else tree.walk (if isAbsolute path then [] else tree.working) (path.splitOn slash)

/-- The contents of a file; a device has none. -/
def read (tree : FileTree) (path : RawText) : Except FileError (List UInt8) :=
  match tree.resolve path with
  | .error error => .error error
  | .ok (_, .directory) => .error isDirectory
  | .ok (_, .file bytes) => .ok bytes
  | .ok (_, .device) => .ok []

/-- The contents of a path that names a plain file. -/
def plainFile? (tree : FileTree) (path : RawText) : Option (List UInt8) :=
  match tree.resolve path with
  | .ok (_, .file bytes) => some bytes
  | _ => none

/-- The files of a tree, which no request changes. -/
def files {σ : Type} (tree : FileTree) : Files σ where
  inode path _ := (tree.resolve path).map fun (place, _) => tree.ino place
  openPath path _ := (tree.resolve path).map fun _ => ()
  contents path _ := tree.read path
  isFile path _ := (tree.plainFile? path).isSome

end FileTree

end Residency
