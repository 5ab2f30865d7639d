import Residency.Context
import Residency.Proofs.Classify
import Residency.Xfs

/-!
# The kernel behind a classification

Every request leaves the kernel in another world (`Kernel.after`). A
classification of a file that may be managed makes one request, the read of its
attribute, and all it learns is what that read brings (`Kernel.attributeOf`); where
that is a fault the run stops, and what has stopped asks nothing more.
-/

namespace Residency

/-- A machine beside some notes. -/
def Machine.noted {σ ρ : Type} (machine : Machine σ) (log : List ρ) : Machine (σ × List ρ) :=
  ⟨(machine.world, log), machine.fault⟩

namespace Xfs

variable {σ : Type} (kernel : Kernel σ)

/-! ## Worlds -/

/-- The world as a request leaves it. -/
def Kernel.after (world : σ) : Request → σ
  | .filesystemHandle path => (kernel.filesystemHandle path world).2
  | .attributes request => (kernel.attributes request world).2
  | .bulkStat ino count => (kernel.bulkStat ino count world).2

/-- What a read of the managed attribute behind a handle brings. -/
def Kernel.attributeOf (handle : Handle) (world : σ) : Checked (Fill Failure) :=
  (readAttribute kernel handle managedAttributeName .root bufferCapacity world).1

/-- The same for a read that ends; one that does not brings nothing. -/
def Kernel.readOf (handle : Handle) (world : σ) : Fill Failure := (kernel.attributeOf handle world).toOption.getD idleFill

/-- No request of the list changes what reads of the managed attribute bring. -/
def Kernel.SteadyOver (world : σ) : List Request → Prop
  | [] => True
  | request :: rest =>
    (∀ handle, kernel.attributeOf handle (kernel.after world request) = kernel.attributeOf handle world) ∧
      SteadyOver (kernel.after world request) rest

/-- What reads of the managed attribute bring is a function of the handle, now and
after any requests. -/
def Kernel.Steady (world : σ) : Prop := ∀ requests, kernel.SteadyOver world requests

/-- Reads of the managed attribute fail, report more than fits, or write every byte
they report. -/
def Kernel.Honest (world : σ) : Prop :=
  ∀ handle produced, kernel.attributeOf handle world = .ok produced → produced.Honest

theorem idleFill_honest : idleFill.Honest := by
  intro reported outcome fits i inside
  cases outcome
  exact absurd inside (Nat.not_lt_zero i)

namespace Kernel

variable {kernel} {world : σ} {before : List Request}

theorem SteadyOver.back {rest : List Request} (steady : kernel.SteadyOver world (before ++ rest)) :
    kernel.SteadyOver (before.foldl kernel.after world) rest := by
  induction before generalizing world with
  | nil => exact steady
  | cons request before ih => exact ih steady.2

theorem SteadyOver.front {rest : List Request} (steady : kernel.SteadyOver world (before ++ rest)) :
    kernel.SteadyOver world before := by
  induction before generalizing world with
  | nil => trivial
  | cons request before ih => exact ⟨steady.1, ih steady.2⟩

theorem SteadyOver.attributeOf_eq {rest : List Request} (steady : kernel.SteadyOver world (before ++ rest))
    (handle : Handle) :
    kernel.attributeOf handle (before.foldl kernel.after world) = kernel.attributeOf handle world := by
  induction before generalizing world with
  | nil => rfl
  | cons request before ih => exact (ih steady.2).trans (steady.1 handle)

theorem Honest.congr {world' : σ} (honest : kernel.Honest world)
    (same : ∀ handle, kernel.attributeOf handle world' = kernel.attributeOf handle world) : kernel.Honest world' := by
  intro handle
  rw [same]
  exact honest handle

theorem Honest.readOf (honest : kernel.Honest world) (handle : Handle) : (kernel.readOf handle world).Honest := by
  unfold Kernel.readOf
  cases brought : kernel.attributeOf handle world with
  | ok produced => exact honest handle produced brought
  | error fault => exact idleFill_honest

/-- The same kernel with one answer to every request for a record. -/
def describing (kernel : Kernel σ) (record : BulkRecord) : Kernel σ :=
  { kernel with bulkStat := fun _ _ world => (.ok record, world) }

theorem Steady.describing (steady : kernel.Steady world) (record : BulkRecord) :
    (kernel.describing record).Steady world := by
  intro requests
  induction requests generalizing world with
  | nil => trivial
  | cons request rest ih =>
    have later : kernel.Steady (kernel.after world request) := fun requests => (steady (request :: requests)).2
    have same := (steady [request]).1
    cases request with
    | filesystemHandle path => exact ⟨same, ih later⟩
    | attributes request => exact ⟨same, ih later⟩
    -- the world stays as it is
    | bulkStat ino count => exact ⟨fun _ => rfl, ih steady⟩

end Kernel

theorem foldl_recorded (requests : List Request) (world : σ) (log : List Request) :
    requests.foldl kernel.recorded.after (world, log) = (requests.foldl kernel.after world, log ++ requests) := by
  induction requests generalizing world log with
  | nil => rw [List.append_nil]; rfl
  | cons request rest ih =>
    have noted : kernel.recorded.after (world, log) request = (kernel.after world request, log ++ [request]) := by
      cases request with
      | filesystemHandle path | attributes request | bulkStat ino count => rfl
    rw [List.foldl_cons, noted, ih, List.append_assoc]
    rfl

/-! ## Answers -/

theorem resolveMount_eq {path : RawText} (nul : path.nulPosition? = none) (world : σ) :
    resolveMount kernel path world =
      (fsidOf path (kernel.filesystemHandle path world).1, kernel.after world (.filesystemHandle path)) := by
  simp only [resolveMount, withoutNul, nul, Kernel.after]

theorem readAttribute_eq (handle : Handle) {name : String} (nul : (RawText.ofString name).nulPosition? = none)
    (space : Namespace) (capacity : Nat) (world : σ) :
    let request := attributeRequest handle name space capacity
    readAttribute kernel handle name space capacity world =
      (fillOf (kernel.attributes request world).1, kernel.after world (.attributes request)) := by
  simp only [readAttribute, withoutNul, nul, Kernel.after]

theorem resolveMount_eq_ok {kernel : Kernel σ} {path : RawText} {world start : σ} {fsid : FsId}
    (resolved : resolveMount kernel path world = (.ok fsid, start)) :
    path.nulPosition? = none ∧ start = kernel.after world (.filesystemHandle path) := by
  cases nul : path.nulPosition? with
  | some position =>
    unfold resolveMount withoutNul at resolved
    rw [nul] at resolved
    cases resolved
  | none =>
    rw [resolveMount_eq kernel nul] at resolved
    exact ⟨rfl, (congrArg Prod.snd resolved).symm⟩

theorem backend_resolveMount (path : RawText) (world : σ) :
    (backend kernel).resolveMount path (.running world) =
      ((resolveMount kernel path world).1, .running (resolveMount kernel path world).2) := by
  have asked := Machine.ask_running (.ok (.ofPadded 8 [])) (fun world =>
    (Except.ok (resolveMount kernel path world).1, (resolveMount kernel path world).2)) world
  exact asked

theorem init_eq (mount : RawText) (apiVersion : UInt32) (start : σ) :
    Filesystem.init (backend kernel) mount apiVersion (.running start) =
      if apiVersion = supportedApiVersion then
        ((resolveMount kernel mount start).1.mapError (.unresolved mount) |>.map (Filesystem.mk apiVersion),
          .running (resolveMount kernel mount start).2)
      else (.error (.unsupportedApiVersion apiVersion supportedApiVersion), .running start) := by
  unfold Filesystem.init
  by_cases version : apiVersion = supportedApiVersion
  · rw [if_pos version, if_pos version, backend_resolveMount]
    obtain ⟨answer, after⟩ := resolveMount kernel mount start
    cases answer with
    | ok fsid => rfl
    | error source => rfl
  · rw [if_neg version, if_neg version]

theorem nulPosition?_managedAttributeName : (RawText.ofString managedAttributeName).nulPosition? = none := by
  decide +kernel

/-- The reply has a status whose absolute value does not fit. -/
def Overflows (answer : Except Errno AttributeReply) : Prop :=
  ∃ reply, answer = .ok reply ∧ reply.status = Int32.minValue

theorem fillOf_eq_ok {answer : Except Errno AttributeReply} (fits : ¬ Overflows answer) :
    ∃ produced, fillOf answer = .ok produced := by
  cases answer with
  | error errno => exact ⟨_, rfl⟩
  | ok reply =>
    by_cases succeeded : reply.status = 0
    · exact ⟨_, if_pos succeeded⟩
    · have higher : reply.status ≠ Int32.minValue := fun lowest => fits ⟨reply, rfl, lowest⟩
      simp only [fillOf, Checked.magnitude, if_neg succeeded, if_neg higher, Checked.ok_bind]
      exact ⟨_, rfl⟩

theorem fillOf_overflow {answer : Except Errno AttributeReply} (overflows : Overflows answer) :
    fillOf answer = .error .overflow := by
  obtain ⟨reply, rfl, lowest⟩ := overflows
  have failed : reply.status ≠ 0 := by
    rw [lowest]
    decide
  simp only [fillOf, Checked.magnitude, if_neg failed, if_pos lowest, Checked.error_bind]

/-! ## Requests of a classification -/

/-- The one request of a classification. -/
def readRequest (fsid : FsId) (stat : InodeStat) : AttributeRequest :=
  attributeRequest (handleOf fsid stat.ino stat.generation) managedAttributeName .root bufferCapacity

def classifyRequests (fsid : FsId) (stat : InodeStat) : List Request :=
  if stat.MayBeManaged then [.attributes (readRequest fsid stat)] else []

/-- The requests of a classification from a machine on. -/
def requestsFrom (machine : Machine σ) (fsid : FsId) (stat : InodeStat) : List Request :=
  if machine.fault.isSome then [] else classifyRequests fsid stat

/-- The fault that a classification ends with. -/
def Kernel.classifyFault? (fsid : FsId) (stat : InodeStat) (world : σ) : Option Fault :=
  if stat.MayBeManaged then (kernel.attributeOf (handleOf fsid stat.ino stat.generation) world).fault? else none

theorem attributeOf_handleOf (fsid : FsId) (stat : InodeStat) (world : σ) :
    kernel.attributeOf (handleOf fsid stat.ino stat.generation) world =
      fillOf (kernel.attributes (readRequest fsid stat) world).1 :=
  congrArg Prod.fst (readAttribute_eq kernel _ nulPosition?_managedAttributeName .root bufferCapacity world)

theorem fetch_backend (fsid : FsId) (stat : InodeStat) (world : σ) :
    (backend kernel).fetch fsid stat (.running world) =
      some (kernel.readOf (handleOf fsid stat.ino stat.generation) world) := by
  have asked := Machine.ask_running idleFill
    (readAttribute kernel (handleOf fsid stat.ino stat.generation) managedAttributeName .root bufferCapacity) world
  exact congrArg (fun read => some (Prod.fst read)) asked

section
variable (context : FileContext) {stat : InodeStat}

theorem classify_managed (managed : stat.MayBeManaged) (world : σ) :
    let request := readRequest context.filesystem.fsid stat
    let produced := fillOf (kernel.attributes request world).1
    let judged := judgeFetch context.buffer.clear (produced.toOption.getD idleFill)
    context.classify (backend kernel) stat (.running world) =
      (FileContext.conclude context.filesystem stat judged.2 judged.1,
        ⟨kernel.after world (.attributes request), produced.fault?⟩) := by
  intro request produced judged
  have read : (backend kernel).readAttribute request.handle managedAttributeName .root bufferCapacity
      (.running world) = (produced.toOption.getD idleFill, ⟨kernel.after world (.attributes request), produced.fault?⟩) := by
    have asked := Machine.ask_running idleFill
      (readAttribute kernel request.handle managedAttributeName .root bufferCapacity) world
    rw [readAttribute_eq kernel request.handle nulPosition?_managedAttributeName] at asked
    exact asked
  rw [FileContext.classify_eq]
  unfold FileContext.evaluate
  rw [(quickReject_eq_none_iff stat).mpr managed]
  exact congrArg (fun read : Fill Failure × Machine σ =>
    (FileContext.conclude context.filesystem stat (judgeFetch context.buffer.clear read.1).2
      (judgeFetch context.buffer.clear read.1).1, read.2)) read

theorem classify_machine (world : σ) :
    (context.classify (backend kernel) stat (.running world)).2 =
      ⟨(classifyRequests context.filesystem.fsid stat).foldl kernel.after world,
        kernel.classifyFault? context.filesystem.fsid stat world⟩ := by
  unfold classifyRequests Kernel.classifyFault?
  by_cases managed : stat.MayBeManaged
  · rw [classify_managed kernel context managed, if_pos managed, if_pos managed, attributeOf_handleOf]
    rfl
  · obtain ⟨reason, quick⟩ := exists_quickReject managed
    rw [if_neg managed, if_neg managed, FileContext.classify_rejected _ _ quick]
    rfl

/-- What has stopped stays as it is, and makes no request. -/
theorem classify_noted (stat : InodeStat) (machine : Machine σ) (log : List Request) :
    let classified := context.classify (backend kernel) stat machine
    context.classify (backend kernel.recorded) stat (machine.noted log) =
      (classified.1, classified.2.noted (log ++ requestsFrom machine context.filesystem.fsid stat)) := by
  intro classified
  unfold requestsFrom
  obtain ⟨world, _ | fault⟩ := machine
  · rw [if_neg (by simp)]
    unfold classifyRequests
    by_cases managed : stat.MayBeManaged
    · have plain := classify_managed kernel context managed world
      have noted := classify_managed kernel.recorded context managed (world, log)
      simp only [Machine.running] at plain noted
      simp only [classified, plain, if_pos managed]
      exact noted
    · obtain ⟨reason, quick⟩ := exists_quickReject managed
      simp only [classified, FileContext.classify_rejected _ _ quick, if_neg managed, List.append_nil]
  · simp only [classified, FileContext.classify_eq, Option.isSome_some, ite_true, List.append_nil]
    unfold FileContext.evaluate
    cases quickReject stat with
    | some reason => rfl
    | none => rfl

theorem classify_stopped (world : σ) (fault : Fault) :
    (context.classify (backend kernel) stat ⟨world, some fault⟩).2 = ⟨world, some fault⟩ := by
  rw [FileContext.classify_eq]
  unfold FileContext.evaluate
  cases quickReject stat with
  | some reason => rfl
  | none => rfl

theorem estimateOffset_machine (filesystem : Filesystem) (stat : InodeStat) (byteCount : Int64) (world : σ) :
    (filesystem.estimateOffset (backend kernel) stat byteCount (.running world)).2 =
      ⟨(classifyRequests filesystem.fsid stat).foldl kernel.after world,
        kernel.classifyFault? filesystem.fsid stat world⟩ :=
  classify_machine kernel filesystem.allocate world

theorem estimateOffset_stopped (filesystem : Filesystem) (stat : InodeStat) (byteCount : Int64) (world : σ)
    (fault : Fault) :
    (filesystem.estimateOffset (backend kernel) stat byteCount ⟨world, some fault⟩).2 = ⟨world, some fault⟩ :=
  classify_stopped kernel filesystem.allocate world fault

theorem estimateOffset_noted (filesystem : Filesystem) (stat : InodeStat) (byteCount : Int64) (machine : Machine σ)
    (log : List Request) :
    let estimated := filesystem.estimateOffset (backend kernel) stat byteCount machine
    filesystem.estimateOffset (backend kernel.recorded) stat byteCount (machine.noted log) =
      (estimated.1, estimated.2.noted (log ++ requestsFrom machine filesystem.fsid stat)) := by
  unfold Filesystem.estimateOffset
  rw [classify_noted kernel filesystem.allocate stat]
  rfl

end

/-! ## Recorded kernels -/

theorem attributeOf_recorded (handle : Handle) (world : σ) (log : List Request) :
    kernel.recorded.attributeOf handle (world, log) = kernel.attributeOf handle world := by
  unfold Kernel.attributeOf
  rw [readAttribute_eq _ _ nulPosition?_managedAttributeName, readAttribute_eq _ _ nulPosition?_managedAttributeName]
  rfl

/-! ## Scripts -/

/-- The script reports no byte of a value that it does not have. -/
def AttributeScript.Covered : AttributeScript → Prop
  | .failed _ => True
  | .status code => code ≠ 0
  | .value bytes reported => (reported.getD (UInt32.ofNat bytes.length)).toNat ≤ bytes.length

theorem fillOf_honest {answer : Except Errno AttributeReply} {produced : Fill Failure}
    (written : ∀ reply, answer = .ok reply → reply.status = 0 → reply.length.toNat ≤ bufferCapacity →
      ∀ i < reply.length.toNat, ∃ write ∈ reply.writes, write.offset ≤ i ∧ i < write.offset + write.bytes.length)
    (brought : fillOf answer = .ok produced) : produced.Honest := by
  intro reported outcome
  cases answer with
  | error errno =>
    cases brought
    cases outcome
  | ok reply =>
    by_cases succeeded : reply.status = 0
    · simp only [fillOf, succeeded, ite_true] at brought
      cases brought
      cases outcome
      exact written reply rfl succeeded
    · simp only [fillOf, succeeded, ite_false] at brought
      obtain ⟨number, -, brought⟩ := Except.bind_eq_ok_iff.mp brought
      cases brought
      cases outcome

namespace Script

theorem attributes_after (script : Script) (request : Request) :
    (Script.kernel.after script request).attributes = script.attributes := by
  cases request with
  | filesystemHandle path => rfl
  | attributes request =>
    by_cases short : request.handle.length < handleLength
    · simp [Kernel.after, Script.kernel, short]
    · simp [Kernel.after, Script.kernel, short]
  | bulkStat ino count =>
    cases records : script.bulkStats with
    | nil => simp [Kernel.after, Script.kernel, records]
    | cons record rest => simp [Kernel.after, Script.kernel, records]

theorem attributeOf_eq (script : Script) (handle : Handle) :
    Script.kernel.attributeOf handle script = fillOf (if handle.length < handleLength then .error invalid
      else answer (script.attributes.lookup (handleIno handle)) (UInt32.ofNat bufferCapacity)) := by
  unfold Kernel.attributeOf
  rw [readAttribute_eq _ _ nulPosition?_managedAttributeName]
  by_cases short : handle.length < handleLength
  · simp [Script.kernel, attributeRequest, short]
  · simp [Script.kernel, attributeRequest, short]

theorem steady (script : Script) : Script.kernel.Steady script := by
  intro requests
  induction requests generalizing script with
  | nil => trivial
  | cons request rest ih =>
    refine ⟨fun handle => ?_, ih _⟩
    rw [attributeOf_eq, attributeOf_eq, attributes_after]

theorem honest {script : Script} (covered : ∀ entry ∈ script.attributes, entry.2.Covered) :
    Script.kernel.Honest script := by
  intro handle produced brought
  rw [attributeOf_eq] at brought
  apply fillOf_honest _ brought
  intro reply answered succeeded fits i inside
  by_cases short : handle.length < handleLength
  · rw [if_pos short] at answered
    cases answered
  · rw [if_neg short] at answered
    cases there : script.attributes.lookup (handleIno handle) with
    | none =>
      rw [there] at answered
      cases answered
      cases succeeded
    | some entry =>
      rw [there] at answered
      obtain ⟨front, back, split, -⟩ := List.lookup_eq_some_iff.mp there
      have known : entry.Covered := covered (handleIno handle, entry) (by rw [split]; simp)
      cases entry with
      | failed errno => cases answered
      | status code =>
        cases answered
        exact absurd succeeded known
      | value bytes reported =>
        cases answered
        have room : (UInt32.ofNat bufferCapacity).toNat = bufferCapacity := rfl
        have most : (reported.getD (UInt32.ofNat bytes.length)).toNat ≤ bytes.length := known
        refine ⟨_, .head [], Nat.zero_le i, ?_⟩
        simp only [room, List.length_take] at fits inside ⊢
        omega

end Script

end Xfs

end Residency
