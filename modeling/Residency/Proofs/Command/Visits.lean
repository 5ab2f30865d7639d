import Residency.Proofs.Command.Report
import Residency.Proofs.Xfs.Kernel

/-!
# Runs over many paths

A run visits paths one after the other and ends with the last, or before it with one
that has no record, whose attribute comes with a status that cannot be turned, or
that has no text (`exists_visits`). The visits and the requests that they make are
those of the same run over a kernel that records them.
-/

namespace Residency

/-! ## One check -/

section
variable {σ : Type} (kernel : Xfs.Kernel σ)

/-- One of the two reads of a check brings a status without an absolute value. -/
def Xfs.Kernel.OverflowsIn (fsid : FsId) (stat : InodeStat) (world : σ) : Prop :=
  let request := Xfs.readRequest fsid stat
  stat.MayBeManaged ∧ (Xfs.Overflows (kernel.attributes request world).1 ∨
    Xfs.Overflows (kernel.attributes request (kernel.after world (.attributes request))).1)

/-- The requests of one check. The classification and the estimate ask for the same, if
the first of them is answered. -/
def Xfs.Kernel.checkRequests (fsid : FsId) (stat : InodeStat) (world : σ) : List Xfs.Request :=
  Xfs.classifyRequests fsid stat ++
    if (kernel.classifyFault? fsid stat world).isSome then [] else Xfs.classifyRequests fsid stat

def Xfs.Kernel.checkFault? (fsid : FsId) (stat : InodeStat) (world : σ) : Option Fault :=
  (kernel.classifyFault? fsid stat world).or
    (kernel.classifyFault? fsid stat ((Xfs.classifyRequests fsid stat).foldl kernel.after world))

theorem Xfs.classifyFault?_eq (fsid : FsId) (stat : InodeStat) (world : σ) :
    (stat.MayBeManaged ∧ Overflows (kernel.attributes (readRequest fsid stat) world).1 ∧
      kernel.classifyFault? fsid stat world = some .overflow) ∨
    ¬ (stat.MayBeManaged ∧ Overflows (kernel.attributes (readRequest fsid stat) world).1) ∧
      kernel.classifyFault? fsid stat world = none := by
  unfold Kernel.classifyFault?
  by_cases managed : stat.MayBeManaged
  · rw [if_pos managed, attributeOf_handleOf]
    by_cases overflows : Overflows (kernel.attributes (readRequest fsid stat) world).1
    · rw [fillOf_overflow overflows]
      exact .inl ⟨managed, overflows, rfl⟩
    · obtain ⟨produced, brought⟩ := fillOf_eq_ok overflows
      rw [brought]
      exact .inr ⟨fun both => overflows both.2, rfl⟩
  · rw [if_neg managed]
    exact .inr ⟨fun both => managed both.1, rfl⟩

theorem Xfs.checkFault?_eq (fsid : FsId) (stat : InodeStat) (world : σ) :
    (kernel.OverflowsIn fsid stat world ∧ kernel.checkFault? fsid stat world = some .overflow) ∨
      ¬ kernel.OverflowsIn fsid stat world ∧ kernel.checkFault? fsid stat world = none := by
  have second : stat.MayBeManaged → (classifyRequests fsid stat).foldl kernel.after world =
      kernel.after world (.attributes (readRequest fsid stat)) := by
    intro managed
    rw [classifyRequests, if_pos managed]
    rfl
  unfold Kernel.checkFault? Kernel.OverflowsIn
  obtain ⟨managed, overflows, fault⟩ | ⟨fits, none⟩ := classifyFault?_eq kernel fsid stat world
  · rw [fault]
    exact .inl ⟨⟨managed, .inl overflows⟩, rfl⟩
  · rw [none, Option.none_or]
    obtain ⟨managed, overflows, fault⟩ | ⟨fits', none'⟩ :=
      classifyFault?_eq kernel fsid stat ((classifyRequests fsid stat).foldl kernel.after world)
    · rw [second managed] at overflows
      exact .inl ⟨⟨managed, .inr overflows⟩, fault⟩
    · refine .inr ⟨?_, none'⟩
      rintro ⟨managed, first | later⟩
      · exact fits ⟨managed, first⟩
      · rw [second managed] at fits'
        exact fits' ⟨managed, later⟩

theorem Xfs.checkRequests_recorded (fsid : FsId) (stat : InodeStat) (world : σ) (log : List Request) :
    kernel.recorded.checkRequests fsid stat (world, log) = kernel.checkRequests fsid stat world := by
  unfold Kernel.checkRequests Kernel.classifyFault?
  rw [attributeOf_recorded]

theorem Xfs.classifyFault?_congr {world world' : σ}
    (same : ∀ handle, kernel.attributeOf handle world = kernel.attributeOf handle world') (fsid : FsId)
    (stat : InodeStat) : kernel.classifyFault? fsid stat world = kernel.classifyFault? fsid stat world' := by
  unfold Kernel.classifyFault?
  rw [same]

namespace FileContext

variable (context : FileContext) (path : RawText) (stat : InodeStat) (world : σ)

theorem check_machine : (context.check (Xfs.backend kernel) path stat (.running world)).2 =
    ⟨(kernel.checkRequests context.filesystem.fsid stat world).foldl kernel.after world,
      kernel.checkFault? context.filesystem.fsid stat world⟩ := by
  rw [check_eq]
  unfold Xfs.Kernel.checkRequests Xfs.Kernel.checkFault?
  simp only [Xfs.classify_machine, classify_filesystem, List.foldl_append]
  cases kernel.classifyFault? context.filesystem.fsid stat world with
  | none => exact Xfs.estimateOffset_machine ..
  | some fault => exact Xfs.estimateOffset_stopped ..

theorem check_noted (log : List Xfs.Request) :
    let checked := context.check (Xfs.backend kernel) path stat (.running world)
    context.check (Xfs.backend kernel.recorded) path stat (.running (world, log)) =
      (checked.1, checked.2.noted (log ++ kernel.checkRequests context.filesystem.fsid stat world)) := by
  intro checked
  let first := context.classify (Xfs.backend kernel) stat (.running world)
  have classified := Xfs.classify_noted kernel context stat (.running world) log
  have estimated := Xfs.estimateOffset_noted kernel context.filesystem stat 0 first.2
    (log ++ Xfs.classifyRequests context.filesystem.fsid stat)
  have fault : first.2.fault = kernel.classifyFault? context.filesystem.fsid stat world :=
    congrArg Machine.fault (Xfs.classify_machine kernel context world)
  rw [Xfs.requestsFrom, fault, List.append_assoc] at estimated
  simp only [checked, check_eq, classify_filesystem]
  rw [show Machine.running (world, log) = (Machine.running world).noted log from rfl, classified]
  exact congrArg (fun estimated => ((first.1.2.report path stat first.1.1 estimated.1, first.1.2), estimated.2)) estimated

/-- A check that ends makes the report that the attribute asks for, if the first
request does not change the attribute. -/
theorem report_of_check {report : CheckReport} {next : FileContext} {after : σ}
    (checked : context.check (Xfs.backend kernel) path stat (.running world) = ((report, next), .running after))
    (steady : kernel.SteadyOver world (Xfs.classifyRequests context.filesystem.fsid stat))
    (honest : kernel.Honest world) : report = .alone path stat
      (kernel.readOf (Xfs.handleOf context.filesystem.fsid stat.ino stat.generation) world) := by
  let fsid := context.filesystem.fsid
  let between := (Xfs.classifyRequests fsid stat).foldl kernel.after world
  have whole : kernel.checkFault? fsid stat world = none := by
    have ended := context.check_machine kernel path stat world
    rw [checked] at ended
    exact (congrArg Machine.fault ended).symm
  have first : kernel.classifyFault? fsid stat world = none := (Option.or_eq_none_iff.mp whole).1
  -- the classification and the estimate read at different moments, and both as at the start
  have same : kernel.readOf (Xfs.handleOf fsid stat.ino stat.generation) between =
      kernel.readOf (Xfs.handleOf fsid stat.ino stat.generation) world := by
    have still : kernel.SteadyOver world (Xfs.classifyRequests fsid stat ++ []) := by
      rw [List.append_nil]
      exact steady
    unfold Xfs.Kernel.readOf
    rw [still.attributeOf_eq]
  have alone := check_eq_alone (honest.readOf _) path (Xfs.fetch_backend kernel fsid stat world) (by
    rw [Xfs.classify_machine, first, ← same]
    exact Xfs.fetch_backend kernel fsid stat between)
  rwa [checked] at alone

end FileContext

end

namespace Check

variable {σ : Type}

/-! ## Visits -/

/-- The inode behind a path, and its record. -/
structure Described (host : Host σ) (path : RawText) (world : σ) (ino : UInt64) (record : Xfs.BulkRecord) : Prop where
  found : host.files.inode path world = .ok ino
  answered : (host.kernel.bulkStat ino 1 world).1 = .ok record

/-- One path of a run, the inode behind it, its record, and the report on it with its
document. -/
structure Visit where
  path : RawText
  ino : UInt64
  record : Xfs.BulkRecord
  report : CheckReport
  document : Json

/-- The requests of a visit, which reads the attribute twice if at all. -/
def Visit.requests (fsid : FsId) (visit : Visit) : List Xfs.Request :=
  .bulkStat visit.ino 1 :: (Xfs.classifyRequests fsid visit.record.toStat ++
    Xfs.classifyRequests fsid visit.record.toStat)

/-- A path has a record and a text and is checked in a context, which is left for the
next one. -/
structure Visit.Made (host : Host σ) (context : FileContext) (world : σ) (visit : Visit) (next : FileContext)
    (after : σ) : Prop where
  described : Described host visit.path world visit.ino visit.record
  checked : context.check (Xfs.backend host.kernel) visit.path visit.record.toStat
    (.running (host.kernel.after world (.bulkStat visit.ino 1))) = ((visit.report, next), .running after)
  written : visit.report.toJson = .ok visit.document

/-- Visits from a context and a world on, and the context and the world that they lead to. -/
inductive Visits (host : Host σ) : FileContext → σ → List Visit → FileContext → σ → Prop
  | nil (context : FileContext) (world : σ) : Visits host context world [] context world
  | cons {context next last : FileContext} {world after reached : σ} {visit : Visit} {visits : List Visit}
      (made : visit.Made host context world next after) (onward : Visits host next after visits last reached) :
      Visits host context world (visit :: visits) last reached

def statRequests (host : Host σ) (path : RawText) (world : σ) : List Xfs.Request :=
  match host.files.inode path world with
  | .ok ino => [.bulkStat ino 1]
  | .error _ => []

/-- How a run ends with some paths left, and what it asks then: all are done, or the
first of them has no record, its attribute comes with a status that has no absolute
value, or a report is made and cannot be written. -/
inductive Closing (host : Host σ) (context : FileContext) (world : σ) :
    List RawText → CheckRun → List Xfs.Request → σ → Prop
  | done : Closing host context world [] ⟨[], [], .success⟩ [] world
  | lost {path : RawText} {rest : List RawText} {failure : Failure} {after : σ}
      (lost : statOf host path world = (.error failure, after)) :
      Closing host context world (path :: rest) ⟨[], [], .failure failure⟩ (statRequests host path world) after
  | overflowed {path : RawText} {rest : List RawText} {ino : UInt64} {record : Xfs.BulkRecord}
      (described : Described host path world ino record)
      (overflows : host.kernel.OverflowsIn context.filesystem.fsid record.toStat
        (host.kernel.after world (.bulkStat ino 1))) :
      Closing host context world (path :: rest) ⟨[], [], .fault .overflow⟩
        (.bulkStat ino 1 :: host.kernel.checkRequests context.filesystem.fsid record.toStat
          (host.kernel.after world (.bulkStat ino 1)))
        ((host.kernel.checkRequests context.filesystem.fsid record.toStat
          (host.kernel.after world (.bulkStat ino 1))).foldl host.kernel.after
            (host.kernel.after world (.bulkStat ino 1)))
  | unprintable {path : RawText} {rest : List RawText} {ino : UInt64} {record : Xfs.BulkRecord}
      {report : CheckReport} {next : FileContext} {after : σ}
      (described : Described host path world ino record)
      (checked : context.check (Xfs.backend host.kernel) path record.toStat
        (.running (host.kernel.after world (.bulkStat ino 1))) = ((report, next), .running after))
      (textless : path.text? = none) :
      Closing host context world (path :: rest) ⟨[report], [], .fault .notUtf8⟩
        (.bulkStat ino 1 :: (Xfs.classifyRequests context.filesystem.fsid record.toStat ++
          Xfs.classifyRequests context.filesystem.fsid record.toStat)) after

/-! ## Records -/

/-- What the kernel's answer to a request for an inode's record means for a path. -/
def recordOf (ino : UInt64) : Except Errno Xfs.BulkRecord → Except Failure InodeStat
  | .error errno => .error (.ofXfs (.bulkStat ino errno))
  | .ok record => .ok record.toStat

section
variable (host : Host σ) {path : RawText} {world : σ}

theorem statOf_unfound {error : FileError} (unfound : host.files.inode path world = .error error) :
    statOf host path world = (.error ⟨s!"Failed to stat {path.shown}", [error.message]⟩, world) := by
  simp only [statOf, unfound]

theorem statOf_found {ino : UInt64} (found : host.files.inode path world = .ok ino) :
    statOf host path world =
      (recordOf ino (host.kernel.bulkStat ino 1 world).1, host.kernel.after world (.bulkStat ino 1)) := by
  simp only [statOf, found, Xfs.bulkStat, Xfs.Kernel.after]
  obtain ⟨answer, after⟩ := host.kernel.bulkStat ino 1 world
  cases answer with
  | error errno => rfl
  | ok record => rfl

theorem statOf_recorded (log : List Xfs.Request) :
    statOf host.recorded path (world, log) = ((statOf host path world).1,
      (statOf host path world).2, log ++ statRequests host path world) := by
  unfold statRequests
  cases found : host.files.inode path world with
  | error error =>
    have unfound : host.recorded.files.inode path (world, log) = .error error := found
    rw [statOf_unfound _ found, statOf_unfound _ unfound, List.append_nil]
  | ok ino =>
    have there : host.recorded.files.inode path (world, log) = .ok ino := found
    rw [statOf_found _ found, statOf_found _ there]
    rfl

end

variable {host : Host σ} {context last : FileContext} {world reached : σ} {visits : List Visit}

section
variable {path : RawText} {ino : UInt64} {record : Xfs.BulkRecord}
  (described : Described host path world ino record)
include described

theorem Described.statOf_eq :
    statOf host path world = (.ok record.toStat, host.kernel.after world (.bulkStat ino 1)) := by
  rw [statOf_found host described.found, described.answered]
  rfl

theorem Described.recorded (log : List Xfs.Request) : Described host.recorded path (world, log) ino record :=
  ⟨described.found, described.answered⟩

end

theorem checkRequests_of_check {kernel : Xfs.Kernel σ} {path : RawText} {stat : InodeStat} {report : CheckReport}
    {next : FileContext} {after : σ}
    (checked : context.check (Xfs.backend kernel) path stat (.running world) = ((report, next), .running after)) :
    kernel.checkRequests context.filesystem.fsid stat world =
      Xfs.classifyRequests context.filesystem.fsid stat ++ Xfs.classifyRequests context.filesystem.fsid stat := by
  have ended := context.check_machine kernel path stat world
  rw [checked] at ended
  have whole := (congrArg Machine.fault ended).symm
  rw [Xfs.Kernel.checkRequests, (Option.or_eq_none_iff.mp whole).1]
  rfl

/-- A check that ends ends over a kernel that records it, too. -/
theorem check_recorded_running {kernel : Xfs.Kernel σ} {path : RawText} {stat : InodeStat} {report : CheckReport}
    {next : FileContext} {after : σ}
    (checked : context.check (Xfs.backend kernel) path stat (.running world) = ((report, next), .running after))
    (log : List Xfs.Request) :
    context.check (Xfs.backend kernel.recorded) path stat (.running (world, log)) =
      ((report, next), .running (after, log ++ (Xfs.classifyRequests context.filesystem.fsid stat ++
        Xfs.classifyRequests context.filesystem.fsid stat))) := by
  have noted := context.check_noted kernel path stat world log
  rw [checkRequests_of_check checked, checked] at noted
  exact noted

/-! ## One visit -/

section
variable {visit : Visit} {next : FileContext} {after : σ} (made : visit.Made host context world next after)
include made

theorem Visit.Made.filesystem_eq : next.filesystem = context.filesystem := by
  have kept := check_filesystem (Xfs.backend host.kernel) context visit.path visit.record.toStat
    (.running (host.kernel.after world (.bulkStat visit.ino 1)))
  rwa [made.checked] at kept

theorem Visit.Made.world_eq : after = (visit.requests context.filesystem.fsid).foldl host.kernel.after world := by
  have ended := context.check_machine host.kernel visit.path visit.record.toStat
    (host.kernel.after world (.bulkStat visit.ino 1))
  rw [checkRequests_of_check made.checked, made.checked] at ended
  exact congrArg Machine.world ended

theorem Visit.Made.recorded (log : List Xfs.Request) : visit.Made host.recorded context (world, log) next
    (after, log ++ visit.requests context.filesystem.fsid) where
  described := made.described.recorded log
  checked := by
    have asked := check_recorded_running made.checked (log ++ [.bulkStat visit.ino 1])
    rw [List.append_assoc] at asked
    exact asked
  written := made.written

theorem Visit.Made.report_eq (steady : host.kernel.SteadyOver world (visit.requests context.filesystem.fsid))
    (honest : host.kernel.Honest world) : visit.report = .alone visit.path visit.record.toStat
      (host.kernel.readOf (Xfs.handleOf context.filesystem.fsid visit.record.ino visit.record.generation) world) := by
  obtain ⟨same, later⟩ := steady
  have still : host.kernel.Honest (host.kernel.after world (.bulkStat visit.ino 1)) := honest.congr same
  have report := context.report_of_check host.kernel visit.path visit.record.toStat _ made.checked later.front still
  unfold Xfs.Kernel.readOf at report ⊢
  rwa [same] at report

/-- No read of the visit overflows. -/
theorem Visit.Made.classifyFault?_eq :
    host.kernel.classifyFault? context.filesystem.fsid visit.record.toStat
      (host.kernel.after world (.bulkStat visit.ino 1)) = none := by
  have ended := context.check_machine host.kernel visit.path visit.record.toStat
    (host.kernel.after world (.bulkStat visit.ino 1))
  rw [made.checked] at ended
  exact (Option.or_eq_none_iff.mp (congrArg Machine.fault ended).symm).1

end

/-! ## Many visits -/

theorem Visits.written (visited : Visits host context world visits last reached) :
    ∀ visit ∈ visits, visit.report.toJson = .ok visit.document := by
  induction visited with
  | nil context world => simp
  | cons made onward ih => exact List.forall_mem_cons.mpr ⟨made.written, ih⟩

theorem Visits.recorded (visited : Visits host context world visits last reached) (log : List Xfs.Request) :
    Visits host.recorded context (world, log) visits last
      (reached, log ++ visits.flatMap (Visit.requests context.filesystem.fsid)) := by
  induction visited generalizing log with
  | nil context world =>
    rw [List.flatMap_nil, List.append_nil]
    exact .nil context _
  | cons made onward ih =>
    rw [List.flatMap_cons, ← List.append_assoc, ← made.filesystem_eq]
    refine .cons ?_ (ih _)
    rw [made.filesystem_eq]
    exact made.recorded log

theorem Visits.world_eq (visited : Visits host context world visits last reached) :
    reached = (visits.flatMap (Visit.requests context.filesystem.fsid)).foldl host.kernel.after world := by
  induction visited with
  | nil context world => rfl
  | cons made onward ih =>
    rw [List.flatMap_cons, List.foldl_append, ← made.world_eq, ← made.filesystem_eq]
    exact ih

theorem Visits.runPaths_eq (visited : Visits host context world visits last reached) (rest : List RawText) :
    runPaths host context (visits.map Visit.path ++ rest) world =
      let (run, after) := runPaths host last rest reached
      (⟨visits.map Visit.report ++ run.reports, visits.map Visit.document ++ run.printed, run.ending⟩, after) := by
  induction visited with
  | nil context world => rfl
  | cons made onward ih =>
    simp only [List.map_cons, List.cons_append, runPaths, made.described.statOf_eq, made.checked, made.written,
      Machine.fault_running, Machine.world_running, ih]

/-- Each visit makes the report of its record and its attribute, and could be made
first of all. -/
theorem Visits.report_eq (visited : Visits host context world visits last reached)
    (steady : host.kernel.SteadyOver world (visits.flatMap (Visit.requests context.filesystem.fsid)))
    (honest : host.kernel.Honest world) : ∀ visit ∈ visits,
      visit.report = .alone visit.path visit.record.toStat (host.kernel.readOf
        (Xfs.handleOf context.filesystem.fsid visit.record.ino visit.record.generation) world) ∧
      host.kernel.classifyFault? context.filesystem.fsid visit.record.toStat world = none := by
  induction visited with
  | nil context world => simp
  | @cons context next last world after reached visit visits made onward ih =>
    rw [List.flatMap_cons] at steady
    have same : ∀ handle, host.kernel.attributeOf handle after = host.kernel.attributeOf handle world := by
      intro handle
      rw [made.world_eq]
      exact steady.attributeOf_eq handle
    have later := steady.back
    rw [← made.world_eq, ← made.filesystem_eq] at later
    have others := ih later (honest.congr same)
    simp only [made.filesystem_eq, Xfs.Kernel.readOf, same, Xfs.classifyFault?_congr _ same] at others
    have whole := made.classifyFault?_eq
    rw [Xfs.classifyFault?_congr _ steady.front.1] at whole
    exact List.forall_mem_cons.mpr ⟨⟨made.report_eq steady.front honest, whole⟩, others⟩

/-! ## Endings -/

section
variable {paths : List RawText} {run : CheckRun} {requests : List Xfs.Request} {after : σ}
  (closing : Closing host context world paths run requests after)
include closing

theorem Closing.runPaths_eq : runPaths host context paths world = (run, after) := by
  cases closing with
  | done => rfl
  | lost lost =>
    unfold runPaths
    rw [lost]
  | @overflowed path rest ino record described overflows =>
    have ended := context.check_machine host.kernel path record.toStat (host.kernel.after world (.bulkStat ino 1))
    obtain ⟨-, fault⟩ | ⟨fits, -⟩ := Xfs.checkFault?_eq host.kernel context.filesystem.fsid record.toStat
      (host.kernel.after world (.bulkStat ino 1))
    · rw [fault] at ended
      simp only [runPaths, described.statOf_eq, ended]
    · exact absurd overflows fits
  | @unprintable path rest ino record report next after described checked textless =>
    have named : report.path = path := by
      have made := congrArg (fun checked => checked.1.1.path) checked
      exact made.symm
    have unwritten : report.toJson = .error .notUtf8 := by
      simp only [CheckReport.toJson, named, textless]
    simp only [runPaths, described.statOf_eq, checked, unwritten, Machine.fault_running, Machine.world_running]

theorem Closing.recorded (log : List Xfs.Request) :
    Closing host.recorded context (world, log) paths run requests (after, log ++ requests) := by
  cases closing with
  | done =>
    rw [List.append_nil]
    exact .done
  | lost lost =>
    refine .lost ?_
    rw [statOf_recorded, lost]
  | @overflowed path rest ino record described overflows =>
    have noted : Closing host.recorded context (world, log) (path :: rest) _ _ _ :=
      .overflowed (described.recorded log) overflows
    rw [show host.recorded.kernel.after (world, log) (.bulkStat ino 1) =
        (host.kernel.after world (.bulkStat ino 1), log ++ [.bulkStat ino 1]) from rfl,
      show host.recorded.kernel = host.kernel.recorded from rfl, Xfs.checkRequests_recorded, Xfs.foldl_recorded,
      List.append_assoc] at noted
    exact noted
  | @unprintable path rest ino record report next after described checked textless =>
    have asked := check_recorded_running checked (log ++ [.bulkStat ino 1])
    rw [List.append_assoc] at asked
    exact .unprintable (described.recorded log) asked textless

/-- A run that leaves no path ends well. -/
theorem Closing.status_eq_zero_iff : run.ending.status = 0 ↔ paths = [] := by
  cases closing with
  | done => simp [Ending.status]
  | lost => simp [Ending.status]
  | overflowed => simp [Ending.status]
  | unprintable => simp [Ending.status]

theorem Closing.printed_eq : run.printed = [] := by
  cases closing with
  | done | lost | overflowed | unprintable => rfl

theorem Closing.reports_eq_nil_or : run.reports = [] ∨ run.ending = .fault .notUtf8 := by
  cases closing with
  | done | lost | overflowed => exact .inl rfl
  | unprintable => exact .inr rfl

theorem Closing.reports_eq (steady : host.kernel.SteadyOver world requests) (honest : host.kernel.Honest world) :
    ∀ report ∈ run.reports, ∃ path stat, ∃ produced : Fill Xfs.Failure, report = .alone path stat produced := by
  intro report there
  cases closing with
  | done => cases there
  | lost => cases there
  | overflowed => cases there
  | @unprintable path rest ino record made next after described checked textless =>
    obtain rfl := List.mem_singleton.mp there
    exact ⟨_, _, _, context.report_of_check host.kernel path record.toStat _ checked steady.2.front
      (honest.congr steady.1)⟩

end

/-! ## Runs -/

/-- One step: the path has no record, its attribute overflows, or it is visited and its
report can be written or not. -/
theorem exists_visit_or_closing (host : Host σ) (context : FileContext) (path : RawText) (paths : List RawText)
    (world : σ) :
    (∃ run requests after, Closing host context world (path :: paths) run requests after) ∨
      ∃ visit next after, visit.path = path ∧ Visit.Made host context world visit next after := by
  cases found : host.files.inode path world with
  | error error => exact .inl ⟨_, _, _, .lost (statOf_unfound host found)⟩
  | ok ino =>
    cases answered : (host.kernel.bulkStat ino 1 world).1 with
    | error errno =>
      have asked := statOf_found host found
      rw [answered] at asked
      exact .inl ⟨_, _, _, .lost asked⟩
    | ok record =>
      have described : Described host path world ino record := ⟨found, answered⟩
      let between := host.kernel.after world (.bulkStat ino 1)
      obtain ⟨overflows, -⟩ | ⟨-, whole⟩ :=
        Xfs.checkFault?_eq host.kernel context.filesystem.fsid record.toStat between
      · exact .inl ⟨_, _, _, .overflowed described overflows⟩
      · have ended := context.check_machine host.kernel path record.toStat between
        rw [whole] at ended
        let checked := context.check (Xfs.backend host.kernel) path record.toStat (.running between)
        have running : checked = ((checked.1.1, checked.1.2), .running checked.2.world) :=
          Prod.ext rfl (Machine.eq_running (congrArg Machine.fault ended))
        have named : checked.1.1.path = path := rfl
        cases textual : path.text? with
        | none => exact .inl ⟨_, _, _, .unprintable described running textual⟩
        | some text =>
          have written : checked.1.1.toJson = .ok (checked.1.1.jsonOf text) := by
            rw [CheckReport.toJson, named, textual]
          exact .inr ⟨⟨path, ino, record, checked.1.1, _⟩, _, _, rfl, described, running, written⟩

theorem exists_visits (host : Host σ) (context : FileContext) (paths : List RawText) (world : σ) :
    ∃ visits rest last reached run requests after, paths = visits.map Visit.path ++ rest ∧
      Visits host context world visits last reached ∧ Closing host last reached rest run requests after := by
  induction paths generalizing context world with
  | nil => exact ⟨[], [], context, world, _, [], world, rfl, .nil context world, .done⟩
  | cons path paths ih =>
    obtain ⟨run, requests, after, closing⟩ | ⟨visit, next, after, rfl, made⟩ :=
      exists_visit_or_closing host context path paths world
    · exact ⟨[], path :: paths, context, world, run, requests, after, rfl, .nil context world, closing⟩
    · obtain ⟨visits, rest, last, reached, run, requests, final, rfl, visited, closing⟩ := ih next after
      exact ⟨visit :: visits, rest, last, reached, run, requests, final, rfl, .cons made visited, closing⟩

theorem runPaths_eq {rest : List RawText} {run : CheckRun} {requests : List Xfs.Request} {after : σ}
    (visited : Visits host context world visits last reached)
    (closing : Closing host last reached rest run requests after) :
    runPaths host context (visits.map Visit.path ++ rest) world =
      (⟨visits.map Visit.report ++ run.reports, visits.map Visit.document, run.ending⟩, after) := by
  rw [visited.runPaths_eq, closing.runPaths_eq]
  simp only [closing.printed_eq, List.append_nil]

end Check

end Residency
