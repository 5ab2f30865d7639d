import Mathlib.Data.List.Forall2
import Residency.Command
import Residency.Proofs.Command.Visits
import Residency.Proofs.Json
import Residency.Proofs.Settings.Laws

/-!
# Runs of a check

A check prints one report for each path before the first that has no record, whose
attribute overflows or that has no text, and asks nothing more of the kernel after that
(`perform_visits`). What it prints of a file fits together, whatever files came before
(`perform_coherent`).
-/

namespace Residency

/-- The same system with one inode behind every path, and one record. -/
def Host.describing {σ : Type} (host : Host σ) (ino : UInt64) (record : Xfs.BulkRecord) : Host σ where
  kernel := host.kernel.describing record
  files := { host.files with inode := fun _ _ => .ok ino }

/-- A text that is read back as a document with every part of the report. -/
def CheckReport.PrintedAs (report : CheckReport) (text : String) : Prop :=
  ∃ document : Json, Json.Tree.ofText? text = some document.tree ∧ report.ShownBy document

theorem CheckReport.printedAs_document {report : CheckReport} {document : Json}
    (written : report.toJson = .ok document) : report.PrintedAs document.document :=
  ⟨document, Json.ofText?_document document, CheckReport.shownBy written⟩

namespace Check

variable {σ : Type} {host : Host σ} {settings : Settings} {mount : RawText} {world start : σ} {fsid : FsId}

/-! ## Mounts -/

/-- The mount point can be opened, and the kernel gives the id of its filesystem. -/
structure Mounted (host : Host σ) (mount : RawText) (world : σ) (fsid : FsId) (start : σ) : Prop where
  opened : Xfs.openMount host.files mount world = .ok ()
  resolved : Xfs.resolveMount host.kernel mount world = (.ok fsid, start)

theorem init_ne_unsupported {ε : Type} (accepted : settings.validate = .ok ()) (backend : Backend σ ε)
    (mount : RawText) (world : σ) (requested supported : UInt32) :
    (Filesystem.init backend mount settings.hsm.apiVersion world).1 ≠
      .error (.unsupportedApiVersion requested supported) := by
  unfold Filesystem.init
  rw [if_pos (Settings.validate_eq_ok_iff.mp accepted)]
  obtain ⟨answer, start⟩ := backend.resolveMount mount world
  cases answer with
  | ok fsid => simp
  | error source => simp

theorem Mounted.mountOf_eq (mounted : Mounted host mount world fsid start) (accepted : settings.validate = .ok ()) :
    mountOf host settings mount world = (.ok ⟨supportedApiVersion, fsid⟩, start) := by
  have version := Settings.validate_eq_ok_iff.mp accepted
  unfold mountOf
  rw [mounted.opened, Xfs.init_eq, version, if_pos rfl, mounted.resolved]
  rfl

theorem mountOf_of_not_mounted (accepted : settings.validate = .ok ())
    (failed : ∀ fsid start, ¬ Mounted host mount world fsid start) :
    ∃ failure start, mountOf host settings mount world = (.error failure, start) := by
  have version := Settings.validate_eq_ok_iff.mp accepted
  unfold mountOf
  match opened : Xfs.openMount host.files mount world with
  | .error failure => exact ⟨_, world, rfl⟩
  | .ok () =>
    match resolved : Xfs.resolveMount host.kernel mount world with
    | (.ok fsid, start) => exact absurd ⟨opened, resolved⟩ (failed fsid start)
    | (.error source, start) =>
      rw [Xfs.init_eq, version, if_pos rfl, resolved]
      exact ⟨_, start, rfl⟩

theorem Mounted.world_eq (mounted : Mounted host mount world fsid start) :
    start = host.kernel.after world (.filesystemHandle mount) := (Xfs.resolveMount_eq_ok mounted.resolved).2

theorem Mounted.recorded (mounted : Mounted host mount world fsid start) (log : List Xfs.Request) :
    Mounted host.recorded mount (world, log) fsid (start, log ++ [.filesystemHandle mount]) where
  opened := mounted.opened
  resolved := by
    have nul := (Xfs.resolveMount_eq_ok mounted.resolved).1
    have plain := mounted.resolved
    rw [Xfs.resolveMount_eq _ nul] at plain ⊢
    obtain ⟨answer, reached⟩ := Prod.mk.inj plain
    exact Prod.ext answer (Prod.ext reached rfl)

theorem Mounted.run_eq (mounted : Mounted host mount world fsid start) (accepted : settings.validate = .ok ())
    (paths : List RawText) : run host settings mount paths world =
      runPaths host (Filesystem.mk supportedApiVersion fsid).allocate paths start := by
  unfold run
  rw [mounted.mountOf_eq accepted]

theorem run_of_not_mounted (accepted : settings.validate = .ok ())
    (failed : ∀ fsid start, ¬ Mounted host mount world fsid start) (paths : List RawText) :
    ∃ failure start, run host settings mount paths world = (⟨[], [], .failure failure⟩, start) := by
  obtain ⟨failure, start, mount_eq⟩ := mountOf_of_not_mounted accepted failed
  refine ⟨failure, start, ?_⟩
  unfold run
  rw [mount_eq]

/-! ## Visits of a run -/

theorem Mounted.run_visits (mounted : Mounted host mount world fsid start) (accepted : settings.validate = .ok ())
    (paths : List RawText) :
    ∃ visits rest last reached closed requests after,
      paths = visits.map Visit.path ++ rest ∧
      Visits host (Filesystem.mk supportedApiVersion fsid).allocate start visits last reached ∧
      Closing host last reached rest closed requests after ∧
      let whole : CheckRun := ⟨visits.map Visit.report ++ closed.reports, visits.map Visit.document, closed.ending⟩
      run host settings mount paths world = (whole, after) ∧
      run host.recorded settings mount paths (world, []) = (whole, after,
        .filesystemHandle mount :: (visits.flatMap (Visit.requests fsid) ++ requests)) := by
  obtain ⟨visits, rest, last, reached, closed, requests, after, rfl, visited, closing⟩ :=
    exists_visits host (Filesystem.mk supportedApiVersion fsid).allocate paths start
  refine ⟨visits, rest, last, reached, closed, requests, after, rfl, visited, closing, ?_, ?_⟩
  · rw [mounted.run_eq accepted, runPaths_eq visited closing]
  · rw [(mounted.recorded []).run_eq accepted, runPaths_eq (visited.recorded _) (closing.recorded _)]
    rfl

/-- The visits of a run make the reports that they would make first of all. -/
theorem Mounted.visits_report_eq (mounted : Mounted host mount world fsid start) {last : FileContext}
    {reached : σ} {visits : List Visit} (further : List Xfs.Request)
    (visited : Visits host (Filesystem.mk supportedApiVersion fsid).allocate start visits last reached)
    (steady : host.kernel.SteadyOver world
      (.filesystemHandle mount :: (visits.flatMap (Visit.requests fsid) ++ further)))
    (honest : host.kernel.Honest world) : ∀ visit ∈ visits,
      visit.report = .alone visit.path visit.record.toStat
        (host.kernel.readOf (Xfs.handleOf fsid visit.record.ino visit.record.generation) world) ∧
      host.kernel.classifyFault? fsid visit.record.toStat world = none := by
  obtain ⟨same, later⟩ := steady
  rw [← mounted.world_eq] at same later
  intro visit member
  have made := visited.report_eq later.front (honest.congr same) visit member
  rw [Xfs.classifyFault?_congr _ same, Xfs.Kernel.readOf, same] at made
  exact made

/-- A report that cannot be written is made like the others. -/
theorem Closing.reports_of_mounted {last : FileContext} {reached after : σ} {visits : List Visit}
    {rest : List RawText} {closed : CheckRun} {requests : List Xfs.Request}
    (closing : Closing host last reached rest closed requests after)
    (mounted : Mounted host mount world fsid start)
    (visited : Visits host (Filesystem.mk supportedApiVersion fsid).allocate start visits last reached)
    (steady : host.kernel.SteadyOver world
      (.filesystemHandle mount :: (visits.flatMap (Visit.requests fsid) ++ requests)))
    (honest : host.kernel.Honest world) :
    ∀ report ∈ closed.reports, ∃ path stat, ∃ produced : Fill Xfs.Failure, report = .alone path stat produced := by
  obtain ⟨same, later⟩ := steady
  rw [← mounted.world_eq] at same later
  have still := later.back
  have reads : ∀ handle, host.kernel.attributeOf handle reached = host.kernel.attributeOf handle world := by
    intro handle
    rw [visited.world_eq]
    exact (later.attributeOf_eq handle).trans (same handle)
  refine closing.reports_eq ?_ (honest.congr reads)
  rw [visited.world_eq]
  exact still

end Check

namespace Command

open Check

variable {σ : Type} {host : Host σ} {settings : Settings}

theorem perform_one {mount path : RawText} {world start : σ} {fsid : FsId} (accepted : settings.validate = .ok ())
    (mounted : Mounted host mount world fsid start) (steady : host.kernel.Steady world)
    (honest : host.kernel.Honest world) (ino : UInt64) {record : Xfs.BulkRecord}
    (whole : host.kernel.classifyFault? fsid record.toStat world = none) {document : Json}
    (written : (CheckReport.alone path record.toStat
      (host.kernel.readOf (Xfs.handleOf fsid record.ino record.generation) world)).toJson = .ok document) :
    (perform (host.describing ino record) settings (.check mount [path]) world).1 = ⟨document.document, .success⟩ := by
  let lone := host.describing ino record
  let context := (Filesystem.mk supportedApiVersion fsid).allocate
  let checked := context.check (Xfs.backend lone.kernel) path record.toStat (.running start)
  have loneMounted : Mounted lone mount world fsid start := ⟨mounted.opened, mounted.resolved⟩
  have loneSteady : lone.kernel.Steady world := steady.describing record
  have still : lone.kernel.Steady start := by
    rw [loneMounted.world_eq]
    exact fun requests => (loneSteady (.filesystemHandle mount :: requests)).2
  have same : ∀ handle, lone.kernel.attributeOf handle start = lone.kernel.attributeOf handle world := by
    rw [loneMounted.world_eq]
    exact (loneSteady [.filesystemHandle mount]).1
  -- no read overflows here, since none did in the run that the record is from
  have ended : checked.2 = .running checked.2.world := by
    apply Machine.eq_running
    have later := fun handle => (still (Xfs.classifyRequests fsid record.toStat ++ [])).attributeOf_eq handle
    have fault := congrArg Machine.fault (context.check_machine lone.kernel path record.toStat start)
    refine fault.trans ?_
    show lone.kernel.checkFault? fsid record.toStat start = none
    unfold Xfs.Kernel.checkFault?
    rw [Xfs.classifyFault?_congr _ later, Xfs.classifyFault?_congr _ same]
    exact Option.or_eq_none_iff.mpr ⟨whole, whole⟩
  have running : checked = ((checked.1.1, checked.1.2), .running checked.2.world) := Prod.ext rfl ended
  have report : checked.1.1 = .alone path record.toStat
      (host.kernel.readOf (Xfs.handleOf fsid record.ino record.generation) world) := by
    have made := context.report_of_check lone.kernel path record.toStat start running (still _)
      (Xfs.Kernel.Honest.congr honest same)
    rw [Xfs.Kernel.readOf, same] at made
    exact made
  have made : (Visit.mk path ino record checked.1.1 document).Made lone context start checked.1.2 checked.2.world :=
    ⟨⟨rfl, rfl⟩, running, by rw [report]; exact written⟩
  have run_eq : Check.run lone settings mount [path] world = (⟨[checked.1.1], [document], .success⟩, checked.2.world) := by
    rw [loneMounted.run_eq accepted]
    exact runPaths_eq (.cons made (.nil checked.1.2 checked.2.world)) .done
  show (Check.run lone settings mount [path] world).1.outcome = _
  rw [run_eq]
  simp [CheckRun.outcome, Outcome.ofDocuments, String.join]

variable (host)

/-- Nothing is printed if the mount point gives no filesystem id. Else the paths are
visited up to the first that has no record, whose attribute comes with a status without
an absolute value, or that has no text: their reports are printed in order, the kernel
is asked for nothing more, and the exit status tells whether any are left. If reads of
attributes depend on the handle alone and write every byte that they report, each report
is that of a run with this path only. -/
theorem perform_visits (accepted : settings.validate = .ok ()) (mount : RawText) (paths : List RawText) (world : σ) :
    let outcome := (perform host settings (.check mount paths) world).1
    let recorded := perform host.recorded settings (.check mount paths) (world, [])
    ((∀ fsid start, ¬ Mounted host mount world fsid start) → outcome.stdout = "" ∧ outcome.status = 1) ∧
    ∀ fsid start, Mounted host mount world fsid start →
      ∃ visits texts rest last reached closed requests after,
        paths = visits.map Visit.path ++ rest ∧
        Visits host (Filesystem.mk supportedApiVersion fsid).allocate start visits last reached ∧
        Closing host last reached rest closed requests after ∧
        outcome = ⟨String.join texts, closed.ending⟩ ∧
        (outcome.status = 0 ↔ rest = []) ∧
        recorded = (outcome, after,
          .filesystemHandle mount :: (visits.flatMap (Visit.requests fsid) ++ requests)) ∧
        List.Forall₂ (fun visit text => visit.report.PrintedAs text ∧
          (host.kernel.Steady world → host.kernel.Honest world →
            visit.report = .alone visit.path visit.record.toStat
              (host.kernel.readOf (Xfs.handleOf fsid visit.record.ino visit.record.generation) world) ∧
            (perform (host.describing visit.ino visit.record) settings (.check mount [visit.path]) world).1 =
              ⟨text, .success⟩)) visits texts := by
  intro outcome recorded
  constructor
  · intro failed
    obtain ⟨failure, start, run_eq⟩ := run_of_not_mounted accepted failed paths
    have printed : outcome = CheckRun.outcome ⟨[], [], .failure failure⟩ := congrArg (fun run => run.1.outcome) run_eq
    rw [printed]
    exact ⟨rfl, rfl⟩
  · intro fsid start mounted
    obtain ⟨visits, rest, last, reached, closed, requests, after, split, visited, closing, plain, noted⟩ :=
      mounted.run_visits accepted paths
    have printed : outcome = ⟨String.join (visits.map fun visit => visit.document.document), closed.ending⟩ := by
      have whole : outcome = CheckRun.outcome _ := congrArg (fun run => run.1.outcome) plain
      rw [whole, CheckRun.outcome, Outcome.ofDocuments, List.map_map]
      rfl
    refine ⟨visits, visits.map fun visit => visit.document.document, rest, last, reached, closed, requests, after,
      split, visited, closing, printed, ?_, ?_, ?_⟩
    · rw [printed]
      exact closing.status_eq_zero_iff
    · have same : outcome = CheckRun.outcome _ := congrArg (fun run => run.1.outcome) plain
      rw [same]
      exact congrArg (fun run => (run.1.outcome, run.2)) noted
    · have written := visited.written
      rw [List.forall₂_map_right_iff, List.forall₂_same]
      intro visit member
      refine ⟨CheckReport.printedAs_document (written visit member), fun steady honest => ?_⟩
      obtain ⟨report, whole⟩ := mounted.visits_report_eq [] visited (steady _) honest visit member
      refine ⟨report, perform_one accepted mounted steady honest visit.ino whole ?_⟩
      rw [← report]
      exact written visit member

/-- A filesystem with a candidate and a file without an attribute, and then an inode
that is gone. -/
def fourInodes : Xfs.Script where
  filesystemHandle := .ok ⟨zeros 24, 24⟩
  attributes := [(22, .value dualValue none)]
  bulkStats := [.ok (recordOf 22), .ok (recordOf 23), .error 2, .ok (recordOf 22)]
where
  recordOf (ino : UInt64) : Xfs.BulkRecord :=
    ⟨ino, 1, 0o100644, InodeStat.hasAttributeFlag, InodeStat.readEvent, 512⟩

/-- Four files with a letter for a name, and one whose name is no text. -/
def fiveFiles : Host Xfs.Script where
  kernel := Xfs.Script.kernel
  files := (FileTree.ofList [("a", []), ("b", []), ("c", []), ("d", []), ([255], [])]).files

theorem fourInodes_honest : fiveFiles.kernel.Honest fourInodes := by
  apply Xfs.Script.honest
  intro entry member
  obtain rfl := List.mem_singleton.mp member
  exact Nat.le_refl 22

theorem fourInodes_mounted : Mounted fiveFiles "/mnt" fourInodes ⟨zeros 8, length_zeros 8⟩ fourInodes where
  opened := by decide +kernel
  resolved := by
    have nul : (RawText.ofString "/mnt").nulPosition? = none := by decide +kernel
    rw [Xfs.resolveMount_eq _ nul]
    rfl

/-- Two reports are printed, and nothing is asked about the fourth path. -/
theorem perform_visits_four_inodes :
    let paths : List RawText := ["a", "b", "c", "d"]
    let run := perform fiveFiles.recorded .default (.check "/mnt" paths) (fourInodes, [])
    let outcome := (perform fiveFiles .default (.check "/mnt" paths) fourInodes).1
    let reads (ino : UInt64) :=
      Xfs.classifyRequests ⟨zeros 8, length_zeros 8⟩ (fourInodes.recordOf ino).toStat
    Settings.default.validate = .ok () ∧ fiveFiles.kernel.Steady fourInodes ∧
    fiveFiles.kernel.Honest fourInodes ∧ outcome.status = 1 ∧
    run.2.2 = [.filesystemHandle "/mnt", .bulkStat 98 1] ++ reads 22 ++ reads 22 ++ [.bulkStat 97 1] ++ reads 23 ++
      reads 23 ++ [.bulkStat 96 1] ∧
    ∃ visits texts rest, paths = visits.map Visit.path ++ rest ∧ rest ≠ [] ∧ outcome.stdout = String.join texts ∧
      List.Forall₂ (fun visit text => visit.report.PrintedAs text ∧
        (perform (fiveFiles.describing visit.ino visit.record) .default (.check "/mnt" [visit.path]) fourInodes).1 =
          ⟨text, .success⟩) visits texts := by
  intro paths run outcome reads
  have accepted : Settings.default.validate = .ok () := rfl
  have steady : fiveFiles.kernel.Steady fourInodes := Xfs.Script.steady fourInodes
  have failed : outcome.status = 1 := by decide +kernel
  obtain ⟨visits, texts, rest, last, reached, closed, requests, after, split, -, -, printed, status, -, shown⟩ :=
    (perform_visits fiveFiles accepted "/mnt" paths fourInodes).2 _ _ fourInodes_mounted
  refine ⟨accepted, steady, fourInodes_honest, failed, by decide +kernel, visits, texts, rest, split, ?_,
    congrArg Outcome.stdout printed, ?_⟩
  · intro finished
    rw [status.mpr finished] at failed
    cases failed
  · exact shown.imp fun visit text each => ⟨each.1, (each.2 steady fourInodes_honest).2⟩

/-- A file that has a record, but a status without an absolute value for its attribute or a
name that is no text, has no report, and the run fails. -/
theorem perform_lowest_status :
    let start := { fourInodes with attributes := [(22, .status Int32.minValue)] }
    let outcome (path : RawText) (world : Xfs.Script) := (perform fiveFiles .default (.check "/mnt" [path]) world).1
    (statOf fiveFiles "a" start).1 = .ok (fourInodes.recordOf 22).toStat ∧
      outcome "a" start = ⟨"", .fault .overflow⟩ ∧
      (statOf fiveFiles [255] fourInodes).1 = .ok (fourInodes.recordOf 22).toStat ∧
      outcome [255] fourInodes = ⟨"", .fault .notUtf8⟩ ∧
      (Ending.fault .overflow).status ≠ 0 ∧ (Ending.fault .notUtf8).status ≠ 0 := by
  decide +kernel

/-- Every report that a check prints fits together, if no request of the check changes
what reads of attributes bring and reads write every byte that they report. Each text that
is printed is read back as the document of one report, and only the last report made can
be missing. -/
theorem perform_coherent (accepted : settings.validate = .ok ()) (mount : RawText) (paths : List RawText) (world : σ)
    (steady : host.kernel.SteadyOver world (perform host.recorded settings (.check mount paths) (world, [])).2.2)
    (honest : host.kernel.Honest world) :
    let outcome := (perform host settings (.check mount paths) world).1
    let run := (Check.run host settings mount paths world).1
    (∀ requested supported,
      (Filesystem.init (Xfs.backend host.kernel) mount settings.hsm.apiVersion (.running world)).1 ≠
        .error (.unsupportedApiVersion requested supported)) ∧
    (∀ report ∈ run.reports, report.Coherent) ∧
    ∃ texts, outcome.stdout = String.join texts ∧
      List.Forall₂ (fun report text => ∃ document : Json, Json.Tree.ofText? text = some document.tree ∧
        report.ShownBy document ∧ document.Coherent report.stat) (run.reports.take texts.length) texts ∧
      (texts.length = run.reports.length ∨ outcome.ending = .fault .notUtf8) := by
  intro outcome run
  refine ⟨init_ne_unsupported accepted _ mount _, ?_⟩
  by_cases found : ∃ fsid start, Mounted host mount world fsid start
  · obtain ⟨fsid, start, mounted⟩ := found
    obtain ⟨visits, rest, last, reached, closed, requests, after, -, visited, closing, plain, noted⟩ :=
      mounted.run_visits accepted paths
    have asked : (perform host.recorded settings (.check mount paths) (world, [])).2.2 =
        .filesystemHandle mount :: (visits.flatMap (Visit.requests fsid) ++ requests) :=
      congrArg (fun run => run.2.2) noted
    have whole : run = ⟨visits.map Visit.report ++ closed.reports, visits.map Visit.document, closed.ending⟩ :=
      congrArg Prod.fst plain
    have made : outcome = run.outcome := rfl
    rw [asked] at steady
    clear_value run outcome
    subst whole
    have reports := fun visit member => (mounted.visits_report_eq _ visited steady honest visit member).1
    have coherent : ∀ visit ∈ visits, visit.report.Coherent := by
      intro visit member
      rw [reports visit member]
      exact CheckReport.alone_coherent ..
    refine ⟨?_, visits.map fun visit => visit.document.document, ?_, ?_, ?_⟩
    · refine List.forall_mem_append.mpr ⟨List.forall_mem_map.mpr coherent, fun report there => ?_⟩
      obtain ⟨path, stat, produced, rfl⟩ := closing.reports_of_mounted mounted visited steady honest report there
      exact CheckReport.alone_coherent path stat produced
    · rw [made, CheckRun.outcome, Outcome.ofDocuments, List.map_map]
      rfl
    · rw [List.length_map, List.take_left' (List.length_map _), List.forall₂_map_left_iff,
        List.forall₂_map_right_iff, List.forall₂_same]
      intro visit member
      have shown := CheckReport.shownBy (visited.written visit member)
      exact ⟨visit.document, Json.ofText?_document _, shown, (coherent visit member).document _ shown⟩
    · obtain none | last := closing.reports_eq_nil_or
      · exact .inl (by simp [none])
      · exact .inr (by rw [made]; exact last)
  · have failed : ∀ fsid start, ¬ Mounted host mount world fsid start :=
      fun fsid start mounted => found ⟨fsid, start, mounted⟩
    obtain ⟨failure, start, ended⟩ := run_of_not_mounted accepted failed paths
    have whole : run = ⟨[], [], .failure failure⟩ := congrArg Prod.fst ended
    have made : outcome = run.outcome := rfl
    clear_value run outcome
    subst whole
    rw [made]
    exact ⟨by simp, [], rfl, .nil, .inl rfl⟩

theorem perform_coherent_four_inodes :
    let paths : List RawText := ["a", "b", "c", "d"]
    let asked := (perform fiveFiles.recorded .default (.check "/mnt" paths) (fourInodes, [])).2.2
    let reports := (Check.run fiveFiles .default "/mnt" paths fourInodes).1.reports
    Settings.default.validate = .ok () ∧ fiveFiles.kernel.SteadyOver fourInodes asked ∧
    fiveFiles.kernel.Honest fourInodes ∧
    reports.map CheckReport.classification = [.candidate 512, .rejected .attributeUnavailable] ∧
    (∀ report ∈ reports, report.Coherent) ∧
    ∃ texts, (perform fiveFiles .default (.check "/mnt" paths) fourInodes).1.stdout = String.join texts ∧
      List.Forall₂ (fun report text => ∃ document : Json, Json.Tree.ofText? text = some document.tree ∧
        document.Coherent report.stat) (reports.take texts.length) texts := by
  intro paths asked reports
  have accepted : Settings.default.validate = .ok () := rfl
  have classified : reports.map CheckReport.classification = [.candidate 512, .rejected .attributeUnavailable] := by
    decide +kernel
  have steady : fiveFiles.kernel.Steady fourInodes := Xfs.Script.steady fourInodes
  have coherently := perform_coherent fiveFiles accepted "/mnt" paths fourInodes
  have same : (perform fiveFiles.recorded .default (.check "/mnt" paths) (fourInodes, [])).2.2 = asked := rfl
  rw [same] at coherently
  clear_value asked
  obtain ⟨-, coherent, texts, printed, shown, -⟩ := coherently (steady asked) fourInodes_honest
  refine ⟨accepted, steady asked, fourInodes_honest, classified, coherent, texts, printed, shown.imp ?_⟩
  rintro report text ⟨document, read, -, fits⟩
  exact ⟨document, read, fits⟩

end Command

end Residency
