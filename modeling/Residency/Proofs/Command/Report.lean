import Residency.Command
import Residency.Proofs.Estimate
import Residency.Proofs.Paging
import Residency.Proofs.Session.Replay

/-!
# The report on one file

If the read of a file's attribute writes every byte it reports, the report does
not depend on the context that it is made in (`check_eq_alone`), and what it says
of the file fits together (`CheckReport.alone_coherent`).
-/

namespace Residency

/-! ## Reports without a past -/

/-- Reads of every attribute bring the same. -/
def Backend.bringing {ε : Type} (produced : Fill ε) : Backend Unit ε where
  resolveMount _ world := (.ok (.ofPadded 8 []), world)
  makeHandle _ _ _ world := (.ok [], world)
  readAttribute _ _ _ _ world := (produced, world)

/-- The report on a file that is checked first of all, by what the read of its
attribute brings. -/
def CheckReport.alone {ε : Type} (path : RawText) (stat : InodeStat) (produced : Fill ε) : CheckReport :=
  (Filesystem.blank.allocate.check (.bringing produced) path stat ()).1.1

def FileContext.report (context : FileContext) (path : RawText) (stat : InodeStat) (classification : Classification)
    (offset : Option Int64) : CheckReport where
  path := path
  stat := stat
  classification := classification
  spaceEstimate := Filesystem.estimateSpace stat
  offsetEstimate := offset
  projectedMask := (context.projectMetadata stat).dmevmask
  filter := context.filterAttribute managedAttributeName (UInt32.ofNat context.rawAttribute.length) .root
  replacement := (context.newAttribute? 0 .root).map NewAttribute.value
  extents := context.projectExtents (wholeMap stat.size)

section
variable {σ ε : Type} (backend : Backend σ ε) (context : FileContext) (path : RawText) (stat : InodeStat) (world : σ)

theorem check_eq :
    let classified := context.classify backend stat world
    let estimated := classified.1.2.filesystem.estimateOffset backend stat 0 classified.2
    context.check backend path stat world =
      ((classified.1.2.report path stat classified.1.1 estimated.1, classified.1.2), estimated.2) := rfl

theorem check_filesystem : (context.check backend path stat world).1.2.filesystem = context.filesystem :=
  FileContext.classify_filesystem backend context stat world

end

theorem report_congr {a b : FileContext} (same : a.candidate? = b.candidate?)
    (visible : a.rawAttribute = b.rawAttribute) (path : RawText) (stat : InodeStat) (classification : Classification)
    (offset : Option Int64) :
    a.report path stat classification offset = b.report path stat classification offset := by
  have size : a.fileSize? = b.fileSize? := by
    unfold FileContext.fileSize?
    rw [same]
  unfold FileContext.report
  rw [FileContext.projectMetadata_congr same, FileContext.filterAttribute_congr same,
    FileContext.newAttribute?_congr same, FileContext.projectExtents_congr size, visible]

theorem conclude_congr (f g : Filesystem) (stat : InodeStat) {a b : AttributeBuffer} (visible : a.toList = b.toList)
    (verdict : Except Disqualification View) :
    let left := FileContext.conclude f stat a verdict
    let right := FileContext.conclude g stat b verdict
    left.1 = right.1 ∧ left.2.candidate? = right.2.candidate? ∧ left.2.rawAttribute = right.2.rawAttribute := by
  cases verdict with
  | error reason => exact ⟨rfl, rfl, visible⟩
  | ok view => exact ⟨rfl, rfl, visible⟩

theorem settle_honest {ε : Type} {produced : Fill ε} (honest : produced.Honest) {a b : AttributeBuffer}
    (visible : a.toList = b.toList) (stat : InodeStat) :
    (settle a stat (some produced)).1 = (settle b stat (some produced)).1 ∧
      (settle a stat (some produced)).2.toList = (settle b stat (some produced)).2.toList := by
  unfold settle
  cases quickReject stat with
  | some reason => exact ⟨rfl, visible⟩
  | none => exact judgeFetch_honest honest a b

section
variable {σ σ' ε : Type} {backend : Backend σ ε} {other : Backend σ' ε} {a b : FileContext} {stat : InodeStat}
  {world : σ} {world' : σ'} {produced : Fill ε}

theorem classify_congr (honest : produced.Honest)
    (left : backend.fetch a.filesystem.fsid stat world = some produced)
    (right : other.fetch b.filesystem.fsid stat world' = some produced) :
    (a.classify backend stat world).1.1 = (b.classify other stat world').1.1 ∧
      (a.classify backend stat world).1.2.candidate? = (b.classify other stat world').1.2.candidate? ∧
      (a.classify backend stat world).1.2.rawAttribute = (b.classify other stat world').1.2.rawAttribute := by
  have cleared : a.buffer.clear.toList = b.buffer.clear.toList := by simp
  obtain ⟨verdict, visible⟩ := settle_honest honest cleared stat
  rw [FileContext.classify_eq, FileContext.classify_eq]
  simp only [evaluate_eq_settle, left, right, verdict]
  exact conclude_congr _ _ stat visible _

theorem estimateOffset_congr (honest : produced.Honest) {f g : Filesystem}
    (left : backend.fetch f.fsid stat world = some produced)
    (right : other.fetch g.fsid stat world' = some produced) (byteCount : Int64) :
    (f.estimateOffset backend stat byteCount world).1 = (g.estimateOffset other stat byteCount world').1 := by
  have verdict := (classify_congr (a := f.allocate) (b := g.allocate) honest left right).1
  unfold Filesystem.estimateOffset
  simp only [verdict]

theorem check_eq_alone (honest : produced.Honest) (path : RawText)
    (first : backend.fetch a.filesystem.fsid stat world = some produced)
    (second : backend.fetch a.filesystem.fsid stat (a.classify backend stat world).2 = some produced) :
    (a.check backend path stat world).1.1 = .alone path stat produced := by
  let fresh := Filesystem.blank.allocate.classify (.bringing produced) stat ()
  have brought (fsid : FsId) : (Backend.bringing produced).fetch fsid stat () = some produced := rfl
  obtain ⟨verdict, candidate, visible⟩ := classify_congr (b := Filesystem.blank.allocate) honest first (brought _)
  have kept := FileContext.classify_filesystem backend a stat world
  have offset := estimateOffset_congr (g := fresh.1.2.filesystem) honest (kept ▸ second) (brought _) 0
  unfold CheckReport.alone
  rw [check_eq, check_eq]
  simp only [verdict, offset]
  exact report_congr candidate visible ..

end

/-! ## What a report says -/

/-- What stands in a document behind some keys. -/
def Json.at? : List String → Json → Option Json
  | [], value => some value
  | key :: keys, .object members => (members.lookup key).bind (at? keys)
  | _ :: _, _ => none

/-- A page of an extent map that begins with one extent at offset 0. -/
def Json.oneExtent (entries block length : Int) : Json := .object [
  ("entries", .number entries),
  ("extent", .object [
    ("block", .number block),
    ("count", .number 0),
    ("entries", .number 0),
    ("iflags", .number 0),
    ("length", .number length),
    ("offset", .number 0),
    ("oflags", .number 0)])]

/-- What the document of a report says of a file. -/
structure Json.Coherent (stat : InodeStat) (document : Json) : Prop where
  size : document.at? ["size"] = some (.number stat.size.toInt)
  before : document.at? ["dmevmask", "before"] = some (.number stat.dmevmask.toNat)
  estimated : document.at? ["classification"] = some (.text "candidate") ↔
    document.at? ["offset_estimate"] ≠ some .null
  skipped : document.at? ["classification"] = some (.text "candidate") ↔
    document.at? ["dmf_attribute"] = some (.text "Skip")
  replaced : document.at? ["classification"] = some (.text "candidate") ↔
    document.at? ["replacement"] ≠ some .null
  candidate : document.at? ["classification"] = some (.text "candidate") →
    document.at? ["offset_estimate"] = document.at? ["size"] ∧
    document.at? ["space_estimate"] = some (.number 0) ∧
    document.at? ["dmevmask", "after"] = some (.number (2 ^ 16 + 2 ^ 17 + 2 ^ 18 + 2 ^ 20)) ∧
    (0 < stat.size → document.at? ["extents"] = some (oneExtent 1 (-1) (basicBlocks stat.size).toInt)) ∧
    (stat.size ≤ 0 → document.at? ["extents"] = some (oneExtent 0 0 (basicBlocks stat.size).toInt))
  other : document.at? ["classification"] ≠ some (.text "candidate") →
    document.at? ["dmf_attribute"] = some (.text "Keep") ∧
    document.at? ["dmevmask", "after"] = document.at? ["dmevmask", "before"] ∧
    document.at? ["extents"] = some (oneExtent 1 0 (basicBlocks stat.size).toInt)

/-- Every part of a report, where it stands in a document. -/
structure CheckReport.ShownBy (report : CheckReport) (document : Json) : Prop where
  path : ∃ path, report.path.text? = some path ∧ document.at? ["path"] = some (.text path)
  ino : document.at? ["ino"] = some (.number report.stat.ino.toNat)
  size : document.at? ["size"] = some (.number report.stat.size.toInt)
  classification : document.at? ["classification"] = some (.text (classificationText report.classification))
  space : document.at? ["space_estimate"] = some (.ofOption (fun size => .number size.toInt) report.spaceEstimate)
  offset : document.at? ["offset_estimate"] = some (.ofOption (fun size => .number size.toInt) report.offsetEstimate)
  before : document.at? ["dmevmask", "before"] = some (.number report.stat.dmevmask.toNat)
  after : document.at? ["dmevmask", "after"] = some (.number report.projectedMask.toNat)
  filter : document.at? ["dmf_attribute"] = some (.text (filterText report.filter))
  replacement : document.at? ["replacement"] = some (.ofOption .ofBytes report.replacement)
  extents : document.at? ["extents"] = some (extentsJson report.extents)

theorem CheckReport.shownBy {report : CheckReport} {document : Json} (shown : report.toJson = .ok document) :
    report.ShownBy document := by
  unfold toJson at shown
  cases named : report.path.text? with
  | none =>
    rw [named] at shown
    cases shown
  | some path =>
    rw [named] at shown
    cases shown
    exact ⟨⟨path, named, rfl⟩, rfl, rfl, rfl, rfl, rfl, rfl, rfl, rfl, rfl, rfl⟩

/-- A report whose parts fit together, made without an error on the way. -/
structure CheckReport.Coherent (report : CheckReport) : Prop where
  filter : ∃ filter, report.filter = .ok filter
  extents : ∃ page, report.extents = .ok page
  document : ∀ document, report.ShownBy document → document.Coherent report.stat

/-- A text that has a first letter, and not that of "candidate". -/
def BeginsOtherwise (text : String) : Prop := ∃ first, text.toList.head? = some first ∧ first ≠ 'c'

theorem BeginsOtherwise.append {front : String} (begins : BeginsOtherwise front) (rest : String) :
    BeginsOtherwise (front ++ rest) := by
  obtain ⟨first, head, other⟩ := begins
  refine ⟨first, ?_, other⟩
  rw [String.toList_append, List.head?_append, head, Option.some_or]

theorem BeginsOtherwise.ne_candidate {text : String} (begins : BeginsOtherwise text) : text ≠ "candidate" := by
  rintro rfl
  obtain ⟨first, head, other⟩ := begins
  exact other (Option.some.inj head).symm

theorem LayoutError.message_begins (error : LayoutError) : BeginsOtherwise error.message := by
  cases error with
  | tooShort length needed =>
    have front : BeginsOtherwise "attribute value too short: " := ⟨'a', by decide, by decide⟩
    exact (((front.append _).append _).append _).append _
  | unsupportedFormat version =>
    have front : BeginsOtherwise "unsupported attribute format version: " := ⟨'u', by decide, by decide⟩
    exact front.append _
  | badLength format length =>
    have front : BeginsOtherwise "bad length " := ⟨'b', by decide, by decide⟩
    exact ((front.append _).append _).append _

theorem Disqualification.message_ne_candidate (reason : Disqualification) : reason.message ≠ "candidate" := by
  cases reason with
  | notRegularFile | noAttributeFork | noManagedEvents | handleUnavailable | attributeUnavailable => decide
  | attributeTooLarge length =>
    have front : BeginsOtherwise "attribute of " := ⟨'a', by decide, by decide⟩
    exact ((front.append _).append _).ne_candidate
  | foreignFilesystem fsys =>
    have front : BeginsOtherwise "unsupported filesystem type " := ⟨'u', by decide, by decide⟩
    exact (front.append _).ne_candidate
  | layout error => exact error.message_begins.ne_candidate
  | stateNotProjectable state =>
    have front : BeginsOtherwise "DMF state " := ⟨'D', by decide, by decide⟩
    exact ((front.append _).append _).ne_candidate

section
variable {report : CheckReport}

theorem CheckReport.coherent_candidate {value : List UInt8}
    (classification : report.classification = .candidate report.stat.size)
    (space : report.spaceEstimate = some 0) (offset : report.offsetEstimate = some report.stat.size)
    (mask : report.projectedMask = InodeStat.offlineEventMask) (filter : report.filter = .ok .skip)
    (replacement : report.replacement = some value)
    (extents : report.extents = .ok (if 0 < report.stat.size
      then [.header 2 1, .extent 0 ExtentRecord.holeBlock (basicBlocks report.stat.size)]
      else [.header 2 0, .extent 0 0 (basicBlocks report.stat.size)])) : report.Coherent := by
  refine ⟨⟨_, filter⟩, ⟨_, extents⟩, ?_⟩
  rintro document ⟨-, -, size, said, none, estimate, before, after, word, added, map⟩
  rw [classification] at said
  rw [mask] at after
  rw [filter] at word
  rw [offset] at estimate
  rw [replacement] at added
  rw [space] at none
  have candidate : document.at? ["classification"] = some (.text "candidate") := said
  refine ⟨size, before, ?_, ?_, ?_, ?_, ?_⟩
  · rw [estimate]
    simp [candidate, Json.ofOption]
  · rw [word]
    simp [candidate, filterText, AttributeFilter.word]
  · rw [added]
    simp [candidate, Json.ofOption, Json.ofBytes]
  · intro _
    rw [estimate, size]
    refine ⟨rfl, none, after, ?_, ?_⟩
    · intro positive
      rw [map, extents, if_pos positive]
      rfl
    · intro empty
      rw [map, extents, if_neg (Int64.not_lt.mpr empty)]
      rfl
  · intro other
    exact absurd candidate other

theorem CheckReport.coherent_rejected {reason : Disqualification}
    (classification : report.classification = .rejected reason) (offset : report.offsetEstimate = none)
    (mask : report.projectedMask = report.stat.dmevmask) (filter : report.filter = .ok .keep)
    (replacement : report.replacement = none) (extents : report.extents = .ok (wholeMap report.stat.size)) :
    report.Coherent := by
  refine ⟨⟨_, filter⟩, ⟨_, extents⟩, ?_⟩
  rintro document ⟨-, -, size, said, -, estimate, before, after, word, added, map⟩
  rw [classification] at said
  rw [mask] at after
  rw [filter] at word
  rw [offset] at estimate
  rw [replacement] at added
  rw [extents] at map
  have other : document.at? ["classification"] ≠ some (.text "candidate") := by
    rw [said]
    simp [classificationText, reason.message_ne_candidate]
  refine ⟨size, before, ?_, ?_, ?_, ?_, ?_⟩
  · rw [estimate]
    simp [other, Json.ofOption]
  · rw [word]
    simp [other, filterText, AttributeFilter.word]
  · rw [added]
    simp [other, Json.ofOption]
  · intro candidate
    exact absurd candidate other
  · intro _
    exact ⟨word, after.trans before.symm, map⟩

end

/-! ## The parts of a report -/

section
variable {context : FileContext} {stat : InodeStat} {view : View}

theorem projectExtents_wholeMap (candidate : context.candidate? = some (stat.size, view)) :
    context.projectExtents (wholeMap stat.size) = .ok (if 0 < stat.size
      then [.header 2 1, .extent 0 ExtentRecord.holeBlock (basicBlocks stat.size)]
      else [.header 2 0, .extent 0 0 (basicBlocks stat.size)]) := by
  have size : context.fileSize? = some stat.size := by
    unfold FileContext.fileSize?
    rw [candidate]
    rfl
  have announced : (0 : Int32) < (ExtentRecord.header 2 1).entries := by decide
  have blocks := basicBlocks_pos_iff stat.size
  have remaining : saturatingSub (basicBlocks stat.size) 0 = basicBlocks stat.size := saturatingSub_zero _
  unfold wholeMap
  rw [FileContext.projectExtents_candidate size announced]
  by_cases positive : 0 < stat.size
  · have before : (ExtentRecord.extent 0 0 (basicBlocks stat.size)).offset < basicBlocks stat.size :=
      blocks.mpr positive
    rw [if_pos positive, FileContext.collapse_before_end _ before]
    simp only [holeUpTo, ExtentRecord.extent, ExtentRecord.header, remaining]
  · have past : basicBlocks stat.size ≤ (ExtentRecord.extent 0 0 (basicBlocks stat.size)).offset :=
      Int64.not_lt.mp (mt blocks.mp positive)
    rw [if_neg positive, FileContext.collapse_past_end _ past]
    simp only [ExtentRecord.header]

theorem projectExtents_of_none (passed : context.candidate? = none) (page : List ExtentRecord)
    (slots : 2 ≤ page.length) : context.projectExtents page = .ok page := by
  have size : context.fileSize? = none := by
    unfold FileContext.fileSize?
    rw [passed]
    rfl
  match page with
  | header :: first :: rest => exact FileContext.projectExtents_idle (.inr size) first rest
  | [] | [_] => simp at slots

theorem report_coherent_candidate (candidate : context.candidate? = some (stat.size, view))
    (backed : Backed stat context.rawAttribute (.ok view)) (path : RawText) :
    (context.report path stat (.candidate stat.size) (some stat.size)).Coherent := by
  obtain ⟨managed, read, -, -⟩ := backed
  have fits := length_rawAttribute_le context
  -- what was accepted has the length of a header, so the filter does not find it corrupt
  have header : Layout.format0Length ≤ context.rawAttribute.length := by
    unfold Layout.format0Length
    rcases View.decode_eq_ok read with ⟨-, length, -⟩ | ⟨-, length, -⟩ <;> omega
  have length : (UInt32.ofNat context.rawAttribute.length).toNat = context.rawAttribute.length :=
    UInt32.toNat_ofNat_of_lt' (by unfold UInt32.size; omega)
  have space := (estimateSpace_eq_zero_iff stat).mpr managed
  have added := FileContext.newAttribute?_candidate candidate
  refine CheckReport.coherent_candidate rfl space rfl ?_ ?_ (congrArg (Option.map NewAttribute.value) added) ?_
  · exact congrArg InodeStat.dmevmask (FileContext.projectMetadata_candidate candidate stat)
  · exact FileContext.filterAttribute_candidate candidate (by rw [length]; exact header)
  · exact projectExtents_wholeMap candidate

theorem report_coherent_rejected (passed : context.candidate? = none) (reason : Disqualification) (path : RawText) :
    (context.report path stat (.rejected reason) none).Coherent := by
  have added : context.newAttribute? 0 .root = none := by simp [FileContext.newAttribute?, passed]
  have kept : context.projectMetadata stat = stat := by
    simp [FileContext.projectMetadata, FileContext.isCandidate, passed]
  refine CheckReport.coherent_rejected rfl rfl ?_ ?_ (congrArg (Option.map NewAttribute.value) added) ?_
  · exact congrArg InodeStat.dmevmask kept
  · simp [FileContext.report, FileContext.filterAttribute, FileContext.isCandidate, passed]
  · exact projectExtents_of_none passed (wholeMap stat.size) (Nat.le_refl 2)

end

theorem classify_cases {σ ε : Type} (backend : Backend σ ε) (context : FileContext) (stat : InodeStat) (world : σ) :
    let classified := (context.classify backend stat world).1
    (classified.1 = .candidate stat.size ∧ ∃ view, classified.2.candidate? = some (stat.size, view) ∧
      Backed stat classified.2.rawAttribute (.ok view)) ∨
    ∃ reason, classified.1 = .rejected reason ∧ classified.2.candidate? = none := by
  have backed := FileContext.evaluate_backed backend context.filesystem
    (AttributeBuffer.toList_clear context.buffer) stat world
  rw [FileContext.classify_eq]
  cases verdict : (FileContext.evaluate backend context.filesystem context.buffer.clear stat world).1.1 with
  | error reason => exact .inr ⟨reason, rfl, rfl⟩
  | ok view =>
    rw [verdict] at backed
    exact .inl ⟨rfl, view, rfl, backed⟩

theorem CheckReport.alone_coherent {ε : Type} (path : RawText) (stat : InodeStat) (produced : Fill ε) :
    (alone path stat produced).Coherent := by
  let fresh := Filesystem.blank.allocate.classify (.bringing produced) stat ()
  have kept : fresh.1.2.filesystem = .blank := FileContext.classify_filesystem ..
  -- the estimate classifies in a context like this one, so both verdicts are one
  have offset : (fresh.1.2.filesystem.estimateOffset (.bringing produced) stat 0 fresh.2).1 =
      if fresh.1.1.isCandidate then some stat.size else none := by
    rw [kept]
    rfl
  unfold alone
  rw [check_eq]
  show (fresh.1.2.report path stat fresh.1.1 _).Coherent
  rw [offset]
  rcases classify_cases (.bringing produced) Filesystem.blank.allocate stat () with
    ⟨verdict, view, candidate, backed⟩ | ⟨reason, verdict, passed⟩
  · rw [verdict]
    exact report_coherent_candidate candidate backed path
  · rw [verdict]
    exact report_coherent_rejected passed reason path

end Residency
