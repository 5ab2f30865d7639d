import Residency.Proofs.Attribute.Rewriting
import Residency.Proofs.Classify
import Residency.Session

/-!
# Projected metadata and attributes

What a dump sees of a candidate, what passes through of every other file, and the
attributes that a dump writes.
-/

/-!
## What a projection depends on

Projections look at a context's size and view as a candidate and at nothing else
of it.
-/

namespace Residency.FileContext

variable {a b : FileContext}

section
variable (same : a.candidate? = b.candidate?)
include same

theorem projectMetadata_congr (stat : InodeStat) : a.projectMetadata stat = b.projectMetadata stat := by
  unfold projectMetadata isCandidate
  rw [same]

theorem filterAttribute_congr (name : String) (size : UInt32) (space : Namespace) :
    a.filterAttribute name size space = b.filterAttribute name size space := by
  unfold filterAttribute isCandidate
  rw [same]

theorem newAttribute?_congr (cursor : UInt32) (space : Namespace) :
    a.newAttribute? cursor space = b.newAttribute? cursor space := by
  unfold newAttribute?
  rw [same]

end

theorem projectExtents_congr (same : a.fileSize? = b.fileSize?) (page : List ExtentRecord) :
    a.projectExtents page = b.projectExtents page := by
  unfold projectExtents
  rw [same]

end Residency.FileContext

/-!
## A restored placeholder

A candidate is restored with the record and the attribute that its dump
contained. Dumping it once more gives the same dump: the projection is a
fixpoint of classification and projection. Main statement: `reclassify_restored`.
-/

namespace Residency.FileContext

variable {σ ε : Type} {backend : Backend σ ε}

/-! ### Candidates -/

theorem classify_eq_candidate {context : FileContext} {stat : InodeStat} {world : σ} {fileSize : Int64}
    (candidate : (context.classify backend stat world).1.1 = .candidate fileSize) :
    fileSize = stat.size ∧ ∃ raw view, Backed stat raw (.ok view) ∧
      (context.classify backend stat world).1.2.candidate? = some (stat.size, view) := by
  have backed := evaluate_backed backend context.filesystem (AttributeBuffer.toList_clear context.buffer)
    stat world
  rw [classify_eq] at candidate ⊢
  cases verdict : (evaluate backend context.filesystem context.buffer.clear stat world).1.1 with
  | error reason => rw [verdict] at candidate; cases candidate
  | ok view =>
    rw [verdict] at candidate backed
    cases candidate
    exact ⟨rfl, _, view, backed, rfl⟩

theorem judgeFetch_serves {value : List UInt8} {produced : Fill ε} (serves : produced.Serves value)
    (fits : value.length ≤ bufferCapacity) (buffer : AttributeBuffer) :
    (judgeFetch buffer produced).1 = judge value := by
  rw [judgeFetch_eq, AttributeBuffer.fill_serves serves fits, AttributeBuffer.toList_fill_serves serves fits]

theorem classify_provides {context : FileContext} {stat : InodeStat} {world : σ} {value : List UInt8}
    {view : View} (managed : stat.MayBeManaged)
    (provides : backend.Provides context.filesystem.fsid stat.ino stat.generation value world)
    (fits : value.length ≤ bufferCapacity) (accepted : judge value = .ok view) :
    (context.classify backend stat world).1.1 = .candidate stat.size ∧
      (context.classify backend stat world).1.2.candidate? = some (stat.size, view) := by
  obtain ⟨handle, world₁, made, serves⟩ := provides
  have quick := (quickReject_eq_none_iff stat).mpr managed
  have verdict : (evaluate backend context.filesystem context.buffer.clear stat world).1.1 = .ok view := by
    simp only [evaluate, quick, made]
    rw [judgeFetch_serves serves fits, accepted]
  rw [classify_eq, verdict]
  exact ⟨rfl, rfl⟩

/-! ### Projections of a candidate -/

section
variable {context : FileContext} {fileSize : Int64} {view : View}
  (candidate : context.candidate? = some (fileSize, view))
include candidate

theorem projectMetadata_candidate (stat : InodeStat) :
    context.projectMetadata stat = { stat with dmevmask := InodeStat.offlineEventMask } := by
  simp [projectMetadata, isCandidate, candidate]

theorem newAttribute?_candidate : context.newAttribute? 0 .root =
    some ⟨managedAttributeName, .root, (view.offlineReplacement fileSize).encode⟩ := by
  simp [newAttribute?, candidate]

theorem filterAttribute_candidate {size : UInt32} (header : Layout.format0Length ≤ size.toNat) :
    context.filterAttribute managedAttributeName size .root = .ok .skip := by
  simp [filterAttribute, isCandidate, candidate, Nat.not_lt.mpr header]

end

/-! ### The restored file -/

theorem mayBeManaged_offline {stat : InodeStat} (managed : stat.MayBeManaged) :
    InodeStat.MayBeManaged { stat with dmevmask := InodeStat.offlineEventMask } := by
  refine ⟨managed.1, managed.2.1, ?_⟩
  show (InodeStat.offlineEventMask &&& InodeStat.offlineEventMask != 0) = true
  decide

theorem judge_offlineReplacement {stat : InodeStat} {raw : List UInt8} {view : View}
    (backed : Backed stat raw (.ok view)) (fileSize : Int64) :
    judge (view.offlineReplacement fileSize).encode = .ok (view.offlineReplacement fileSize) := by
  -- the replacement keeps the filesystem type, and that was the first byte of what was read
  obtain ⟨_, read, own, _⟩ := backed
  obtain ⟨rest, rfl⟩ := List.head?_eq_some_iff.mp own
  obtain ⟨fsys, state⟩ := view.header_offlineReplacement fileSize
  refine judge_eq_ok ?_ (View.decode_encode_offlineReplacement read fileSize) (.inr (.inl state))
  rw [View.encode_head?, fsys, View.header_decode read, Header.fsys_decode]

/-- A candidate that is restored and dumped once more, on any context and from
any filesystem that serves what was restored, is dumped as it was. -/
theorem reclassify_restored {context : FileContext} {stat : InodeStat} {world : σ} {fileSize : Int64}
    (candidate : (context.classify backend stat world).1.1 = .candidate fileSize) :
    let first := (context.classify backend stat world).1.2
    let restored := first.projectMetadata stat
    ∃ added, first.newAttribute? 0 .root = some added ∧
      ∀ {σ' ε' : Type} (other : Backend σ' ε') (reused : FileContext) (world' : σ'),
        other.Provides reused.filesystem.fsid restored.ino restored.generation added.value world' →
        let second := (reused.classify other restored world').1.2
        (reused.classify other restored world').1.1 = .candidate fileSize ∧
          second.newAttribute? 0 .root = some added ∧ second.projectMetadata restored = restored ∧
          second.filterAttribute managedAttributeName added.valueSize .root = .ok .skip ∧
          ∀ page, second.projectExtents page = first.projectExtents page := by
  intro first restored
  obtain ⟨rfl, raw, view, backed, held⟩ := classify_eq_candidate candidate
  have restored_eq : restored = { stat with dmevmask := InodeStat.offlineEventMask } :=
    projectMetadata_candidate held stat
  refine ⟨_, newAttribute?_candidate held, ?_⟩
  intro σ' ε' other reused world' provides second
  have length : (view.offlineReplacement stat.size).encode.length = 22 ∨
      (view.offlineReplacement stat.size).encode.length = 48 := by
    rw [View.length_encode]; exact view.encodedLength_offlineReplacement stat.size
  have fits : (view.offlineReplacement stat.size).encode.length ≤ bufferCapacity := by
    unfold bufferCapacity; omega
  have managed : restored.MayBeManaged := by rw [restored_eq]; exact mayBeManaged_offline backed.1
  have size : restored.size = stat.size := by rw [restored_eq]
  obtain ⟨again, kept⟩ := classify_provides managed provides fits
    (judge_offlineReplacement backed stat.size)
  rw [size] at again kept
  refine ⟨again, ?_, ?_, ?_, ?_⟩
  · rw [newAttribute?_candidate kept, View.offlineReplacement_twice]
  · rw [projectMetadata_candidate kept, restored_eq]
  · refine filterAttribute_candidate kept ?_
    rw [NewAttribute.valueSize]
    obtain length | length := length <;> rw [length] <;> decide
  · refine projectExtents_congr ?_
    rw [fileSize?, fileSize?, kept, held]; rfl

/-- A site tag and two regions, the first online as well. -/
def siteView : View :=
  .format1 ⟨⟨1, 1, 6, 0, ⟨zeros 16, length_zeros 16⟩⟩, 7, 2⟩
    [⟨0, 256, 2, 0, 0⟩, ⟨256, 256, 3, 7, 0⟩]

theorem classify_siteView {stat : InodeStat} (managed : stat.MayBeManaged) (context : FileContext) :
    (context.classify .sameValue stat siteView.encode).1.2.candidate? = some (stat.size, siteView) := by
  have fits : siteView.encode.length ≤ bufferCapacity := by rw [View.length_encode]; decide
  have accepted : judge siteView.encode = .ok siteView := by rfl
  exact (classify_provides managed (Backend.sameValue_provides _ _ _ _) fits accepted).2

theorem reclassify_restored_site :
    let fresh := (Filesystem.mk 1 ⟨zeros 8, length_zeros 8⟩).allocate
    let first := (fresh.classify .sameValue .sample siteView.encode).1.2
    let restored := first.projectMetadata .sample
    ∃ added, first.newAttribute? 0 .root = some added ∧
      (first.classify .sameValue restored added.value).1.1 = .candidate 512 := by
  intro fresh first restored
  have fits : siteView.encode.length ≤ bufferCapacity := by rw [View.length_encode]; decide
  have accepted : judge siteView.encode = .ok siteView := by rfl
  have candidate : (fresh.classify .sameValue .sample siteView.encode).1.1 = .candidate 512 :=
    (classify_provides InodeStat.sample_mayBeManaged (Backend.sameValue_provides _ _ _ _) fits accepted).1
  obtain ⟨added, eq, again⟩ := reclassify_restored candidate
  exact ⟨added, eq, (again _ _ _ (Backend.sameValue_provides _ _ _ _)).1⟩

end Residency.FileContext

/-!
## The attributes of a dumped file

A host asks about each attribute that a file has, in order, and then adds
attributes in every namespace until there is none left. A candidate's managed
attribute is replaced: whatever the file had, its dump has exactly one. Main
statement: `dumped_attributes`.
-/

namespace Residency

/-- An attribute as it is listed, without its value. -/
structure AttributeEntry where
  name : String
  size : UInt32
  space : Namespace
deriving DecidableEq

namespace AttributeEntry

def isManaged (entry : AttributeEntry) : Bool := entry.space = .root ∧ entry.name = managedAttributeName

/-- Managed and too short for a header. -/
def isCorrupt (entry : AttributeEntry) : Bool := entry.isManaged ∧ entry.size.toNat < 22

end AttributeEntry

def NewAttribute.entry (added : NewAttribute) : AttributeEntry := ⟨added.name, added.valueSize, added.space⟩

namespace FileContext

/-! ### The host's part -/

/-- The entries that are kept, up to the first error. -/
def keptEntries (context : FileContext) : List AttributeEntry → Except ProjectionError (List AttributeEntry)
  | [] => .ok []
  | entry :: rest =>
    match context.filterAttribute entry.name entry.size entry.space with
    | .error error => .error error
    | .ok .keep => (keptEntries context rest).map (entry :: ·)
    | .ok .skip => keptEntries context rest

theorem eq_zero_of_newAttribute? {context : FileContext} {cursor : UInt32} {space : Namespace}
    {added : NewAttribute} (there : context.newAttribute? cursor space = some added) : cursor = 0 := by
  unfold newAttribute? at there
  split at there
  case isTrue first => exact first.2
  case isFalse => cases there

/-- The attributes added in a namespace, counting up from a cursor until there is
none left. -/
def addedFrom (context : FileContext) (space : Namespace) (cursor : UInt32) : List NewAttribute :=
  match there : context.newAttribute? cursor space with
  | none => []
  | some added => added :: addedFrom context space (cursor + 1)
termination_by if cursor = 0 then 1 else 0
decreasing_by
  obtain rfl := eq_zero_of_newAttribute? there
  decide

def addedAttributes (context : FileContext) : List NewAttribute :=
  context.addedFrom .user 0 ++ context.addedFrom .root 0 ++ context.addedFrom .secure 0

/-! ### What is kept -/

variable {context : FileContext}

theorem filterAttribute_other (other : context.isCandidate = false) (name : String) (size : UInt32)
    (space : Namespace) : context.filterAttribute name size space = .ok .keep := by
  unfold filterAttribute
  simp [other]

theorem keptEntries_other (other : context.isCandidate = false) (existing : List AttributeEntry) :
    context.keptEntries existing = .ok existing := by
  induction existing with
  | nil => rfl
  | cons entry rest ih =>
    rw [keptEntries, filterAttribute_other other]
    simp only [ih]
    rfl

theorem filterAttribute_entry (candidate : context.isCandidate = true) (entry : AttributeEntry) :
    context.filterAttribute entry.name entry.size entry.space =
      if entry.isCorrupt then .error (.corruptAttribute managedAttributeName entry.size 22)
      else if entry.isManaged then .ok .skip
      else .ok .keep := by
  unfold filterAttribute AttributeEntry.isCorrupt AttributeEntry.isManaged
  by_cases managed : entry.space = .root ∧ entry.name = managedAttributeName
  · simp [candidate, managed, Layout.format0Length]
  · simp [managed]

theorem keptEntries_candidate (candidate : context.isCandidate = true) (existing : List AttributeEntry) :
    context.keptEntries existing =
      match existing.find? AttributeEntry.isCorrupt with
      | some entry => .error (.corruptAttribute managedAttributeName entry.size 22)
      | none => .ok (existing.filter fun entry => !entry.isManaged) := by
  induction existing with
  | nil => rfl
  | cons entry rest ih =>
    -- the first error wins, so whether an entry is corrupt comes before what is done with it
    rw [keptEntries, filterAttribute_entry candidate, List.find?_cons]
    cases corrupt : entry.isCorrupt with
    | true => rfl
    | false =>
      cases managed : entry.isManaged with
      | true => simp [ih, managed]
      | false =>
        simp only [ih, List.filter_cons, managed]
        cases rest.find? AttributeEntry.isCorrupt with
        | none => rfl
        | some first => rfl

theorem eq_filter_of_keptEntries (candidate : context.isCandidate = true) {existing kept : List AttributeEntry}
    (passed : context.keptEntries existing = .ok kept) :
    kept = existing.filter fun entry => !entry.isManaged := by
  rw [keptEntries_candidate candidate] at passed
  cases corrupt : existing.find? AttributeEntry.isCorrupt with
  | some entry => rw [corrupt] at passed; cases passed
  | none => rw [corrupt] at passed; cases passed; rfl

theorem mem_filter_of_space {entry : AttributeEntry} {existing : List AttributeEntry} (there : entry ∈ existing)
    (space : entry.space ≠ .root) : entry ∈ existing.filter fun entry => !entry.isManaged := by
  have other : entry.isManaged = false := by
    simp [AttributeEntry.isManaged, space]
  exact List.mem_filter.mpr ⟨there, by simp [other]⟩

/-! ### What is added -/

theorem addedFrom_of_none {cursor : UInt32} {space : Namespace}
    (ended : context.newAttribute? cursor space = none) : context.addedFrom space cursor = [] := by
  rw [addedFrom]
  split
  case h_1 => rfl
  case h_2 added there => rw [ended] at there; cases there

theorem addedFrom_of_some {cursor : UInt32} {space : Namespace} {added : NewAttribute}
    (there : context.newAttribute? cursor space = some added) :
    context.addedFrom space cursor = added :: context.addedFrom space (cursor + 1) := by
  rw [addedFrom]
  split
  case h_1 ended => rw [ended] at there; cases there
  case h_2 other same => rw [there] at same; cases same; rfl

theorem addedFrom_zero (context : FileContext) (space : Namespace) :
    context.addedFrom space 0 = (context.newAttribute? 0 space).toList := by
  cases there : context.newAttribute? 0 space with
  | none => exact addedFrom_of_none there
  | some added =>
    have ended : context.newAttribute? (0 + 1) space = none := by
      simp [newAttribute?]
    rw [addedFrom_of_some there, addedFrom_of_none ended]
    rfl

theorem addedAttributes_eq (context : FileContext) :
    context.addedAttributes = (context.newAttribute? 0 .root).toList := by
  have user : context.newAttribute? 0 .user = none := rfl
  have secure : context.newAttribute? 0 .secure = none := rfl
  rw [addedAttributes, addedFrom_zero, addedFrom_zero, addedFrom_zero, user, secure]
  simp

theorem length_value_newAttribute? {added : NewAttribute} {cursor : UInt32} {space : Namespace}
    (there : context.newAttribute? cursor space = some added) :
    added.value.length = 22 ∨ added.value.length = 48 := by
  unfold newAttribute? at there
  split at there
  · obtain ⟨⟨fileSize, view⟩, _, rfl⟩ := Option.map_eq_some_iff.mp there
    have length := View.length_encode (view.offlineReplacement fileSize)
    rw [length]
    exact view.encodedLength_offlineReplacement fileSize
  · cases there

/-- The dump of a candidate has exactly one managed attribute, the added one,
whatever the file had; an attribute of the same name in another namespace is kept.
A managed attribute that is too short stops the dump. Any other file keeps all. -/
theorem dumped_attributes (context : FileContext) (existing : List AttributeEntry) :
    if context.isCandidate then
      context.keptEntries existing =
        (match existing.find? AttributeEntry.isCorrupt with
        | some entry => .error (.corruptAttribute managedAttributeName entry.size 22)
        | none => .ok (existing.filter fun entry => !entry.isManaged)) ∧
      ∃ added, context.addedAttributes = [added] ∧ context.newAttribute? 0 .root = some added ∧
        added.entry.isManaged = true ∧ added.valueSize.toNat = added.value.length ∧
        ∀ kept, context.keptEntries existing = .ok kept →
          (kept ++ [added.entry]).countP AttributeEntry.isManaged = 1 ∧
          ∀ entry ∈ existing, entry.space ≠ .root → entry ∈ kept
    else context.keptEntries existing = .ok existing ∧ context.addedAttributes = [] := by
  cases held : context.candidate? with
  | none =>
    have other : context.isCandidate = false := by
      rw [isCandidate, held]; rfl
    have nothing : context.newAttribute? 0 .root = none := by
      simp [newAttribute?, held]
    rw [other, addedAttributes_eq, nothing]
    exact ⟨keptEntries_other other existing, rfl⟩
  | some candidate =>
    obtain ⟨fileSize, view⟩ := candidate
    have managedFile : context.isCandidate = true := by
      rw [isCandidate, held]; rfl
    let added : NewAttribute := ⟨managedAttributeName, .root, (view.offlineReplacement fileSize).encode⟩
    have new : context.newAttribute? 0 .root = some added := by
      simp [newAttribute?, held, added]
    have managed : added.entry.isManaged = true := by
      simp [NewAttribute.entry, AttributeEntry.isManaged, added]
    have length := length_value_newAttribute? new
    rw [managedFile, addedAttributes_eq, new]
    refine ⟨keptEntries_candidate managedFile existing, added, rfl, rfl, managed, ?_, ?_⟩
    · rw [NewAttribute.valueSize, UInt32.toNat_ofNat']
      exact Nat.mod_eq_of_lt (by omega)
    · intro kept passed
      obtain rfl := eq_filter_of_keptEntries managedFile passed
      have none : (existing.filter fun entry => !entry.isManaged).countP AttributeEntry.isManaged = 0 := by
        rw [List.countP_eq_zero]
        intro entry inside
        simpa using (List.mem_filter.mp inside).2
      refine ⟨?_, fun entry there space => mem_filter_of_space there space⟩
      rw [List.countP_append, none, List.countP_singleton, managed]
      rfl

/-- Two managed attributes, one of that name for users, and another one. -/
def someEntries : List AttributeEntry :=
  [⟨managedAttributeName, 48, .root⟩, ⟨managedAttributeName, 5, .user⟩, ⟨"SGI_ACL_FILE", 28, .root⟩,
    ⟨managedAttributeName, 22, .root⟩]

theorem dumped_attributes_some :
    let fresh := (Filesystem.mk 1 ⟨zeros 8, length_zeros 8⟩).allocate
    let context := (fresh.classify .sameValue .sample siteView.encode).1.2
    ∃ kept added, context.keptEntries someEntries = .ok kept ∧ context.addedAttributes = [added] ∧
      (kept ++ [added.entry]).countP AttributeEntry.isManaged = 1 ∧
      ⟨managedAttributeName, 5, .user⟩ ∈ kept := by
  intro fresh context
  have held : context.candidate? = some (InodeStat.sample.size, siteView) :=
    classify_siteView InodeStat.sample_mayBeManaged fresh
  -- nothing else is needed of how the context came about
  clear_value context
  have candidate : context.isCandidate = true := by
    rw [isCandidate, held]; rfl
  have dumped := context.dumped_attributes someEntries
  rw [if_pos candidate] at dumped
  obtain ⟨kept, added, new, _, _, _, one⟩ := dumped
  have sound : someEntries.find? AttributeEntry.isCorrupt = none := by decide +kernel
  rw [sound] at kept
  obtain ⟨count, others⟩ := one _ kept
  exact ⟨_, added, kept, new, count, others _ (by decide +kernel) (by decide)⟩

end FileContext

end Residency
