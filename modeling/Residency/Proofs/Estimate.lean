import Residency.Context
import Residency.Proofs.Classify

/-!
# Estimates and the services they call

When there is an estimate, and what is asked of the backend on the way to it.
-/

/-!
## Estimates against classifications

The offset estimate classifies in new storage, a stream in storage that keeps the
bytes of earlier files. An estimate is backed by every classification. The other
way round a read may report bytes that it did not write: a classification may
then accept what an earlier file left there, where the estimate sees zeros. The
two agree if the bytes that decide were written or are still zero
(`estimateOffset_agrees`).
-/

namespace Residency

/-! ### Both as functions of a fetch -/

theorem Backend.fetch_steady {σ ε : Type} {backend : Backend σ ε} (steady : backend.Steady) (fsid : FsId)
    (stat : InodeStat) (world world' : σ) : backend.fetch fsid stat world = backend.fetch fsid stat world' := by
  obtain ⟨handles, reads⟩ := steady
  have made := handles fsid stat.ino stat.generation world world'
  unfold Backend.fetch
  revert made
  obtain ⟨left, world₁⟩ := backend.makeHandle fsid stat.ino stat.generation world
  obtain ⟨right, world₂⟩ := backend.makeHandle fsid stat.ino stat.generation world'
  rintro rfl
  cases left with
  | error error => rfl
  | ok handle => exact congrArg some (reads handle managedAttributeName .root bufferCapacity world₁ world₂)

section
variable {σ ε : Type} (backend : Backend σ ε) (stat : InodeStat) (world : σ)

theorem classify_eq_candidate_iff (context : FileContext) :
    (context.classify backend stat world).1.1 = .candidate stat.size ↔
      outcome (settle context.buffer.clear stat (backend.fetch context.filesystem.fsid stat world)).1 = .ok () := by
  rw [FileContext.classify_eq, ← evaluate_eq_settle]
  exact conclude_eq_candidate_iff ..

theorem classify_isCandidate (context : FileContext) :
    (context.classify backend stat world).1.1.isCandidate = true ↔
      (context.classify backend stat world).1.1 = .candidate stat.size := by
  rw [FileContext.classify_eq]
  cases (FileContext.evaluate backend context.filesystem context.buffer.clear stat world).1.1 with
  | error reason => simp [FileContext.conclude, Classification.isCandidate]
  | ok view => simp [FileContext.conclude, Classification.isCandidate]

theorem classify_eq_rejected_iff (context : FileContext) :
    (∃ reason, (context.classify backend stat world).1.1 = .rejected reason) ↔
      (context.classify backend stat world).1.1 ≠ .candidate stat.size := by
  rw [FileContext.classify_eq]
  cases (FileContext.evaluate backend context.filesystem context.buffer.clear stat world).1.1 with
  | error reason => simp [FileContext.conclude]
  | ok view => simp [FileContext.conclude]

theorem estimateOffset_eq_some_iff (filesystem : Filesystem) (byteCount : Int64) :
    (filesystem.estimateOffset backend stat byteCount world).1 = some stat.size ↔
      outcome (settle .empty stat (backend.fetch filesystem.fsid stat world)).1 = .ok () := by
  have fresh := classify_eq_candidate_iff backend stat world filesystem.allocate
  rw [← classify_isCandidate] at fresh
  refine Iff.trans ?_ fresh
  show (if (filesystem.allocate.classify backend stat world).1.1.isCandidate then some stat.size else none) =
    some stat.size ↔ _
  cases (filesystem.allocate.classify backend stat world).1.1.isCandidate with
  | false => simp
  | true => simp

theorem estimateOffset_eq_none_iff (filesystem : Filesystem) (byteCount : Int64) :
    (filesystem.estimateOffset backend stat byteCount world).1 = none ↔
      (filesystem.estimateOffset backend stat byteCount world).1 ≠ some stat.size := by
  show (if (filesystem.allocate.classify backend stat world).1.1.isCandidate then some stat.size else none) =
    none ↔ (if (filesystem.allocate.classify backend stat world).1.1.isCandidate then some stat.size else none) ≠
    some stat.size
  cases (filesystem.allocate.classify backend stat world).1.1.isCandidate with
  | false => simp
  | true => simp

end

theorem estimateSpace_eq_zero_iff (stat : InodeStat) :
    Filesystem.estimateSpace stat = some 0 ↔ stat.MayBeManaged := by
  rw [← quickReject_eq_none_iff]
  unfold Filesystem.estimateSpace
  cases quickReject stat with
  | none => simp
  | some reason => simp

/-! ### What new storage accepts -/

section
variable {ε : Type} {produced : Fill ε}

/-- A candidate's state does not end in zero, so a read that writes from the start
on has written it, and with it all that decides. -/
theorem levels_of_accepted (front : produced.WritesFront) {view : View}
    (accepted : (judgeFetch .empty produced).1 = .ok view) (buffer : AttributeBuffer) :
    produced.Levels .empty buffer := by
  have judged := judgeFetch_eq_ok accepted
  have backed := judge_backed InodeStat.sample_mayBeManaged (AttributeBuffer.empty.fill produced).2.toList
  rw [judged] at backed
  obtain ⟨-, read, -, known⟩ := backed
  rw [View.header_decode read] at known
  have long : 4 ≤ (AttributeBuffer.empty.fill produced).2.toList.length := by
    rcases View.decode_eq_ok read with ⟨-, length, -⟩ | ⟨-, length, -⟩ <;> omega
  obtain ⟨fsys, version, high, low, rest, raw⟩ := exists_four_cons long
  rw [raw] at known
  have low_ne := low_byte_ne_zero known
  have fourth : (AttributeBuffer.empty.fill produced).2.toList[3]? = some low := by
    rw [raw]; rfl
  have shown : produced.Shows 3 := by
    by_contra hidden
    rw [AttributeBuffer.getElem?_toList_fill_hidden _ _ hidden] at fourth
    cases fourth
  rw [AttributeBuffer.getElem?_toList_fill _ _ shown, AttributeBuffer.getElem?_storage_empty (by decide)] at fourth
  obtain ⟨count, written⟩ := front
  have three : 3 < count := by
    rw [← written 3]
    by_contra unwritten
    rw [Option.not_isSome_iff_eq_none] at unwritten
    rw [unwritten] at fourth
    exact low_ne (Option.some.inj fourth).symm
  intro i decides _
  exact .inl ((written i).mpr (by omega))

end

/-! ### Agreement -/

section
variable {σ ε : Type} {backend : Backend σ ε} {context : FileContext} {stat : InodeStat} {world world' : σ}

theorem candidate_of_estimateOffset
    (same : backend.fetch context.filesystem.fsid stat world = backend.fetch context.filesystem.fsid stat world')
    (front : ∀ produced, backend.fetch context.filesystem.fsid stat world' = some produced → produced.WritesFront)
    (byteCount : Int64)
    (estimated : (context.filesystem.estimateOffset backend stat byteCount world).1 = some stat.size) :
    (context.classify backend stat world').1.1 = .candidate stat.size := by
  rw [estimateOffset_eq_some_iff, same] at estimated
  rw [classify_eq_candidate_iff, ← estimated]
  unfold settle at estimated ⊢
  cases quick : quickReject stat with
  | some reason => rfl
  | none =>
    rw [quick] at estimated
    cases fetched : backend.fetch context.filesystem.fsid stat world' with
    | none => rfl
    | some produced =>
      rw [fetched] at estimated
      simp only at estimated ⊢
      cases accepted : (judgeFetch AttributeBuffer.empty produced).1 with
      | error reason => rw [accepted] at estimated; cases estimated
      | ok view =>
        rw [← accepted]
        exact (outcome_judgeFetch_congr (levels_of_accepted (front _ fetched) accepted _)).symm

theorem estimateOffset_iff_candidate
    (same : backend.fetch context.filesystem.fsid stat world = backend.fetch context.filesystem.fsid stat world')
    (level : ∀ produced, backend.fetch context.filesystem.fsid stat world' = some produced →
      produced.Levels .empty context.buffer.clear) (byteCount : Int64) :
    (context.filesystem.estimateOffset backend stat byteCount world).1 = some stat.size ↔
      (context.classify backend stat world').1.1 = .candidate stat.size := by
  rw [estimateOffset_eq_some_iff, same, classify_eq_candidate_iff, outcome_settle_congr stat level]

/-- For every backend that answers by the request alone and reads from the start of
the storage on, whatever it reports: an estimate is the size of a candidate, and
the estimate and a classification on any used context agree if each of the first
four visible bytes is written by the read or still zero in the context's storage. -/
theorem estimateOffset_agrees (steady : backend.Steady) (front : backend.WritesFront) (context : FileContext)
    (stat : InodeStat) (byteCount : Int64) (world world' : σ) :
    let estimate := (context.filesystem.estimateOffset backend stat byteCount world).1
    let classification := (context.classify backend stat world').1.1
    (estimate = some stat.size ∨ estimate = none) ∧
    (estimate = some stat.size → classification = .candidate stat.size) ∧
    ((∀ produced, backend.fetch context.filesystem.fsid stat world' = some produced →
        produced.Levels .empty context.buffer) →
      (estimate = some stat.size ↔ classification = .candidate stat.size) ∧
      (estimate = none ↔ ∃ reason, classification = .rejected reason)) := by
  intro estimate classification
  -- both bring the same reply, the estimate into new storage and the classification into used
  have same := Backend.fetch_steady steady context.filesystem.fsid stat world world'
  have reads : ∀ produced, backend.fetch context.filesystem.fsid stat world' = some produced →
      produced.WritesFront := by
    intro produced fetched
    unfold Backend.fetch at fetched
    split at fetched
    · cases fetched
    · cases fetched; exact front _ _ _ _
  have other : estimate = none ↔ estimate ≠ some stat.size := estimateOffset_eq_none_iff ..
  refine ⟨?_, candidate_of_estimateOffset same reads byteCount, ?_⟩
  · rw [other]
    exact em _
  · intro level
    have agree : estimate = some stat.size ↔ classification = .candidate stat.size :=
      estimateOffset_iff_candidate same level byteCount
    refine ⟨agree, ?_⟩
    rw [other, classify_eq_rejected_iff]
    exact not_congr agree

end

/-! ### Reads that report more than they write -/

/-- Of inode `n` the first `n` bytes of the value are written; its whole length is reported. -/
def Backend.shortReads (value : List UInt8) : Backend Unit String where
  resolveMount _ world := (.ok (.ofPadded 8 []), world)
  makeHandle _ ino _ world := (.ok [ino.toUInt8], world)
  readAttribute handle _ _ _ world :=
    (⟨[⟨0, value.take (handle.headD 0).toNat⟩], .ok value.length⟩, world)

theorem Backend.shortReads_steady (value : List UInt8) : (shortReads value).Steady := by
  constructor
  · intros; rfl
  · intros; rfl

theorem Backend.shortReads_writesFront (value : List UInt8) : (shortReads value).WritesFront := by
  intro handle name space world
  refine ⟨(value.take (handle.headD 0).toNat).length, fun i => ?_⟩
  simp [shortReads, lastWritten, Write.byteAt?]

/-- A value of a file with data online, without regions. -/
def dualValue : List UInt8 := [1, 0, 0, 2] ++ zeros 18

def InodeStat.ofInode (ino : UInt64) : InodeStat := { sample with ino }

/-- A filesystem whose id is all zeros. -/
def Filesystem.blank : Filesystem := ⟨supportedApiVersion, .ofPadded 8 []⟩

/-- A context after a file whose value was read in full. -/
def usedContext : FileContext :=
  (Filesystem.blank.allocate.classify (.shortReads dualValue) (.ofInode 22) ()).1.2

theorem shortReads_levels {produced : Fill String}
    (fetched : (Backend.shortReads dualValue).fetch usedContext.filesystem.fsid (.ofInode 4) () = some produced) :
    produced.Levels .empty usedContext.buffer := by
  obtain rfl : Fill.mk [⟨0, [1, 0, 0, 2]⟩] (.ok 22) = produced := Option.some.inj fetched
  intro i decides _
  left
  match i, decides with
  | 0, _ | 1, _ | 2, _ | 3, _ => rfl

/-- Four bytes are written and 22 reported, over the bytes of another file. -/
theorem estimateOffset_agrees_four_bytes :
    let backend := Backend.shortReads dualValue
    backend.Steady ∧ backend.WritesFront ∧
      (∀ produced, backend.fetch usedContext.filesystem.fsid (.ofInode 4) () = some produced →
        produced.Levels .empty usedContext.buffer) ∧
      (usedContext.classify backend (.ofInode 4) ()).1.1 = .candidate 512 ∧
      (usedContext.filesystem.estimateOffset backend (.ofInode 4) 100 ()).1 = some 512 := by
  intro backend
  have steady := Backend.shortReads_steady dualValue
  have front := Backend.shortReads_writesFront dualValue
  have candidate : (usedContext.classify backend (.ofInode 4) ()).1.1 = .candidate 512 := by decide +kernel
  have agrees := (estimateOffset_agrees steady front usedContext (.ofInode 4) 100 () ()).2.2
  exact ⟨steady, front, fun _ => shortReads_levels, candidate, (agrees fun _ => shortReads_levels).1.mpr candidate⟩

/-- With two bytes written and 22 reported the state is that of the file before. -/
theorem estimateOffset_two_bytes :
    let backend := Backend.shortReads dualValue
    let estimate := (usedContext.filesystem.estimateOffset backend (.ofInode 2) 0 ()).1
    let classification := (usedContext.classify backend (.ofInode 2) ()).1.1
    backend.Steady ∧ backend.WritesFront ∧ classification = .candidate 512 ∧ estimate = none ∧
      ¬ (estimate = some (InodeStat.ofInode 2).size ↔ classification = .candidate (InodeStat.ofInode 2).size) := by
  intro backend estimate classification
  have candidate : classification = .candidate 512 := by decide +kernel
  have nothing : estimate = none := by decide +kernel
  refine ⟨Backend.shortReads_steady dualValue, Backend.shortReads_writesFront dualValue, candidate, nothing, ?_⟩
  intro agree
  rw [agree.mpr candidate] at nothing
  cases nothing

/-!
## What a backend is asked

A backend may keep notes of what it is asked and otherwise answer like another one
(`Backend.Notes`). The notes of a classification and of an offset estimate are those of
`Backend.classifyCalls`: nothing for a record that is refused outright, else a
handle and, if there is one, the value behind it.
-/

variable {σ ε ρ : Type}

/-- Answers like another backend and adds some notes for each call. -/
structure Backend.Notes (noting : Backend (σ × List ρ) ε) (backend : Backend σ ε) (note : Call → List ρ) : Prop where
  resolveMount : ∀ path world log, noting.resolveMount path (world, log) =
    ((backend.resolveMount path world).1, (backend.resolveMount path world).2, log ++ note (.resolveMount path))
  makeHandle : ∀ fsid ino generation world log, noting.makeHandle fsid ino generation (world, log) =
    ((backend.makeHandle fsid ino generation world).1, (backend.makeHandle fsid ino generation world).2,
      log ++ note (.makeHandle fsid ino generation))
  readAttribute : ∀ handle name space capacity world log,
    noting.readAttribute handle name space capacity (world, log) =
      ((backend.readAttribute handle name space capacity world).1,
        (backend.readAttribute handle name space capacity world).2,
        log ++ note (.readAttribute handle name space capacity))

theorem Backend.recorded_notes (backend : Backend σ ε) : backend.recorded.Notes backend fun call => [call] where
  resolveMount _ _ _ := rfl
  makeHandle _ _ _ _ _ := rfl
  readAttribute _ _ _ _ _ _ := rfl

/-- The calls of a classification. -/
def Backend.classifyCalls (backend : Backend σ ε) (fsid : FsId) (stat : InodeStat) (world : σ) : List Call :=
  if stat.MayBeManaged then
    .makeHandle fsid stat.ino stat.generation ::
      match (backend.makeHandle fsid stat.ino stat.generation world).1 with
      | .ok handle => [.readAttribute handle managedAttributeName .root bufferCapacity]
      | .error _ => []
  else []

theorem classifyCalls_eq_nil_iff (backend : Backend σ ε) (fsid : FsId) (stat : InodeStat) (world : σ) :
    backend.classifyCalls fsid stat world = [] ↔ ¬ stat.MayBeManaged := by
  unfold Backend.classifyCalls
  by_cases managed : stat.MayBeManaged
  · simp [managed]
  · simp [managed]

section
variable {noting : Backend (σ × List ρ) ε} {backend : Backend σ ε} {note : Call → List ρ}
  (notes : noting.Notes backend note)
include notes

theorem evaluate_notes (filesystem : Filesystem) (buffer : AttributeBuffer) (stat : InodeStat) (world : σ)
    (log : List ρ) :
    FileContext.evaluate noting filesystem buffer stat (world, log) =
      ((FileContext.evaluate backend filesystem buffer stat world).1,
        (FileContext.evaluate backend filesystem buffer stat world).2,
        log ++ (backend.classifyCalls filesystem.fsid stat world).flatMap note) := by
  unfold FileContext.evaluate Backend.classifyCalls
  by_cases managed : stat.MayBeManaged
  · rw [(quickReject_eq_none_iff stat).mpr managed, if_pos managed]
    simp only [notes.makeHandle]
    obtain ⟨made, world₁⟩ := backend.makeHandle filesystem.fsid stat.ino stat.generation world
    cases made with
    | error _ => simp
    | ok handle => simp [notes.readAttribute]
  · rw [if_neg managed]
    cases quick : quickReject stat with
    | none => exact absurd ((quickReject_eq_none_iff stat).mp quick) managed
    | some reason => simp

theorem classify_notes (context : FileContext) (stat : InodeStat) (world : σ) (log : List ρ) :
    context.classify noting stat (world, log) =
      ((context.classify backend stat world).1, (context.classify backend stat world).2,
        log ++ (backend.classifyCalls context.filesystem.fsid stat world).flatMap note) := by
  rw [FileContext.classify_eq, FileContext.classify_eq, evaluate_notes notes]

theorem estimateOffset_notes (filesystem : Filesystem) (stat : InodeStat) (byteCount : Int64) (world : σ)
    (log : List ρ) :
    filesystem.estimateOffset noting stat byteCount (world, log) =
      ((filesystem.estimateOffset backend stat byteCount world).1,
        (filesystem.estimateOffset backend stat byteCount world).2,
        log ++ (backend.classifyCalls filesystem.fsid stat world).flatMap note) := by
  unfold Filesystem.estimateOffset
  rw [classify_notes notes]
  rfl

theorem init_notes (mount : RawText) (apiVersion : UInt32) (world : σ) (log : List ρ) :
    Filesystem.init noting mount apiVersion (world, log) =
      ((Filesystem.init backend mount apiVersion world).1, (Filesystem.init backend mount apiVersion world).2,
        log ++ if apiVersion = supportedApiVersion then note (.resolveMount mount) else []) := by
  unfold Filesystem.init
  by_cases version : apiVersion = supportedApiVersion
  · rw [if_pos version, if_pos version, if_pos version]
    simp only [notes.resolveMount]
    obtain ⟨answer, world₁⟩ := backend.resolveMount mount world
    cases answer with
    | ok fsid => rfl
    | error source => rfl
  · rw [if_neg version, if_neg version, if_neg version, List.append_nil]

end

end Residency
