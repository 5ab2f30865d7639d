import Mathlib.Algebra.Order.Group.Int
import Residency.Context
import Residency.Proofs.Project
import Residency.Proofs.Session.History
import Residency.Session

/-!
# Extent maps in pages

Pages of an extent map, and what a dump reads of them up to the end of the file.
-/

/-!
## Blocks and saturated differences as integers

`basicBlocks` is the exact ceiling of a size in blocks, for every size. A
saturated difference is the exact one, held between the least and the greatest
value.
-/

namespace Residency

/-! ### Blocks -/

theorem toInt_shiftRight_nine (n : Int64) : (n >>> 9).toInt = n.toInt / 512 := by
  have shifted : (n >>> 9).toBitVec = n.toBitVec.sshiftRight 9 := rfl
  rw [← Int64.toInt_toBitVec, shifted, BitVec.toInt_sshiftRight, Int.shiftRight_eq_div_pow,
    Int64.toInt_toBitVec]
  rfl

theorem low_bits_eq_zero_iff (n : Int64) : n &&& 511 = 0 ↔ n.toInt % 512 = 0 := by
  have masked : (n &&& 511).toBitVec.toNat = n.toBitVec.toNat % 512 := by
    rw [Int64.toBitVec_and, BitVec.toNat_and]
    exact Nat.and_two_pow_sub_one_eq_mod n.toBitVec.toNat 9
  have sign := BitVec.toInt_eq_toNat_cond n.toBitVec
  rw [Int64.toInt_toBitVec] at sign
  have zero : n &&& 511 = 0 ↔ (n &&& 511).toBitVec.toNat = 0 := by
    rw [← Int64.toBitVec_inj]
    exact BitVec.toNat_eq
  rw [zero, masked]
  -- a negative number is its bit pattern less 2 ^ 64, which 512 divides
  split at sign <;> omega

theorem toInt_basicBlocks (bytes : Int64) : (basicBlocks bytes).toInt = (bytes.toInt + 511) / 512 := by
  have least := bytes.le_toInt
  have greatest := bytes.toInt_lt
  have low := low_bits_eq_zero_iff bytes
  unfold basicBlocks
  rw [Int64.toInt_add, toInt_shiftRight_nine]
  -- the shift rounds down; one more block if bits were shifted out, and no overflow either way
  by_cases aligned : bytes &&& 511 = 0
  · have none : bytes.toInt % 512 = 0 := low.mp aligned
    rw [if_pos aligned, Int64.toInt_zero, Int.bmod_eq_of_le (by omega) (by omega)]
    omega
  · have some : bytes.toInt % 512 ≠ 0 := fun zero => aligned (low.mpr zero)
    rw [if_neg aligned, Int64.toInt_one, Int.bmod_eq_of_le (by omega) (by omega)]
    omega

theorem basicBlocks_bytes (bytes : Int64) : bytes.toInt ≤ 512 * (basicBlocks bytes).toInt ∧
    512 * (basicBlocks bytes).toInt < bytes.toInt + 512 := by
  rw [toInt_basicBlocks]
  omega

theorem basicBlocks_pos_iff (bytes : Int64) : 0 < basicBlocks bytes ↔ 0 < bytes := by
  have blocks := toInt_basicBlocks bytes
  rw [Int64.lt_iff_toInt_lt, Int64.lt_iff_toInt_lt, Int64.toInt_zero, blocks]
  omega

/-! ### Differences -/

theorem toInt_saturatingSub (a b : Int64) :
    (saturatingSub a b).toInt = max (-2 ^ 63) (min (a.toInt - b.toInt) (2 ^ 63 - 1)) := by
  unfold saturatingSub
  have least : Int64.minValue.toInt = -2 ^ 63 := rfl
  have greatest : Int64.maxValue.toInt = 2 ^ 63 - 1 := rfl
  simp only [least, greatest]
  -- cases in the order of the tests
  by_cases low : a.toInt - b.toInt < -2 ^ 63
  · rw [if_pos low, least]; omega
  · by_cases high : 2 ^ 63 - 1 < a.toInt - b.toInt
    · rw [if_neg low, if_pos high, greatest]; omega
    · rw [if_neg low, if_neg high, Int64.toInt_ofInt_of_le (by omega) (by omega)]; omega

theorem saturatingSub_pos_iff (a b : Int64) : 0 < saturatingSub a b ↔ b < a := by
  have value := toInt_saturatingSub a b
  rw [Int64.lt_iff_toInt_lt, Int64.lt_iff_toInt_lt, Int64.toInt_zero, value]
  omega

theorem saturatingSub_zero (a : Int64) : saturatingSub a 0 = a := by
  have value := toInt_saturatingSub a 0
  have least := a.le_toInt
  have greatest := a.toInt_lt
  rw [Int64.toInt_zero] at value
  apply Int64.toInt_inj.mp
  omega

/-!
## Paging through a candidate's extent map

A host asks for one page after the other and goes on where the projected page
leaves off. A candidate's first page reports the rest of the file as one hole;
no later page reports anything (`paging_covers`).
-/

namespace ExtentRecord

def stop (record : ExtentRecord) : Int := record.offset.toInt + record.length.toInt

def Covers (record : ExtentRecord) (byte : Int) : Prop :=
  512 * record.offset.toInt ≤ byte ∧ byte < 512 * record.stop

end ExtentRecord

/-- How many records a page announces. -/
def announcedBy : List ExtentRecord → Int32
  | header :: _ => header.entries
  | [] => 0

/-- The records that a page announces. -/
def reportedBy : List ExtentRecord → List ExtentRecord
  | header :: records => records.take header.entries.toNatClampNeg
  | [] => []

/-- The block where a host goes on: behind the entry that a page reports, or where
the page began if it reports none. -/
def resumeAt : List ExtentRecord → Int
  | header :: first :: _ => if header.entries = 0 then first.offset.toInt else first.stop
  | _ => 0

/-- Pages handed in one after the other from block `start` on, and what became of
them. Each page announces entries and begins where the one before left off or
later; nothing else is asked of it. -/
inductive Paging (context : FileContext) : Int → List (List ExtentRecord) → List (List ExtentRecord) → Prop
  | nil (start : Int) : Paging context start [] []
  | cons {start : Int} {header first : ExtentRecord} {rest answer : List ExtentRecord}
      {pages answers : List (List ExtentRecord)} (announced : 0 < header.entries)
      (onward : start ≤ first.offset.toInt)
      (answered : context.projectExtents (header :: first :: rest) = .ok answer)
      (further : Paging context (resumeAt answer) pages answers) :
      Paging context start ((header :: first :: rest) :: pages) (answer :: answers)

/-- The hole from a record's offset to the end of a file of so many blocks. -/
def holeUpTo (blocks : Int64) (first : ExtentRecord) : ExtentRecord :=
  { first with block := ExtentRecord.holeBlock, length := saturatingSub blocks first.offset }

/-! ### One page -/

theorem stop_holeUpTo {blocks : Int64} {first : ExtentRecord} (start : 0 ≤ first.offset.toInt)
    (before : first.offset < blocks) : (holeUpTo blocks first).stop = blocks.toInt := by
  have length := toInt_saturatingSub blocks first.offset
  have most := blocks.toInt_lt
  rw [Int64.lt_iff_toInt_lt] at before
  show first.offset.toInt + (saturatingSub blocks first.offset).toInt = blocks.toInt
  omega

namespace FileContext

variable {context : FileContext} {size : Int64}

theorem projectExtents_isOk (context : FileContext) (header first : ExtentRecord) (rest : List ExtentRecord) :
    ∃ answer, context.projectExtents (header :: first :: rest) = .ok answer := by
  unfold projectExtents
  by_cases ended : header.entries ≤ 0
  · simp only [ended, ite_true]
    exact ⟨_, rfl⟩
  · simp only [ended, ite_false]
    cases context.fileSize? with
    | none => exact ⟨_, rfl⟩
    | some size => exact ⟨_, rfl⟩

theorem collapse_before_end {blocks : Int64} {first : ExtentRecord} (header : ExtentRecord)
    (before : first.offset < blocks) :
    collapse blocks header first = ({ header with entries := 1 }, holeUpTo blocks first) := by
  have more := (saturatingSub_pos_iff blocks first.offset).mpr before
  exact if_pos more

theorem collapse_past_end {blocks : Int64} {first : ExtentRecord} (header : ExtentRecord)
    (past : blocks ≤ first.offset) : collapse blocks header first = ({ header with entries := 0 }, first) := by
  have none : ¬ 0 < saturatingSub blocks first.offset := by
    rw [saturatingSub_pos_iff]
    exact Int64.not_lt.mpr past
  exact if_neg none

theorem projectExtents_idle {header : ExtentRecord} (idle : header.entries ≤ 0 ∨ context.fileSize? = none)
    (first : ExtentRecord) (rest : List ExtentRecord) :
    context.projectExtents (header :: first :: rest) = .ok (header :: first :: rest) := by
  unfold projectExtents
  by_cases ended : header.entries ≤ 0
  · simp [ended]
  · rcases idle with announced | passed
    · exact absurd announced ended
    · simp [ended, passed]

theorem projectExtents_candidate (candidate : context.fileSize? = some size) {header : ExtentRecord}
    (announced : 0 < header.entries) (first : ExtentRecord) (rest : List ExtentRecord) :
    context.projectExtents (header :: first :: rest) =
      .ok ((collapse (basicBlocks size) header first).1 ::
        (collapse (basicBlocks size) header first).2 :: rest) := by
  have goesOn : ¬ header.entries ≤ 0 := Int32.not_le.mpr announced
  unfold projectExtents
  simp only [goesOn, ite_false, candidate]

end FileContext

/-! ### All pages -/

theorem reportedBy_eq_nil {page : List ExtentRecord} (none : announcedBy page = 0) : reportedBy page = [] := by
  cases page with
  | nil => rfl
  | cons header records =>
    have entries : header.entries = 0 := none
    rw [reportedBy, entries]
    rfl

section
variable {context : FileContext} {size : Int64} (candidate : context.fileSize? = some size)
include candidate

theorem paging_past_end {start : Int} {pages answers : List (List ExtentRecord)}
    (paging : Paging context start pages answers) (past : (basicBlocks size).toInt ≤ start) :
    answers.length = pages.length ∧ ∀ answer ∈ answers, announcedBy answer = 0 := by
  -- a page that reports nothing leaves the host where the page began, still past the end
  induction paging with
  | nil start => exact ⟨rfl, by simp⟩
  | @cons start header first rest answer pages answers announced onward answered further ih =>
    have beyond : basicBlocks size ≤ first.offset := Int64.le_iff_toInt_le.mpr (by omega)
    rw [FileContext.projectExtents_candidate candidate announced, FileContext.collapse_past_end header beyond]
      at answered
    cases answered
    have resumed : resumeAt ({ header with entries := 0 } :: first :: rest) = first.offset.toInt := rfl
    obtain ⟨length, zeros⟩ := ih (by rw [resumed]; omega)
    refine ⟨by rw [List.length_cons, List.length_cons, length], ?_⟩
    intro answer there
    cases there with
    | head => rfl
    | tail _ later => exact zeros answer later

theorem paging_first {header first : ExtentRecord} {rest : List ExtentRecord}
    {pages answers : List (List ExtentRecord)}
    (paging : Paging context 0 ((header :: first :: rest) :: pages) answers) :
    ∃ answer later, answers = answer :: later ∧ later.length = pages.length ∧
      (∀ other ∈ later, announcedBy other = 0) ∧
      if first.offset < basicBlocks size then
        answer = { header with entries := 1 } :: holeUpTo (basicBlocks size) first :: rest ∧
          (holeUpTo (basicBlocks size) first).stop = (basicBlocks size).toInt
      else answer = { header with entries := 0 } :: first :: rest := by
  cases paging with
  | @cons _ _ _ _ answer _ later announced onward answered further =>
    rw [FileContext.projectExtents_candidate candidate announced] at answered
    -- before the end the hole takes the host to the end, else it is there already
    by_cases before : first.offset < basicBlocks size
    · have stop := stop_holeUpTo onward before
      rw [FileContext.collapse_before_end header before] at answered
      cases answered
      have resumed : (basicBlocks size).toInt ≤
          resumeAt ({ header with entries := 1 } :: holeUpTo (basicBlocks size) first :: rest) :=
        Int.le_of_eq stop.symm
      obtain ⟨length, zeros⟩ := paging_past_end candidate further resumed
      exact ⟨_, _, rfl, length, zeros, by rw [if_pos before]; exact ⟨rfl, stop⟩⟩
    · have beyond : basicBlocks size ≤ first.offset := Int64.not_lt.mp before
      rw [FileContext.collapse_past_end header beyond] at answered
      cases answered
      obtain ⟨length, zeros⟩ := paging_past_end candidate further (Int64.le_iff_toInt_le.mp beyond)
      exact ⟨_, _, rfl, length, zeros, by rw [if_neg before]⟩

end

theorem length_le_two {answers : List (List ExtentRecord)} (ended : ∀ answer ∈ answers.tail, announcedBy answer = 0)
    (goesOn : ∀ answer ∈ answers.dropLast, announcedBy answer ≠ 0) : answers.length ≤ 2 := by
  match answers with
  | [] => simp
  | [_] => simp
  | [_, _] => simp
  | first :: second :: third :: rest =>
    have none : announcedBy second = 0 := ended second (by simp)
    exact absurd none (goesOn second (by simp))

theorem estimateSpace_of_candidate {σ ε : Type} (backend : Backend σ ε) (before : FileContext) (stat : InodeStat)
    (world : σ) {size : Int64} (candidate : (before.classify backend stat world).1.2.fileSize? = some size) :
    Filesystem.estimateSpace stat = some 0 := by
  obtain ⟨_, agrees⟩ := classify_coherent backend before stat world
  unfold FileContext.fileSize? FileContext.candidate? at candidate
  cases state : (before.classify backend stat world).1.2.state with
  | unclassified => simp [state] at candidate
  | rejected reason => simp [state] at candidate
  | candidate fileSize view =>
    rw [state] at agrees
    obtain ⟨classified, last, _, backed⟩ := agrees
    obtain rfl := Option.some.inj last
    unfold Filesystem.estimateSpace
    rw [(quickReject_eq_none_iff stat).mpr backed.1]

/-- However a host pages through a candidate from some offset on, it is told of
one hole from there to the end of the file, and of nothing if it starts at the end
or past it. If it goes on only while something is reported, it asks twice at most. -/
theorem paging_covers {context : FileContext} {size : Int64} (candidate : context.fileSize? = some size)
    {header first : ExtentRecord} {rest : List ExtentRecord} {pages answers : List (List ExtentRecord)}
    (paging : Paging context 0 ((header :: first :: rest) :: pages) answers) :
    (∀ header first rest, ∃ answer, context.projectExtents (header :: first :: rest) = .ok answer) ∧
    answers.map announcedBy =
      (if first.offset < basicBlocks size then 1 else 0) :: List.replicate pages.length 0 ∧
    (if first.offset < basicBlocks size then
      ∃ hole, answers.flatMap reportedBy = [hole] ∧ hole.isHole = true ∧ hole.offset = first.offset ∧
        hole.stop = (basicBlocks size).toInt ∧
        (∀ byte, 512 * first.offset.toInt ≤ byte → byte < size.toInt → hole.Covers byte) ∧
        512 * hole.stop < size.toInt + 512
    else answers.flatMap reportedBy = []) ∧
    ((∀ answer ∈ answers.dropLast, announcedBy answer ≠ 0) → answers.length ≤ 2) ∧
    ∀ {σ ε : Type} (backend : Backend σ ε) (before : FileContext) (stat : InodeStat) (world : σ),
      (before.classify backend stat world).1.2 = context → Filesystem.estimateSpace stat = some 0 := by
  obtain ⟨answer, later, rfl, length, ended, reported⟩ := paging_first candidate paging
  have silent : later.flatMap reportedBy = [] := by
    rw [List.flatMap_eq_nil_iff]
    exact fun other there => reportedBy_eq_nil (ended other there)
  have zeros : later.map announcedBy = List.replicate pages.length 0 := by
    rw [← length, ← List.length_map announcedBy]
    refine List.eq_replicate_length.mpr ?_
    intro entries there
    obtain ⟨other, inside, rfl⟩ := List.mem_map.mp there
    exact ended other inside
  refine ⟨context.projectExtents_isOk, ?_, ?_, length_le_two ended, ?_⟩
  · rw [List.map_cons, zeros]
    by_cases before : first.offset < basicBlocks size
    · rw [if_pos before] at reported ⊢
      rw [reported.1]; rfl
    · rw [if_neg before] at reported ⊢
      rw [reported]; rfl
  · rw [List.flatMap_cons, silent, List.append_nil]
    by_cases before : first.offset < basicBlocks size
    · rw [if_pos before] at reported ⊢
      obtain ⟨rfl, stop⟩ := reported
      obtain ⟨full, tight⟩ := basicBlocks_bytes size
      refine ⟨holeUpTo (basicBlocks size) first, rfl, rfl, rfl, stop, ?_, by omega⟩
      intro byte start inside
      exact ⟨start, by omega⟩
    · rw [if_neg before] at reported ⊢
      rw [reported]; rfl
  · rintro σ ε backend before stat world rfl
    exact estimateSpace_of_candidate backend before stat world candidate

def dataPage (offset : Int64) : List ExtentRecord := [.header 2 1, .extent offset 100 8]

/-- A file of 700 bytes, from its start to past its end. -/
theorem paging_covers_two_blocks :
    let fresh := (Filesystem.mk 1 ⟨zeros 8, length_zeros 8⟩).allocate
    let stat := { InodeStat.sample with size := 700 }
    let context := (fresh.classify .sameValue stat FileContext.siteView.encode).1.2
    context.fileSize? = some 700 ∧
      ∃ answers, Paging context 0 [dataPage 0, dataPage 2, dataPage 9] answers ∧
        answers.map announcedBy = [1, 0, 0] ∧
        (∃ hole, answers.flatMap reportedBy = [hole] ∧ hole.isHole = true ∧ 512 * hole.stop < 700 + 512) ∧
        Filesystem.estimateSpace stat = some 0 := by
  intro fresh stat context
  have managed : stat.MayBeManaged := InodeStat.sample_mayBeManaged
  have candidate : context.fileSize? = some 700 :=
    congrArg (Option.map Prod.fst) (FileContext.classify_siteView managed fresh)
  have one : (0 : Int32) < (ExtentRecord.header 2 1).entries := by decide
  have paging : Paging context 0 [dataPage 0, dataPage 2, dataPage 9] _ :=
    .cons one (by decide) (FileContext.projectExtents_candidate candidate one _ _)
      (.cons one (by decide) (FileContext.projectExtents_candidate candidate one _ _)
        (.cons one (by decide) (FileContext.projectExtents_candidate candidate one _ _) (.nil _)))
  obtain ⟨_, announced, reported, _, estimate⟩ := paging_covers candidate paging
  rw [if_pos (by decide)] at reported
  obtain ⟨hole, only, isHole, _, _, _, tight⟩ := reported
  exact ⟨candidate, _, paging, announced, ⟨hole, only, isHole, tight⟩, estimate _ _ _ _ rfl⟩

end Residency
