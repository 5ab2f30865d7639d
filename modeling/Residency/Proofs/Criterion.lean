import Mathlib.Data.Nat.Bitwise
import Residency.Context
import Residency.Proofs.Attribute.Spelling
import Residency.Proofs.Classify

/-!
# The criterion of a candidate

The tests of a classification in their order: on the bits of the record, on the reply,
and on the first bytes of the value.
-/

/-!
## The bits of a record

The tests on a record are masks. Each is one statement about the bits of a number.
-/

namespace Residency

/-! ### Masks -/

theorem and_shifted_ones (n shift width : Nat) :
    n &&& (2 ^ width - 1) <<< shift = n / 2 ^ shift % 2 ^ width * 2 ^ shift := by
  rw [← Nat.shiftRight_eq_div_pow, ← Nat.and_two_pow_sub_one_eq_mod, ← Nat.shiftLeft_eq]
  apply Nat.eq_of_testBit_eq
  intro i
  simp only [Nat.testBit_and, Nat.testBit_shiftLeft, Nat.testBit_shiftRight]
  by_cases low : shift ≤ i
  · simp [low, Nat.add_sub_cancel' low]
  · simp [low]

theorem and_bit_ne_zero_iff (n i : Nat) : n &&& 2 ^ i ≠ 0 ↔ n.testBit i = true := by
  rw [Nat.and_two_pow]
  cases n.testBit i <;> simp

/-! ### Records -/

theorem FileKind.ofMode_eq_regularFile_iff (mode : UInt32) :
    ofMode mode = .regularFile ↔ mode.toNat / 2 ^ 12 % 2 ^ 4 = 8 := by
  have type : mode &&& 0o170000 = 0o100000 ↔ mode.toNat / 2 ^ 12 % 2 ^ 4 = 8 := by
    rw [← UInt32.toNat_inj, UInt32.toNat_and]
    have masked := and_shifted_ones mode.toNat 12 4
    show mode.toNat &&& (2 ^ 4 - 1) <<< 12 = 8 * 2 ^ 12 ↔ _
    rw [masked]
    omega
  rw [← type]
  unfold ofMode
  by_cases regular : mode &&& 0o170000 = 0o100000
  · simp [regular]
  · simp only [regular, ite_false]
    split
    · simp
    · split <;> simp

namespace InodeStat

variable (stat : InodeStat)

theorem hasAttributeFork_iff : stat.hasAttributeFork = true ↔ stat.xflags.toNat.testBit 31 = true := by
  rw [hasAttributeFork, bne_iff_ne, ne_eq, ← UInt32.toNat_inj, UInt32.toNat_and]
  exact and_bit_ne_zero_iff stat.xflags.toNat 31

theorem hasManagedEvents_iff :
    stat.hasManagedEvents = true ↔ ∃ event ∈ [16, 17, 18, 20], stat.dmevmask.toNat.testBit event = true := by
  have mask : offlineEventMask.toNat = 2 ^ 16 ||| 2 ^ 17 ||| 2 ^ 18 ||| 2 ^ 20 := rfl
  rw [hasManagedEvents, bne_iff_ne, ne_eq, ← UInt32.toNat_inj, UInt32.toNat_and, mask]
  simp only [Nat.and_or_distrib_left, UInt32.toNat_zero, Nat.or_eq_zero_iff, not_and_or, ← ne_eq,
    and_bit_ne_zero_iff]
  simp [or_assoc]

end InodeStat

/-!
## The criterion of classification

A file is put to a list of tests on the bits of its record, on the fetch of its
attribute and on the bytes that the fetch shows. It is a candidate if it passes
them all; otherwise the first test that it fails is the reason given. Main
statement: `classify_decides`.
-/

/-- A test, with the reason given where it is the first to fail. -/
structure Test where
  passes : Bool
  reason : Disqualification

def firstFailure (tests : List Test) : Option Disqualification :=
  tests.findSome? fun test => if test.passes then none else some test.reason

def InodeStat.tests (stat : InodeStat) : List Test :=
  [⟨stat.mode.toNat / 2 ^ 12 % 2 ^ 4 = 8, .notRegularFile⟩,
    ⟨stat.xflags.toNat.testBit 31, .noAttributeFork⟩,
    ⟨[16, 17, 18, 20].any stat.dmevmask.toNat.testBit, .noManagedEvents⟩]

section
variable {ε : Type}

/-- The number of bytes that a fetch reports. -/
def reported? (fetch : Option (Fill ε)) : Option Nat := fetch.bind fun produced => produced.outcome.toOption

def fetchTests (fetch : Option (Fill ε)) : List Test :=
  let length := (reported? fetch).getD 0
  [⟨fetch.isSome, .handleUnavailable⟩,
    ⟨(reported? fetch).isSome, .attributeUnavailable⟩,
    ⟨length ≤ 5000, .attributeTooLarge length⟩]

/-- The first bytes of the storage after a fetch, as many as it reports. -/
def shown (storage : FixedBytes bufferCapacity) (fetch : Option (Fill ε)) : List UInt8 :=
  match fetch with
  | none => []
  | some produced =>
    (AttributeBuffer.applyWrites storage produced.writes).toList.take ((reported? fetch).getD 0)

end

-- A byte that is not there counts as 0 here; some test in front of the first one
-- that would look at it fails then.
def valueTests (raw : List UInt8) : List Test :=
  let fsys := raw.getD 0 0
  let format := raw.getD 1 0
  let state := UInt16.ofNat (256 * (raw.getD 2 0).toNat + (raw.getD 3 0).toNat)
  [⟨0 < raw.length, .layout (.tooShort 0 22)⟩,
    ⟨fsys = 1, .foreignFilesystem fsys⟩,
    ⟨1 < raw.length, .layout (.tooShort 1 22)⟩,
    ⟨format < 2, .layout (.unsupportedFormat format)⟩,
    ⟨format = 0 ∧ raw.length = 22 ∨ format = 1 ∧ 48 ≤ raw.length, .layout (.badLength format raw.length)⟩,
    ⟨state ∈ [2, 3, 4, 6], .stateNotProjectable state⟩]

/-- What a state says of the file classified last. -/
def FileState.classification? : FileState → Option Classification
  | .unclassified => none
  | .rejected reason => some (.rejected reason)
  | .candidate fileSize _ => some (.candidate fileSize)

/-! ### Lists of tests -/

@[simp] theorem firstFailure_nil : firstFailure [] = none := rfl

@[simp] theorem firstFailure_cons (test : Test) (tests : List Test) :
    firstFailure (test :: tests) = if test.passes then firstFailure tests else some test.reason := by
  rw [firstFailure, List.findSome?_cons]
  cases test.passes <;> rfl

theorem firstFailure_append (first last : List Test) :
    firstFailure (first ++ last) = (firstFailure first).or (firstFailure last) :=
  List.findSome?_append

theorem firstFailure_eq_none_iff (tests : List Test) :
    firstFailure tests = none ↔ ∀ test ∈ tests, test.passes = true := by
  rw [firstFailure, List.findSome?_eq_none_iff]
  refine forall₂_congr fun test _ => ?_
  cases test.passes <;> simp

theorem valueTests_congr {a b : List UInt8} (length : a.length = b.length) (front : a.take 4 = b.take 4) :
    valueTests a = valueTests b := by
  have byte {i : Nat} (decides : i < 4) : a.getD i 0 = b.getD i 0 := by
    have taken := congrArg (·[i]?) front
    simp only [List.getElem?_take, decides, ite_true] at taken
    rw [List.getD_eq_getElem?_getD, List.getD_eq_getElem?_getD, taken]
  unfold valueTests
  rw [length, byte (by decide), byte (by decide), byte (by decide), byte (by decide)]

/-! ### The tests and the code -/

theorem firstFailure_tests (stat : InodeStat) : firstFailure stat.tests = quickReject stat := by
  have kind : stat.kind = .regularFile ↔ _ := FileKind.ofMode_eq_regularFile_iff stat.mode
  have fork := stat.hasAttributeFork_iff
  have events := stat.hasManagedEvents_iff
  rw [← List.any_eq_true] at events
  simp only [InodeStat.tests, firstFailure_cons, firstFailure_nil, decide_eq_true_eq, ← kind, ← fork, ← events]
  unfold quickReject
  by_cases regular : stat.kind = .regularFile
  · cases stat.hasAttributeFork <;> cases stat.hasManagedEvents <;> simp [regular]
  · simp [regular]

/-- The reason of a verdict against a file. -/
def reason? : Except Disqualification View → Option Disqualification
  | .ok _ => none
  | .error reason => some reason

theorem toNat_ofNat_pair (high low : UInt8) :
    (UInt16.ofNat (256 * high.toNat + low.toNat)).toNat = 256 * high.toNat + low.toNat := by
  have inHigh : high.toNat < 256 := high.toNat_lt
  have inLow : low.toNat < 256 := low.toNat_lt
  rw [UInt16.toNat_ofNat']
  exact Nat.mod_eq_of_lt (by omega)

theorem state_decode {raw : List UInt8} (long : 4 ≤ raw.length) :
    (Header.decode raw).state = UInt16.ofNat (256 * (raw.getD 2 0).toNat + (raw.getD 3 0).toNat) := by
  obtain ⟨fsys, version, high, low, rest, rfl⟩ := exists_four_cons long
  apply UInt16.toNat_inj.mp
  rw [Header.toNat_state_decode, toNat_ofNat_pair]
  rfl

theorem reason?_judge_read {rest : List UInt8} {view : View} (read : View.decode (1 :: rest) = .ok view) :
    reason? (judge (1 :: rest)) =
      if view.header.state ∈ [2, 3, 4, 6] then none else some (.stateNotProjectable view.header.state) := by
  have known := ofRaw?_isSome_iff view.header.state
  have listed : Projectable view.header.state ↔ view.header.state ∈ [2, 3, 4, 6] := by
    simp [Projectable]
  rw [listed] at known
  simp only [judge, Layout.xfs, ne_eq, not_true_eq_false, ite_false, read]
  cases found : DmfState.ofRaw? view.header.state with
  | none =>
    rw [if_neg (by rw [← known, found]; decide)]
    rfl
  | some state =>
    rw [if_pos (by rw [← known, found]; rfl)]
    rfl

theorem reason?_judge_unread {rest : List UInt8} {error : LayoutError}
    (unread : View.decode (1 :: rest) = .error error) : reason? (judge (1 :: rest)) = some (.layout error) := by
  simp [judge, Layout.xfs, unread, reason?]

theorem firstFailure_valueTests {raw : List UInt8} {format : UInt8} {rest : List UInt8}
    (front : raw = 1 :: format :: rest) :
    firstFailure (valueTests raw) =
      if format < 2 then
        if format = 0 ∧ raw.length = 22 ∨ format = 1 ∧ 48 ≤ raw.length then
          let state := UInt16.ofNat (256 * (raw.getD 2 0).toNat + (raw.getD 3 0).toNat)
          if state ∈ [2, 3, 4, 6] then none else some (.stateNotProjectable state)
        else some (.layout (.badLength format raw.length))
      else some (.layout (.unsupportedFormat format)) := by
  have own : raw.getD 0 0 = 1 := by rw [front]; rfl
  have second : raw.getD 1 0 = format := by rw [front]; rfl
  have long : 1 < raw.length := by rw [front]; simp
  simp only [valueTests, firstFailure_cons, firstFailure_nil, decide_eq_true_eq, own, second, long,
    Nat.zero_lt_of_lt long, ite_true]

theorem reason?_judge (raw : List UInt8) : reason? (judge raw) = firstFailure (valueTests raw) := by
  -- by the bytes that the first tests ask for, in their order
  match raw with
  | [] => rfl
  | [fsys] =>
    by_cases own : fsys = 1
    · subst own; rfl
    · simp [judge, Layout.xfs, own, reason?, valueTests]
  | fsys :: format :: rest =>
    by_cases own : fsys = 1
    · subst own
      have second : (1 :: format :: rest)[1]? = some format := rfl
      have read := View.decode_of_second second
      rw [firstFailure_valueTests rfl]
      split at read
      case isTrue other =>
        rw [reason?_judge_unread read, if_neg (UInt8.not_lt.mpr other)]
      case isFalse known =>
        rw [if_pos (UInt8.not_le.mp known)]
        split at read
        case isTrue fits =>
          obtain ⟨view, read⟩ := read
          have long : 4 ≤ (1 :: format :: rest).length := by omega
          rw [reason?_judge_read read, View.header_decode read, state_decode long, if_pos fits]
        case isFalse unfit =>
          rw [reason?_judge_unread read, if_neg unfit]
    · simp [judge, Layout.xfs, own, reason?, valueTests]

example : reason? (judge [7, 9, 9]) = some (.foreignFilesystem 7) := by decide

section
variable {ε : Type} (buffer : AttributeBuffer)

/-- The tests on a file with this record, whose attribute is fetched into this storage. -/
def fileTests (stat : InodeStat) (fetch : Option (Fill ε)) : List Test :=
  stat.tests ++ (fetchTests fetch ++ valueTests (shown buffer.storage fetch))

theorem firstFailure_fetchTests (produced : Fill ε) :
    firstFailure (fetchTests (some produced)) =
      match produced.outcome with
      | .error _ => some .attributeUnavailable
      | .ok reported => if reported ≤ 5000 then none else some (.attributeTooLarge reported) := by
  cases outcome : produced.outcome with
  | error error => simp [fetchTests, reported?, outcome, Except.toOption]
  | ok reported => simp [fetchTests, reported?, outcome, Except.toOption]

theorem shown_eq {produced : Fill ε} {reported : Nat} (outcome : produced.outcome = .ok reported) :
    shown buffer.storage (some produced) =
      (AttributeBuffer.applyWrites buffer.storage produced.writes).toList.take reported := by
  simp [shown, reported?, outcome, Except.toOption]

theorem reason?_judgeFetch (produced : Fill ε) :
    reason? (judgeFetch buffer produced).1 =
      firstFailure (fetchTests (some produced) ++ valueTests (shown buffer.storage (some produced))) := by
  rw [firstFailure_append, firstFailure_fetchTests]
  unfold judgeFetch AttributeBuffer.fill
  cases outcome : produced.outcome with
  | error error => rfl
  | ok reported =>
    by_cases fits : reported ≤ bufferCapacity
    · have small : reported ≤ 5000 := fits
      rw [shown_eq buffer outcome]
      simp only [fits, small, dite_true, ite_true]
      exact reason?_judge _
    · have large : ¬ reported ≤ 5000 := fits
      simp only [fits, large, dite_false, ite_false]
      rfl

theorem reason?_settle (stat : InodeStat) (fetch : Option (Fill ε)) :
    reason? (settle buffer stat fetch).1 = firstFailure (fileTests buffer stat fetch) := by
  rw [fileTests, firstFailure_append, firstFailure_tests]
  unfold settle
  cases quickReject stat with
  | some reason => rfl
  | none =>
    cases fetch with
    | none => rfl
    | some produced => exact reason?_judgeFetch buffer produced

end

/-! ### Passing all tests -/

/-- A regular file with an attribute fork and an event of a managed file. -/
structure InodeStat.Eligible (stat : InodeStat) : Prop where
  regular : stat.mode.toNat / 2 ^ 12 % 2 ^ 4 = 8
  fork : stat.xflags.toNat.testBit 31 = true
  events : ∃ event ∈ [16, 17, 18, 20], stat.dmevmask.toNat.testBit event = true

/-- A value of this filesystem type, as long as its format allows, in a state that
can be projected. -/
structure Acceptable (raw : List UInt8) : Prop where
  own : raw[0]? = some 1
  format : raw[1]? = some 0 ∧ raw.length = 22 ∨ raw[1]? = some 1 ∧ 48 ≤ raw.length
  state : ∃ high low, raw[2]? = some high ∧ raw[3]? = some low ∧ 256 * high.toNat + low.toNat ∈ [2, 3, 4, 6]

theorem firstFailure_tests_eq_none_iff (stat : InodeStat) : firstFailure stat.tests = none ↔ stat.Eligible := by
  rw [firstFailure_eq_none_iff]
  simp only [InodeStat.tests, List.forall_mem_cons, decide_eq_true_eq, List.any_eq_true]
  constructor
  · rintro ⟨regular, fork, events, -⟩
    exact ⟨regular, fork, events⟩
  · rintro ⟨regular, fork, events⟩
    exact ⟨regular, fork, events, by simp⟩

theorem firstFailure_fetchTests_eq_none_iff {ε : Type} (fetch : Option (Fill ε)) :
    firstFailure (fetchTests fetch) = none ↔
      ∃ produced reported, fetch = some produced ∧ produced.outcome = .ok reported ∧ reported ≤ 5000 := by
  cases fetch with
  | none => simp [fetchTests]
  | some produced =>
    rw [firstFailure_fetchTests]
    cases outcome : produced.outcome with
    | error error => simp [outcome]
    | ok reported => simp [outcome]

theorem projectable_iff (high low : UInt8) :
    UInt16.ofNat (256 * high.toNat + low.toNat) ∈ [2, 3, 4, 6] ↔ 256 * high.toNat + low.toNat ∈ [2, 3, 4, 6] := by
  simp only [List.mem_cons, List.not_mem_nil, or_false, ← UInt16.toNat_inj, toNat_ofNat_pair]
  rfl

theorem firstFailure_valueTests_eq_none_iff (raw : List UInt8) :
    firstFailure (valueTests raw) = none ↔ Acceptable raw := by
  rw [firstFailure_eq_none_iff]
  simp only [valueTests, List.forall_mem_cons, decide_eq_true_eq]
  constructor
  · rintro ⟨-, own, -, -, fits, state, -⟩
    have long : 4 ≤ raw.length := by omega
    obtain ⟨fsys, format, high, low, rest, rfl⟩ := exists_four_cons long
    exact ⟨congrArg some own, by simpa using fits, high, low, rfl, rfl, (projectable_iff high low).mp state⟩
  · rintro ⟨own, fits, high, low, third, fourth, state⟩
    have long : 4 ≤ raw.length := by omega
    obtain ⟨fsys, format, high, low, rest, rfl⟩ := exists_four_cons long
    cases third
    cases fourth
    refine ⟨by omega, Option.some.inj own, by omega, ?_, by simpa using fits,
      (projectable_iff high low).mpr state, by simp⟩
    obtain ⟨zero, -⟩ | ⟨one, -⟩ := fits
    · cases zero
      exact (by decide : (0 : UInt8) < 2)
    · cases one
      exact (by decide : (1 : UInt8) < 2)

/-! ### Classification -/

namespace FileContext

variable {σ ε : Type}

/-- The file's attribute is fetched, and `raw` is what can be seen of it. -/
def Fetches (context : FileContext) (backend : Backend σ ε) (stat : InodeStat) (world : σ) (raw : List UInt8) : Prop :=
  ∃ produced reported, backend.fetch context.filesystem.fsid stat world = some produced ∧
    produced.outcome = .ok reported ∧ reported ≤ 5000 ∧
    raw = (AttributeBuffer.applyWrites context.buffer.storage produced.writes).toList.take reported

theorem classify_eq_firstFailure (context : FileContext) (backend : Backend σ ε) (stat : InodeStat) (world : σ) :
    (context.classify backend stat world).1.1 =
      match firstFailure (fileTests context.buffer stat (backend.fetch context.filesystem.fsid stat world)) with
      | none => .candidate stat.size
      | some reason => .rejected reason := by
  have settled := reason?_settle context.buffer.clear stat (backend.fetch context.filesystem.fsid stat world)
  have evaluated := evaluate_eq_settle backend context.filesystem context.buffer.clear stat world
  rw [← evaluated] at settled
  -- clearing sets the length back and leaves the storage
  have tests : fileTests context.buffer.clear stat (backend.fetch context.filesystem.fsid stat world) =
    fileTests context.buffer stat (backend.fetch context.filesystem.fsid stat world) := rfl
  rw [← tests, ← settled, classify_eq]
  cases (evaluate backend context.filesystem context.buffer.clear stat world).1.1 with
  | error reason => rfl
  | ok view => rfl

theorem state_classify (context : FileContext) (backend : Backend σ ε) (stat : InodeStat) (world : σ) :
    (context.classify backend stat world).1.2.state.classification? =
      some (context.classify backend stat world).1.1 := by
  rw [classify_eq]
  cases (evaluate backend context.filesystem context.buffer.clear stat world).1.1 with
  | error reason => rfl
  | ok view => rfl

section
variable {backend : Backend σ ε} {context : FileContext} {stat : InodeStat} {world : σ} {raw : List UInt8}

theorem exists_fetches_iff :
    (∃ raw, context.Fetches backend stat world raw) ↔
      firstFailure (fetchTests (backend.fetch context.filesystem.fsid stat world)) = none := by
  rw [firstFailure_fetchTests_eq_none_iff]
  constructor
  · rintro ⟨_, produced, reported, fetch, outcome, fits, -⟩
    exact ⟨produced, reported, fetch, outcome, fits⟩
  · rintro ⟨produced, reported, fetch, outcome, fits⟩
    exact ⟨_, produced, reported, fetch, outcome, fits, rfl⟩

theorem firstFailure_fetched (fetched : context.Fetches backend stat world raw) :
    firstFailure (fileTests context.buffer stat (backend.fetch context.filesystem.fsid stat world)) =
      (firstFailure stat.tests).or (firstFailure (valueTests raw)) := by
  have fetches := exists_fetches_iff.mp ⟨raw, fetched⟩
  obtain ⟨produced, reported, fetch, outcome, -, rfl⟩ := fetched
  rw [fileTests, firstFailure_append, firstFailure_append, fetches, Option.none_or, fetch,
    shown_eq context.buffer outcome]

theorem firstFailure_fileTests_eq_none_iff :
    firstFailure (fileTests context.buffer stat (backend.fetch context.filesystem.fsid stat world)) = none ↔
      stat.Eligible ∧ ∃ raw, context.Fetches backend stat world raw ∧ Acceptable raw := by
  have passes {raw : List UInt8} (fetched : context.Fetches backend stat world raw) :
      firstFailure (fileTests context.buffer stat (backend.fetch context.filesystem.fsid stat world)) = none ↔
        stat.Eligible ∧ Acceptable raw := by
    rw [firstFailure_fetched fetched, Option.or_eq_none_iff, firstFailure_tests_eq_none_iff,
      firstFailure_valueTests_eq_none_iff]
  constructor
  · intro none
    have fetches := none
    rw [fileTests, firstFailure_append, firstFailure_append, Option.or_eq_none_iff, Option.or_eq_none_iff] at fetches
    obtain ⟨raw, fetched⟩ := exists_fetches_iff.mpr fetches.2.1
    obtain ⟨eligible, acceptable⟩ := (passes fetched).mp none
    exact ⟨eligible, raw, fetched, acceptable⟩
  · rintro ⟨eligible, raw, fetched, acceptable⟩
    exact (passes fetched).mpr ⟨eligible, acceptable⟩

end

/-- A file is a candidate exactly if it passes all tests, and rejected for the first
that it fails. The context keeps what is answered. Of the bytes that are fetched
only their number and the first four matter. -/
theorem classify_decides (context : FileContext) (backend : Backend σ ε) (stat : InodeStat) (world : σ) :
    let result := (context.classify backend stat world).1
    let fetch := backend.fetch context.filesystem.fsid stat world
    result.1 = (match firstFailure (fileTests context.buffer stat fetch) with
      | none => .candidate stat.size
      | some reason => .rejected reason) ∧
    (result.1 = .candidate stat.size ↔
      stat.Eligible ∧ ∃ raw, context.Fetches backend stat world raw ∧ Acceptable raw) ∧
    result.2.state.classification? = some result.1 ∧
    ∀ {σ' ε' : Type} (other : Backend σ' ε') (reused : FileContext) (world' : σ') (raw raw' : List UInt8),
      context.Fetches backend stat world raw → reused.Fetches other stat world' raw' →
      raw.length = raw'.length → raw.take 4 = raw'.take 4 →
      (reused.classify other stat world').1.1 = result.1 := by
  intro result fetch
  have decided := context.classify_eq_firstFailure backend stat world
  refine ⟨decided, ?_, state_classify context backend stat world, ?_⟩
  · rw [← firstFailure_fileTests_eq_none_iff, decided]
    cases firstFailure (fileTests context.buffer stat fetch) <;> simp
  · intro σ' ε' other reused world' raw raw' fetched fetched' length front
    have tests := valueTests_congr length front
    rw [decided, reused.classify_eq_firstFailure, firstFailure_fetched fetched, firstFailure_fetched fetched', tests]

theorem fetches_of_provides {backend : Backend σ ε} {context : FileContext} {stat : InodeStat} {world : σ}
    {value : List UInt8}
    (provides : backend.Provides context.filesystem.fsid stat.ino stat.generation value world)
    (fits : value.length ≤ 5000) : context.Fetches backend stat world value := by
  obtain ⟨handle, world₁, made, serves⟩ := provides
  have visible := AttributeBuffer.toList_fill_serves serves fits context.buffer
  rw [AttributeBuffer.toList_fill, serves.1] at visible
  simp only [bufferCapacity, fits, ite_true] at visible
  exact ⟨_, _, by simp only [Backend.fetch, made], serves.1, fits, visible.symm⟩

/-- Two values of format 0 that agree in no byte after the fourth, the second read into
the storage that held the first. -/
theorem classify_decides_four_bytes :
    let fresh := (Filesystem.mk 1 ⟨zeros 8, length_zeros 8⟩).allocate
    let value := [1, 0, 0, 2] ++ zeros 18
    let other := [1, 0, 0, 2] ++ List.replicate 18 7
    let reused := (fresh.classify .sameValue .sample value).1.2
    fresh.Fetches .sameValue .sample value value ∧ reused.Fetches .sameValue .sample other other ∧
      value.length = other.length ∧ value.take 4 = other.take 4 ∧
      (fresh.classify .sameValue .sample value).1.1 = .candidate 512 ∧
      (reused.classify .sameValue .sample other).1.1 = .candidate 512 := by
  intro fresh value other reused
  have fetched : fresh.Fetches .sameValue .sample value value :=
    fetches_of_provides (Backend.sameValue_provides _ _ _ _) (by decide)
  have refetched : reused.Fetches .sameValue .sample other other :=
    fetches_of_provides (Backend.sameValue_provides _ _ _ _) (by decide)
  have eligible : InodeStat.sample.Eligible := ⟨by decide, by decide, 16, by decide, by decide⟩
  have acceptable : Acceptable value := ⟨rfl, .inl ⟨rfl, rfl⟩, 0, 2, rfl, rfl, by decide⟩
  have decided := fresh.classify_decides .sameValue .sample value
  have candidate := decided.2.1.mpr ⟨eligible, value, fetched, acceptable⟩
  have same := decided.2.2.2 .sameValue reused other value other fetched refetched rfl rfl
  exact ⟨fetched, refetched, rfl, rfl, candidate, same.trans candidate⟩

end FileContext

end Residency
