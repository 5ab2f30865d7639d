import Residency.Attribute
import Residency.Context
import Residency.Proofs.Attribute.Buffer
import Residency.Proofs.Attribute.Rewriting

/-!
# Classification

What is asked of a backend, the exits of a classification, and what it takes from the
attribute that it fetches.
-/

/-! ## What is asked of a backend -/

namespace Residency.Backend

variable {σ ε : Type} (backend : Backend σ ε)

/-- Every read fails, reports more than fits, or writes every byte it reports. -/
def Honest : Prop :=
  ∀ handle name space world, (backend.readAttribute handle name space bufferCapacity world).1.Honest

/-- Handles and reads depend on the request alone. -/
def Steady : Prop :=
  (∀ fsid ino generation world world',
    (backend.makeHandle fsid ino generation world).1 = (backend.makeHandle fsid ino generation world').1) ∧
  ∀ handle name space capacity world world',
    (backend.readAttribute handle name space capacity world).1 =
      (backend.readAttribute handle name space capacity world').1

/-- Reads write from the start of the storage on, however much they report. -/
def WritesFront : Prop :=
  ∀ handle name space world, (backend.readAttribute handle name space bufferCapacity world).1.WritesFront

/-- The file's handle can be built, and its managed attribute is read in full. -/
def Provides (fsid : FsId) (ino : UInt64) (generation : UInt32) (value : List UInt8) (world : σ) : Prop :=
  ∃ handle world₁, backend.makeHandle fsid ino generation world = (.ok handle, world₁) ∧
    (backend.readAttribute handle managedAttributeName .root bufferCapacity world₁).1.Serves value

/-- The world is the value of every file's attribute. -/
def sameValue : Backend (List UInt8) String where
  resolveMount _ value := (.ok ⟨zeros 8, length_zeros 8⟩, value)
  makeHandle _ _ _ value := (.ok [], value)
  readAttribute _ _ _ _ value := (⟨[⟨0, value⟩], .ok value.length⟩, value)

theorem sameValue_honest : sameValue.Honest := by
  intro handle name space value reported outcome _ i inside
  obtain rfl : value.length = reported := by simpa [sameValue] using outcome
  exact ⟨⟨0, value⟩, by simp [sameValue], Nat.zero_le i, by simpa using inside⟩

theorem sameValue_provides (fsid : FsId) (ino : UInt64) (generation : UInt32) (value : List UInt8) :
    sameValue.Provides fsid ino generation value value := by
  refine ⟨[], value, rfl, rfl, fun i _ => ?_⟩
  simp [sameValue, lastWritten, Write.byteAt?]

end Residency.Backend

/-!
## What a verdict says

A verdict is backed by the record classified and by the bytes that are visible
afterwards. A candidate's bytes are a value of this filesystem type in a state
that can be projected; a rejection for want of a value leaves no bytes behind;
every other rejection shows in the bytes.
-/

namespace Residency

/-- The record passes the tests that come before the fetch. -/
def InodeStat.MayBeManaged (stat : InodeStat) : Prop :=
  stat.kind = .regularFile ∧ stat.hasAttributeFork = true ∧ stat.hasManagedEvents = true

instance (stat : InodeStat) : Decidable stat.MayBeManaged := inferInstanceAs (Decidable (_ ∧ _ ∧ _))

/-- A record of one block with read events. -/
def InodeStat.sample : InodeStat := ⟨9, 1, 0o100644, hasAttributeFlag, readEvent, 512⟩

theorem InodeStat.sample_mayBeManaged : sample.MayBeManaged := ⟨rfl, rfl, rfl⟩

/-- The states that can be dumped as offline. -/
def Projectable (state : UInt16) : Prop := state = 2 ∨ state = 3 ∨ state = 4 ∨ state = 6

/-- What a reason says of the record and of the visible bytes. -/
def Disqualification.Justified (stat : InodeStat) (raw : List UInt8) : Disqualification → Prop
  | .notRegularFile => stat.kind ≠ .regularFile ∧ raw = []
  | .noAttributeFork => stat.kind = .regularFile ∧ stat.hasAttributeFork = false ∧ raw = []
  | .noManagedEvents =>
    stat.kind = .regularFile ∧ stat.hasAttributeFork = true ∧ stat.hasManagedEvents = false ∧ raw = []
  | .handleUnavailable => stat.MayBeManaged ∧ raw = []
  | .attributeUnavailable => stat.MayBeManaged ∧ raw = []
  | .attributeTooLarge length => stat.MayBeManaged ∧ bufferCapacity < length ∧ raw = []
  | .foreignFilesystem fsys => stat.MayBeManaged ∧ raw.head? = some fsys ∧ fsys ≠ 1
  | .layout error =>
    stat.MayBeManaged ∧ View.decode raw = .error error ∧ (raw = [] ∨ raw.head? = some 1)
  | .stateNotProjectable state =>
    stat.MayBeManaged ∧ raw.head? = some 1 ∧
      ∃ view, View.decode raw = .ok view ∧ view.header.state = state ∧ ¬ Projectable state

/-- What a verdict says of the record and of the visible bytes. -/
def Backed (stat : InodeStat) (raw : List UInt8) : Except Disqualification View → Prop
  | .ok view =>
    stat.MayBeManaged ∧ View.decode raw = .ok view ∧ raw.head? = some 1 ∧ Projectable view.header.state
  | .error reason => reason.Justified stat raw

/-! ### The tests -/

theorem quickReject_eq_none_iff (stat : InodeStat) : quickReject stat = none ↔ stat.MayBeManaged := by
  unfold quickReject InodeStat.MayBeManaged
  by_cases kind : stat.kind = .regularFile <;> cases stat.hasAttributeFork <;>
    cases stat.hasManagedEvents <;> simp [kind]

theorem exists_quickReject {stat : InodeStat} (unmanaged : ¬ stat.MayBeManaged) :
    ∃ reason, quickReject stat = some reason :=
  Option.ne_none_iff_exists'.mp fun none => unmanaged ((quickReject_eq_none_iff stat).mp none)

theorem quickReject_justified {stat : InodeStat} {reason : Disqualification}
    (h : quickReject stat = some reason) : reason.Justified stat [] := by
  unfold quickReject at h
  by_cases kind : stat.kind = .regularFile
  · cases fork : stat.hasAttributeFork with
    | false => simp [kind, fork] at h; subst h; exact ⟨kind, fork, rfl⟩
    | true =>
      cases events : stat.hasManagedEvents with
      | false => simp [kind, fork, events] at h; subst h; exact ⟨kind, fork, events, rfl⟩
      | true => simp [kind, fork, events] at h
  · simp [kind] at h; subst h; exact ⟨kind, rfl⟩

theorem ofRaw?_isSome_iff (state : UInt16) : (DmfState.ofRaw? state).isSome ↔ Projectable state := by
  rw [Option.isSome_iff_exists]
  constructor
  · rintro ⟨known, h⟩
    rw [DmfState.ofRaw?_eq_some_iff] at h
    subst h; cases known <;> simp [Projectable, DmfState.toRaw]
  · rintro (rfl | rfl | rfl | rfl)
    · exact ⟨.dualState, rfl⟩
    · exact ⟨.offline, rfl⟩
    · exact ⟨.unmigrating, rfl⟩
    · exact ⟨.part, rfl⟩

theorem judge_backed {stat : InodeStat} (managed : stat.MayBeManaged) (raw : List UInt8) :
    Backed stat raw (judge raw) := by
  cases raw with
  | nil => exact ⟨managed, rfl, .inl rfl⟩
  | cons fsys rest =>
    unfold judge
    by_cases own : fsys = Layout.xfs
    · have head : (fsys :: rest).head? = some 1 := congrArg some own
      simp only [own, ne_eq, not_true_eq_false, ite_false]
      rw [own] at head
      cases read : View.decode (Layout.xfs :: rest) with
      | error error => exact ⟨managed, read, .inr head⟩
      | ok view =>
        have known := ofRaw?_isSome_iff view.header.state
        cases state : DmfState.ofRaw? view.header.state with
        | some _ =>
          simp only [state]
          exact ⟨managed, read, head, known.mp (by simp [state])⟩
        | none =>
          simp only [state]
          exact ⟨managed, head, view, read, rfl, fun h => by simpa [state] using known.mpr h⟩
    · simp only [own, ne_eq, not_false_eq_true, ite_true]
      exact ⟨managed, rfl, own⟩

theorem judge_eq_ok {raw : List UInt8} {view : View} (own : raw.head? = some 1)
    (read : View.decode raw = .ok view) (known : Projectable view.header.state) : judge raw = .ok view := by
  obtain ⟨rest, rfl⟩ := List.head?_eq_some_iff.mp own
  obtain ⟨state, found⟩ := Option.isSome_iff_exists.mp ((ofRaw?_isSome_iff _).mpr known)
  simp [judge, Layout.xfs, read, found]

/-! ### The fetch -/

theorem judgeFetch_eq {ε : Type} (buffer : AttributeBuffer) (produced : Fill ε) :
    judgeFetch buffer produced =
      (match (buffer.fill produced).1 with
      | .error (.producer _) => .error .attributeUnavailable
      | .error (.overflow overflow) => .error (.attributeTooLarge overflow.length)
      | .ok _ => judge (buffer.fill produced).2.toList, (buffer.fill produced).2) := by
  unfold judgeFetch
  obtain ⟨answer, after⟩ := buffer.fill produced
  match answer with
  | .error (.producer _) => rfl
  | .error (.overflow _) => rfl
  | .ok _ => rfl

theorem judgeFetch_backed {ε : Type} {stat : InodeStat} (managed : stat.MayBeManaged) (buffer : AttributeBuffer)
    (produced : Fill ε) : Backed stat (judgeFetch buffer produced).2.toList (judgeFetch buffer produced).1 := by
  unfold judgeFetch AttributeBuffer.fill
  cases produced.outcome with
  | error _ => exact ⟨managed, List.take_zero⟩
  | ok written =>
    by_cases fits : written ≤ bufferCapacity
    · simp only [fits, dite_true]
      exact judge_backed managed _
    · simp only [fits, dite_false]
      exact ⟨managed, Nat.lt_of_not_le fits, List.take_zero⟩

namespace FileContext

variable {σ ε : Type} (backend : Backend σ ε)

theorem classify_eq (context : FileContext) (stat : InodeStat) (world : σ) :
    let result := evaluate backend context.filesystem context.buffer.clear stat world
    context.classify backend stat world =
      (conclude context.filesystem stat result.1.2 result.1.1, result.2) := rfl

theorem classify_rejected (context : FileContext) {stat : InodeStat} {reason : Disqualification}
    (quick : quickReject stat = some reason) (world : σ) :
    context.classify backend stat world =
      (conclude context.filesystem stat context.buffer.clear (.error reason), world) := by
  rw [classify_eq]
  unfold evaluate
  rw [quick]

theorem evaluate_cases (filesystem : Filesystem) (buffer : AttributeBuffer) (stat : InodeStat) (world : σ) :
    (∃ reason, quickReject stat = some reason ∧
      evaluate backend filesystem buffer stat world = ((.error reason, buffer), world)) ∨
    quickReject stat = none ∧
      ((∃ error world₁,
        backend.makeHandle filesystem.fsid stat.ino stat.generation world = (.error error, world₁) ∧
        evaluate backend filesystem buffer stat world = ((.error .handleUnavailable, buffer), world₁)) ∨
      ∃ handle world₁ produced world₂,
        backend.makeHandle filesystem.fsid stat.ino stat.generation world = (.ok handle, world₁) ∧
        backend.readAttribute handle managedAttributeName .root bufferCapacity world₁ = (produced, world₂) ∧
        evaluate backend filesystem buffer stat world = (judgeFetch buffer produced, world₂)) := by
  cases quick : quickReject stat with
  | some reason => exact .inl ⟨reason, rfl, by simp [evaluate, quick]⟩
  | none =>
    refine .inr ⟨rfl, ?_⟩
    match made : backend.makeHandle filesystem.fsid stat.ino stat.generation world with
    | (.error error, world₁) => exact .inl ⟨error, world₁, rfl, by simp [evaluate, quick, made]⟩
    | (.ok handle, world₁) =>
      exact .inr ⟨handle, world₁, _, _, rfl, rfl, by simp [evaluate, quick, made]⟩

theorem evaluate_backed (filesystem : Filesystem) {buffer : AttributeBuffer} (cleared : buffer.toList = [])
    (stat : InodeStat) (world : σ) :
    Backed stat (evaluate backend filesystem buffer stat world).1.2.toList
      (evaluate backend filesystem buffer stat world).1.1 := by
  obtain ⟨reason, quick, eq⟩ | ⟨quick, ⟨_, _, _, eq⟩ | ⟨_, _, produced, _, _, _, eq⟩⟩ :=
    evaluate_cases backend filesystem buffer stat world
  · rw [eq, cleared]; exact quickReject_justified quick
  · rw [eq, cleared]; exact ⟨(quickReject_eq_none_iff stat).mp quick, rfl⟩
  · rw [eq]; exact judgeFetch_backed ((quickReject_eq_none_iff stat).mp quick) buffer produced

end FileContext

/-!
## Verdicts as functions of a fetch

A classification asks for a handle and then for a value. What it learns there is
the fetch, and its verdict is a function of the record, the storage and the fetch
(`evaluate_eq_settle`). Of a value the verdict looks at the length and at the
first four bytes (`outcome_judge_congr`), so storage matters only where a fetch
shows one of these without having written it (`outcome_settle_congr`).
-/

/-- What a classification learns of a file: nothing if there is no handle. -/
def Backend.fetch {σ ε : Type} (backend : Backend σ ε) (fsid : FsId) (stat : InodeStat) (world : σ) :
    Option (Fill ε) :=
  match backend.makeHandle fsid stat.ino stat.generation world with
  | (.error _, _) => none
  | (.ok handle, world) => some (backend.readAttribute handle managedAttributeName .root bufferCapacity world).1

def settle {ε : Type} (buffer : AttributeBuffer) (stat : InodeStat) (fetch : Option (Fill ε)) :
    Except Disqualification View × AttributeBuffer :=
  match quickReject stat with
  | some reason => (.error reason, buffer)
  | none =>
    match fetch with
    | none => (.error .handleUnavailable, buffer)
    | some produced => judgeFetch buffer produced

/-- A verdict without the view: whether a file is a candidate, and why not. -/
def outcome (verdict : Except Disqualification View) : Except Disqualification Unit := verdict.map fun _ => ()

theorem evaluate_eq_settle {σ ε : Type} (backend : Backend σ ε) (filesystem : Filesystem)
    (buffer : AttributeBuffer) (stat : InodeStat) (world : σ) :
    (FileContext.evaluate backend filesystem buffer stat world).1 =
      settle buffer stat (backend.fetch filesystem.fsid stat world) := by
  unfold FileContext.evaluate settle Backend.fetch
  cases quickReject stat with
  | some reason => rfl
  | none =>
    obtain ⟨made, world₁⟩ := backend.makeHandle filesystem.fsid stat.ino stat.generation world
    cases made with
    | error error => rfl
    | ok handle => rfl

theorem conclude_eq_candidate_iff (filesystem : Filesystem) (stat : InodeStat) (buffer : AttributeBuffer)
    (verdict : Except Disqualification View) :
    (FileContext.conclude filesystem stat buffer verdict).1 = .candidate stat.size ↔ outcome verdict = .ok () := by
  cases verdict with
  | error reason => simp [FileContext.conclude, outcome, Except.map]
  | ok view => simp [FileContext.conclude, outcome, Except.map]

/-! ### The bytes that decide -/

theorem exists_four_cons {raw : List UInt8} (long : 4 ≤ raw.length) :
    ∃ fsys version high low rest, raw = fsys :: version :: high :: low :: rest := by
  match raw with
  | fsys :: version :: high :: low :: rest => exact ⟨fsys, version, high, low, rest, rfl⟩
  | [] | [_] | [_, _] | [_, _, _] => simp at long

theorem outcome_judge_cons (fsys : UInt8) (rest : List UInt8) :
    outcome (judge (fsys :: rest)) =
      if fsys = 1 then
        match (View.decode (fsys :: rest)).map (fun _ => ()) with
        | .error error => .error (.layout error)
        | .ok () =>
          if (DmfState.ofRaw? (Header.decode (fsys :: rest)).state).isSome then .ok ()
          else .error (.stateNotProjectable (Header.decode (fsys :: rest)).state)
      else .error (.foreignFilesystem fsys) := by
  unfold judge
  by_cases own : fsys = 1
  · simp only [own, Layout.xfs, ne_eq, not_true_eq_false, ite_false, ite_true]
    cases read : View.decode (1 :: rest) with
    | error error => rfl
    | ok view =>
      simp only [View.header_decode read, Except.map]
      cases DmfState.ofRaw? (Header.decode (1 :: rest)).state with
      | none => rfl
      | some state => rfl
  · simp [own, Layout.xfs, outcome, Except.map]

theorem decode_map_congr {a b : List UInt8} {version : UInt8} (length : a.length = b.length)
    (left : a[1]? = some version) (right : b[1]? = some version) :
    (View.decode a).map (fun _ => ()) = (View.decode b).map (fun _ => ()) := by
  rw [View.decode_eq left, View.decode_eq right, length]
  by_cases zero : version = 0
  · rw [if_pos zero, if_pos zero]
    by_cases exact : b.length = 22
    · rw [if_pos exact, if_pos exact]; rfl
    · rw [if_neg exact, if_neg exact]
  · rw [if_neg zero, if_neg zero]
    by_cases one : version = 1
    · rw [if_pos one, if_pos one]
      by_cases short : b.length < 48
      · rw [if_pos short, if_pos short]
      · rw [if_neg short, if_neg short]; rfl
    · rw [if_neg one, if_neg one]

theorem outcome_judge_congr {a b : List UInt8} (length : a.length = b.length) (front : a.take 4 = b.take 4) :
    outcome (judge a) = outcome (judge b) := by
  by_cases long : 4 ≤ a.length
  · obtain ⟨fsys, version, high, low, rest, rfl⟩ := exists_four_cons long
    obtain ⟨_, _, _, _, other, rfl⟩ := exists_four_cons (length ▸ long)
    obtain ⟨rfl, rfl, rfl, rfl⟩ : fsys = _ ∧ version = _ ∧ high = _ ∧ low = _ := by
      simpa using front
    -- the four bytes give the type, the format and the state; the lengths do the rest
    rw [outcome_judge_cons, outcome_judge_cons, decode_map_congr length rfl rfl]
    rfl
  · rw [List.take_of_length_le (by omega), List.take_of_length_le (by omega)] at front
    rw [front]

theorem low_byte_ne_zero {fsys version high low : UInt8} {rest : List UInt8}
    (known : Projectable (Header.decode (fsys :: version :: high :: low :: rest)).state) : low ≠ 0 := by
  rintro rfl
  have state := Header.toNat_state_decode fsys version high 0 rest
  rw [UInt8.toNat_zero] at state
  rcases known with two | three | four | six
  · rw [two] at state; simp at state; omega
  · rw [three] at state; simp at state; omega
  · rw [four] at state; simp at state; omega
  · rw [six] at state; simp at state; omega

/-! ### What the storage adds -/

section
variable {ε : Type} (produced : Fill ε)

/-- A byte of the storage that the fill makes visible. -/
def Fill.Shows (i : Nat) : Prop :=
  ∃ reported, produced.outcome = .ok reported ∧ reported ≤ bufferCapacity ∧ i < reported

/-- Each visible byte that can decide is written by the fill or the same in both storages. -/
def Fill.Levels (a b : AttributeBuffer) : Prop :=
  ∀ i < 4, produced.Shows i →
    (lastWritten i produced.writes).isSome ∨ a.storage.toList[i]? = b.storage.toList[i]?

theorem AttributeBuffer.getElem?_toList_fill (buffer : AttributeBuffer) {i : Nat} (shown : produced.Shows i) :
    (buffer.fill produced).2.toList[i]? = (lastWritten i produced.writes).or buffer.storage.toList[i]? := by
  obtain ⟨reported, outcome, fits, inside⟩ := shown
  rw [toList_fill, outcome]
  simp only [fits, ite_true]
  rw [List.getElem?_take, if_pos inside, getElem?_applyWrites (by omega)]

theorem AttributeBuffer.getElem?_toList_fill_hidden (buffer : AttributeBuffer) {i : Nat}
    (hidden : ¬ produced.Shows i) : (buffer.fill produced).2.toList[i]? = none := by
  rw [toList_fill]
  cases outcome : produced.outcome with
  | error _ => rfl
  | ok reported =>
    by_cases fits : reported ≤ bufferCapacity
    · have past : reported ≤ i := Nat.le_of_not_lt fun inside => hidden ⟨reported, outcome, fits, inside⟩
      simp only [fits, ite_true]
      rw [List.getElem?_take, if_neg (by omega)]
    · simp only [fits, ite_false]
      rfl

theorem AttributeBuffer.length_toList_fill (a b : AttributeBuffer) :
    (a.fill produced).2.toList.length = (b.fill produced).2.toList.length := by
  rw [length_toList, length_toList]
  unfold fill
  cases produced.outcome with
  | error _ => rfl
  | ok reported => by_cases fits : reported ≤ bufferCapacity <;> simp [fits]

end

section
variable {ε : Type} {produced : Fill ε} {a b : AttributeBuffer}

theorem take_four_toList_fill (level : produced.Levels a b) :
    (a.fill produced).2.toList.take 4 = (b.fill produced).2.toList.take 4 := by
  apply List.ext_getElem?
  intro i
  rw [List.getElem?_take, List.getElem?_take]
  by_cases decides : i < 4
  · rw [if_pos decides, if_pos decides]
    by_cases shown : produced.Shows i
    · rw [AttributeBuffer.getElem?_toList_fill _ _ shown, AttributeBuffer.getElem?_toList_fill _ _ shown]
      rcases level i decides shown with written | same
      · obtain ⟨byte, written⟩ := Option.isSome_iff_exists.mp written
        rw [written, Option.some_or, Option.some_or]
      · rw [same]
    · rw [AttributeBuffer.getElem?_toList_fill_hidden _ _ shown,
        AttributeBuffer.getElem?_toList_fill_hidden _ _ shown]
  · rw [if_neg decides, if_neg decides]

theorem outcome_judgeFetch_congr (level : produced.Levels a b) :
    outcome (judgeFetch a produced).1 = outcome (judgeFetch b produced).1 := by
  rw [judgeFetch_eq, judgeFetch_eq, AttributeBuffer.fill_answer a b]
  match (b.fill produced).1 with
  | .error (.producer _) => rfl
  | .error (.overflow _) => rfl
  | .ok _ =>
    exact outcome_judge_congr (AttributeBuffer.length_toList_fill produced a b) (take_four_toList_fill level)

theorem outcome_settle_congr (stat : InodeStat) {fetch : Option (Fill ε)}
    (level : ∀ produced, fetch = some produced → produced.Levels a b) :
    outcome (settle a stat fetch).1 = outcome (settle b stat fetch).1 := by
  unfold settle
  cases quickReject stat with
  | some reason => rfl
  | none =>
    cases fetch with
    | none => rfl
    | some produced => exact outcome_judgeFetch_congr (level produced rfl)

theorem judgeFetch_eq_ok {view : View} (accepted : (judgeFetch a produced).1 = .ok view) :
    judge (a.fill produced).2.toList = .ok view := by
  rw [judgeFetch_eq] at accepted
  match answer : (a.fill produced).1 with
  | .error (.producer _) => rw [answer] at accepted; cases accepted
  | .error (.overflow _) => rw [answer] at accepted; cases accepted
  | .ok _ => rw [answer] at accepted; exact accepted

end

end Residency
