import Mathlib.Algebra.Order.Group.Int
import Mathlib.Data.List.Forall2
import Residency.Proofs.Attribute.Spelling
import Residency.Proofs.Classify
import Residency.Proofs.Estimate
import Residency.Proofs.Project
import Residency.Session

/-!
# Histories of a session

What one operation keeps, a session keeps: contexts that agree with their files,
attributes of one form, calls only where they are needed.
-/

/-!
## What happened to each context

Beside a session runs a record of its file contexts: the filesystem of each, and
the last record classified on it with the world of that moment. A relation
between pasts and contexts that holds of new contexts and that classification
keeps holds after every run (`run_forall₂`).
-/

namespace Residency

/-- The filesystem a file context was allocated of, and the last classification on it. -/
structure Past (σ : Type) where
  filesystem : Filesystem
  last : Option (InodeStat × σ)

def Past.classified {σ : Type} (stat : InodeStat) (world : σ) (past : Past σ) : Past σ :=
  { past with last := some (stat, world) }

namespace Session

variable {σ ε : Type} (backend : Backend σ ε)

/-- What one operation adds to the record. -/
def note (session : Session σ) (pasts : List (Past σ)) : Operation σ → List (Past σ)
  | .allocate number => pasts ++ (session.filesystems[number]?.map (Past.mk · none)).toList
  | .classify file stat => pasts.modify file (.classified stat session.world)
  | _ => pasts

def noteAll : Session σ → List (Past σ) → List (Operation σ) → List (Past σ)
  | _, pasts, [] => pasts
  | session, pasts, operation :: rest =>
    noteAll (step backend session operation).2 (session.note pasts operation) rest

def history (world : σ) (operations : List (Operation σ)) : List (Past σ) :=
  noteAll backend (start world) [] operations

/-! ### Runs -/

theorem run_cons (session : Session σ) (operation : Operation σ) (rest : List (Operation σ)) :
    run backend session (operation :: rest) =
      ((step backend session operation).1 :: (run backend (step backend session operation).2 rest).1,
        (run backend (step backend session operation).2 rest).2) := rfl

theorem run_append (session : Session σ) (before after : List (Operation σ)) :
    run backend session (before ++ after) =
      ((run backend session before).1 ++ (run backend (run backend session before).2 after).1,
        (run backend (run backend session before).2 after).2) := by
  induction before generalizing session with
  | nil => rfl
  | cons operation before ih => rw [List.cons_append, run_cons, run_cons, ih]; rfl

theorem length_replies (session : Session σ) (operations : List (Operation σ)) :
    (run backend session operations).1.length = operations.length := by
  induction operations generalizing session with
  | nil => rfl
  | cons operation rest ih => rw [run_cons, List.length_cons, List.length_cons, ih]

theorem reply_eq_step (session : Session σ) (before : List (Operation σ)) (operation : Operation σ)
    (after : List (Operation σ)) :
    (run backend session (before ++ operation :: after)).1[before.length]? =
      some (step backend (run backend session before).2 operation).1 := by
  have earlier := length_replies backend session before
  rw [run_append, List.getElem?_append_right (Nat.le_of_eq earlier), earlier, Nat.sub_self, run_cons]
  rfl

/-! ### One step -/

theorem set_eq_modify {α : Type} (f : α → α) : ∀ (l : List α) (i : Nat) (a : α), l[i]? = some a →
    l.set i (f a) = l.modify i f
  | [], _, _, h => by simp at h
  | b :: l, 0, a, h => by simp at h; subst h; rfl
  | b :: l, i + 1, a, h => by
    rw [List.set_cons_succ, List.modify_succ_cons, set_eq_modify f l i a (by simpa using h)]

/-- Only allocation and classification touch the file contexts. -/
theorem step_files (session : Session σ) (operation : Operation σ) :
    (step backend session operation).2.files =
      match operation with
      | .allocate number => session.files ++ (session.filesystems[number]?.map Filesystem.allocate).toList
      | .classify file stat =>
        session.files.modify file fun context => (context.classify backend stat session.world).1.2
      | _ => session.files := by
  cases operation with
  | init mount apiVersion =>
    simp only [step]
    split <;> rfl
  | allocate number =>
    simp only [step, onFilesystem]
    cases session.filesystems[number]? <;> simp
  | classify file stat =>
    simp only [step, onFile]
    cases there : session.files[file]? with
    | none =>
      rw [List.getElem?_eq_none_iff] at there
      exact (List.modify_eq_self there).symm
    | some context =>
      exact set_eq_modify (fun context => (context.classify backend stat session.world).1.2) _ _ _ there
  | metadata file _ => simp only [step, onFile]; cases session.files[file]? <;> rfl
  | extents file _ => simp only [step, onFile]; cases session.files[file]? <;> rfl
  | filter file _ _ _ => simp only [step, onFile]; cases session.files[file]? <;> rfl
  | add file _ _ => simp only [step, onFile]; cases session.files[file]? <;> rfl
  | estimateSpace number _ => simp only [step, onFilesystem]; cases session.filesystems[number]? <;> rfl
  | estimateOffset number _ _ => simp only [step, onFilesystem]; cases session.filesystems[number]? <;> rfl
  | inspect file => simp only [step, onFile]; cases session.files[file]? <;> rfl
  | change _ => rfl

/-! ### Relations that every run keeps -/

theorem forall₂_modify {α β : Type} {R : α → β → Prop} {f : α → α} {g : β → β}
    (keeps : ∀ a b, R a b → R (f a) (g b)) : ∀ {l₁ : List α} {l₂ : List β} (i : Nat),
    List.Forall₂ R l₁ l₂ → List.Forall₂ R (l₁.modify i f) (l₂.modify i g)
  | [], [], _, _ => by simp
  | a :: l₁, b :: l₂, 0, .cons h t => .cons (keeps a b h) t
  | a :: l₁, b :: l₂, i + 1, .cons h t => by
    rw [List.modify_succ_cons, List.modify_succ_cons]
    exact .cons h (forall₂_modify keeps i t)

section
variable {R : Past σ → FileContext → Prop}
  (fresh : ∀ filesystem, R ⟨filesystem, none⟩ filesystem.allocate)
  (kept : ∀ past context stat world, R past context →
    R (past.classified stat world) (context.classify backend stat world).1.2)
include fresh kept

theorem step_forall₂ {session : Session σ} {pasts : List (Past σ)} (h : List.Forall₂ R pasts session.files)
    (operation : Operation σ) :
    List.Forall₂ R (session.note pasts operation) (step backend session operation).2.files := by
  rw [step_files]
  cases operation with
  | allocate number =>
    refine List.rel_append h ?_
    cases session.filesystems[number]? with
    | none => exact .nil
    | some filesystem => exact .cons (fresh filesystem) .nil
  | classify file stat => exact forall₂_modify (fun past context => kept past context stat session.world) file h
  | _ => exact h

theorem run_forall₂ {session : Session σ} {pasts : List (Past σ)} (h : List.Forall₂ R pasts session.files)
    (operations : List (Operation σ)) :
    List.Forall₂ R (noteAll backend session pasts operations) (run backend session operations).2.files := by
  induction operations generalizing session pasts with
  | nil => exact h
  | cons operation rest ih => exact ih (step_forall₂ backend fresh kept h operation)

theorem history_forall₂ (world : σ) (operations : List (Operation σ)) :
    List.Forall₂ R (history backend world operations) (run backend (start world) operations).2.files :=
  run_forall₂ backend fresh kept .nil operations

end

/-- What holds of new contexts and is kept by classification holds of every context of a run. -/
theorem forall_mem_run {P : FileContext → Prop} (fresh : ∀ filesystem : Filesystem, P filesystem.allocate)
    (kept : ∀ context stat world, P context → P (context.classify backend stat world).1.2)
    (world : σ) (operations : List (Operation σ)) :
    ∀ context ∈ (run backend (start world) operations).2.files, P context := by
  have related := history_forall₂ backend (R := fun _ context => P context) fresh (fun _ => kept) world operations
  intro context inside
  obtain ⟨number, there, rfl⟩ := List.getElem_of_mem inside
  exact related.get (by rw [related.length_eq]; exact there) there

end Session

/-!
## State and bytes of a context agree

A context's state, its visible bytes and the record classified last fit together
after every run, whatever the backend answers. Main statement: `run_coherent`.
-/

/-- A context fits the record classified last on it. -/
def Coherent (last : Option InodeStat) (context : FileContext) : Prop :=
  context.rawAttribute.length ≤ 5000 ∧
  match context.state with
  | .unclassified => last = none ∧ context.rawAttribute = []
  | .candidate fileSize view =>
    ∃ stat, last = some stat ∧ fileSize = stat.size ∧ Backed stat context.rawAttribute (.ok view)
  | .rejected reason => ∃ stat, last = some stat ∧ Backed stat context.rawAttribute (.error reason)

theorem length_rawAttribute_le (context : FileContext) : context.rawAttribute.length ≤ 5000 := by
  rw [FileContext.rawAttribute, AttributeBuffer.length_toList]
  exact context.buffer.length_le

theorem allocate_coherent (filesystem : Filesystem) : Coherent none filesystem.allocate :=
  ⟨length_rawAttribute_le _, rfl, AttributeBuffer.toList_empty⟩

theorem classify_coherent {σ ε : Type} (backend : Backend σ ε) (context : FileContext) (stat : InodeStat)
    (world : σ) : Coherent (some stat) (context.classify backend stat world).1.2 := by
  refine ⟨length_rawAttribute_le _, ?_⟩
  have backed := FileContext.evaluate_backed backend context.filesystem
    (AttributeBuffer.toList_clear context.buffer) stat world
  rw [FileContext.classify_eq]
  cases verdict : (FileContext.evaluate backend context.filesystem context.buffer.clear stat world).1.1 with
  | error reason =>
    rw [verdict] at backed
    exact ⟨stat, rfl, backed⟩
  | ok view =>
    rw [verdict] at backed
    exact ⟨stat, rfl, rfl, backed⟩

/-- After any operations on any number of contexts, with any backend, every
context fits what happened to it. -/
theorem run_coherent {σ ε : Type} (backend : Backend σ ε) (world : σ) (operations : List (Operation σ)) :
    List.Forall₂ (fun past context => Coherent (past.last.map Prod.fst) context)
      (Session.history backend world operations)
      (Session.run backend (.start world) operations).2.files := by
  refine Session.history_forall₂ backend ?_ ?_ world operations
  · exact fun filesystem => allocate_coherent filesystem
  · exact fun _ context stat world _ => classify_coherent backend context stat world

/-!
## The value that is added

The view that a candidate keeps was read from the bytes that it shows, in every
session. What is added for it is therefore cut from these bytes. Main statement:
`newAttribute?_bytes`.
-/

open BigEndian

/-- Eight bytes hold a signed size in two's complement. -/
theorem valueOf_encode_toUInt64 (size : Int64) :
    (valueOf (encode 8 size.toUInt64) : Int) = size.toInt % 2 ^ 64 := by
  have fits : size.toUInt64.toNat < 256 ^ 8 := size.toUInt64.toNat_lt
  have sign := BitVec.toInt_eq_toNat_cond size.toBitVec
  have same : size.toBitVec.toNat = size.toUInt64.toNat := rfl
  rw [valueOf_encode, Nat.mod_eq_of_lt fits]
  rw [Int64.toInt_toBitVec, same] at sign
  split at sign <;> omega

theorem Coherent.decode_rawAttribute {last : Option InodeStat} {context : FileContext} {fileSize : Int64}
    {view : View} (coherent : Coherent last context) (held : context.candidate? = some (fileSize, view)) :
    View.decode context.rawAttribute = .ok view := by
  obtain ⟨-, fits⟩ := coherent
  rw [FileContext.candidate?] at held
  cases state : context.state with
  | unclassified => rw [state] at held; cases held
  | rejected reason => rw [state] at held; cases held
  | candidate size read =>
    rw [state] at held fits
    cases held
    obtain ⟨stat, -, -, backed⟩ := fits
    exact backed.2.1

namespace Session

variable {σ ε : Type} {backend : Backend σ ε} {world : σ} {operations : List (Operation σ)} {context : FileContext}
  {fileSize : Int64} {view : View}

theorem exists_coherent (reached : context ∈ (run backend (start world) operations).2.files) :
    ∃ last, Coherent last context := by
  refine forall_mem_run backend (P := fun context => ∃ last, Coherent last context) ?_ ?_ world operations
    context reached
  · exact fun filesystem => ⟨none, allocate_coherent filesystem⟩
  · exact fun context stat world _ => ⟨some stat, classify_coherent backend context stat world⟩

/-- What is added for a candidate, byte by byte: its own value with the state of an
offline file, and in place of the regions one region if there is a site tag. -/
theorem newAttribute?_bytes (reached : context ∈ (run backend (start world) operations).2.files)
    (held : context.candidate? = some (fileSize, view)) :
    let raw := context.rawAttribute
    ∃ value size, context.newAttribute? 0 .root = some ⟨managedAttributeName, .root, value⟩ ∧
      size.length = 8 ∧ (valueOf size : Int) = fileSize.toInt % 2 ^ 64 ∧
      (if raw[1]? = some 1 ∧ raw.extract 22 26 ≠ [0, 0, 0, 0] then
        value = taggedBytes raw size ∧ value.length = 48 ∧ value.extract 22 26 = raw.extract 22 26
      else value = untaggedBytes raw ∧ value.length = 22) ∧
      value.extract 4 22 = raw.extract 4 22 ∧ value.length ≤ raw.length := by
  intro raw
  obtain ⟨last, coherent⟩ := exists_coherent reached
  have read : View.decode raw = .ok view := coherent.decode_rawAttribute held
  have eight : (encode 8 fileSize.toUInt64).length = 8 := length_encode 8 _
  refine ⟨_, encode 8 fileSize.toUInt64, FileContext.newAttribute?_candidate held, eight,
    valueOf_encode_toUInt64 fileSize, ?_⟩
  rw [View.encode_offlineReplacement read]
  have lengths := View.decode_eq_ok read
  by_cases tagged : raw[1]? = some 1 ∧ raw.extract 22 26 ≠ [0, 0, 0, 0]
  · have long : 48 ≤ raw.length := by
      rcases lengths with ⟨zero, -⟩ | ⟨-, long, -⟩
      · rw [zero] at tagged; simp at tagged
      · exact long
    have room : 26 ≤ raw.length := by omega
    have length := length_taggedBytes room eight
    obtain ⟨kept, tag⟩ := extract_taggedBytes room (encode 8 fileSize.toUInt64)
    rw [if_pos tagged, if_pos tagged]
    exact ⟨⟨rfl, length, tag⟩, kept, by omega⟩
  · have room : 22 ≤ raw.length := by
      rcases lengths with ⟨-, short, -⟩ | ⟨-, long, -⟩ <;> omega
    have length := length_untaggedBytes room
    rw [if_neg tagged, if_neg tagged]
    exact ⟨⟨rfl, length⟩, extract_untaggedBytes room, by omega⟩

theorem newAttribute?_bytes_site :
    let fresh := (Filesystem.mk 1 ⟨zeros 8, length_zeros 8⟩).allocate
    let context := (fresh.classify .sameValue .sample FileContext.siteView.encode).1.2
    let operations := [.init "/dmf" 1, .allocate 0, .classify 0 .sample]
    context ∈ (run .sameValue (start FileContext.siteView.encode) operations).2.files ∧
      context.candidate? = some (512, FileContext.siteView) ∧
      ∃ value, context.newAttribute? 0 .root = some ⟨managedAttributeName, .root, value⟩ ∧
        value.extract 4 22 = context.rawAttribute.extract 4 22 ∧ value.length ≤ context.rawAttribute.length := by
  intro fresh context operations
  have held : context.candidate? = some (512, FileContext.siteView) :=
    FileContext.classify_siteView InodeStat.sample_mayBeManaged fresh
  have mounted : Filesystem.init .sameValue "/dmf" 1 FileContext.siteView.encode =
      (.ok fresh.filesystem, FileContext.siteView.encode) := rfl
  have again : fresh.filesystem.allocate = fresh := rfl
  have reached : context ∈ (run .sameValue (start FileContext.siteView.encode) operations).2.files := by
    simp [operations, run, step, start, onFilesystem, onFile, mounted, again, context]
  obtain ⟨value, _, added, -, -, -, kept, short⟩ := newAttribute?_bytes reached held
  exact ⟨reached, held, value, added, kept, short⟩

end Session

end Residency

/-!
## Calls of a session

A session over a backend that notes its calls is the session over the backend
itself, and each step adds to the notes what `Session.calls` says (`run_calls`).
-/

namespace Residency

variable {σ ε : Type}

/-- The same operation beside some notes, which no change of the world touches. -/
def Operation.noted : Operation σ → Operation (σ × List Call)
  | .init mount apiVersion => .init mount apiVersion
  | .allocate filesystem => .allocate filesystem
  | .classify file stat => .classify file stat
  | .metadata file stat => .metadata file stat
  | .extents file page => .extents file page
  | .filter file name size space => .filter file name size space
  | .add file cursor space => .add file cursor space
  | .estimateSpace filesystem stat => .estimateSpace filesystem stat
  | .estimateOffset filesystem stat byteCount => .estimateOffset filesystem stat byteCount
  | .inspect file => .inspect file
  | .change effect => .change fun (world, log) => (effect world, log)

namespace Session

def noted (session : Session σ) (log : List Call) : Session (σ × List Call) :=
  ⟨(session.world, log), session.filesystems, session.files⟩

/-- The calls of one operation. A version that is not spoken is refused without
one; only classifications and offset estimates ask about files. -/
def calls (backend : Backend σ ε) (session : Session σ) : Operation σ → List Call
  | .init mount apiVersion => if apiVersion = 1 then [.resolveMount mount] else []
  | .classify file stat =>
    match session.files[file]? with
    | some context => backend.classifyCalls context.filesystem.fsid stat session.world
    | none => []
  | .estimateOffset number stat _ =>
    match session.filesystems[number]? with
    | some filesystem => backend.classifyCalls filesystem.fsid stat session.world
    | none => []
  | _ => []

def allCalls (backend : Backend σ ε) : Session σ → List (Operation σ) → List Call
  | _, [] => []
  | session, operation :: rest =>
    session.calls backend operation ++ allCalls backend (step backend session operation).2 rest

variable (backend : Backend σ ε)

theorem step_noted (session : Session σ) (log : List Call) (operation : Operation σ) :
    step backend.recorded (session.noted log) operation.noted =
      ((step backend session operation).1,
        (step backend session operation).2.noted (log ++ session.calls backend operation)) := by
  have notes := backend.recorded_notes
  cases operation with
  | init mount apiVersion =>
    simp only [Operation.noted, step, noted, init_notes notes]
    obtain ⟨answer, world⟩ := Filesystem.init backend mount apiVersion session.world
    cases answer with
    | ok filesystem => rfl
    | error error => rfl
  | classify file stat =>
    simp only [Operation.noted, step, noted, onFile, calls]
    cases session.files[file]? with
    | none => simp
    | some context => simp [classify_notes notes]
  | estimateOffset number stat byteCount =>
    simp only [Operation.noted, step, noted, onFilesystem, calls]
    cases session.filesystems[number]? with
    | none => simp
    | some filesystem => simp [estimateOffset_notes notes]
  | allocate number =>
    simp only [Operation.noted, step, noted, onFilesystem, calls, List.append_nil]
    cases session.filesystems[number]? <;> rfl
  | estimateSpace number stat =>
    simp only [Operation.noted, step, noted, onFilesystem, calls, List.append_nil]
    cases session.filesystems[number]? <;> rfl
  | metadata file _ | extents file _ | filter file _ _ _ | add file _ _ | inspect file =>
    simp only [Operation.noted, step, noted, onFile, calls, List.append_nil]
    cases session.files[file]? <;> rfl
  | change effect => simp [Operation.noted, step, noted, calls]

theorem run_noted (session : Session σ) (log : List Call) (operations : List (Operation σ)) :
    run backend.recorded (session.noted log) (operations.map Operation.noted) =
      ((run backend session operations).1,
        (run backend session operations).2.noted (log ++ session.allCalls backend operations)) := by
  induction operations generalizing session log with
  | nil => simp [run, allCalls]
  | cons operation rest ih =>
    rw [List.map_cons, run_cons, run_cons, step_noted, ih, allCalls, List.append_assoc]

theorem mayBeManaged_of_estimateOffset {filesystem : Filesystem} {stat : InodeStat} {byteCount size : Int64}
    {world : σ} (estimated : (filesystem.estimateOffset backend stat byteCount world).1 = some size) :
    stat.MayBeManaged := by
  have candidate : (filesystem.allocate.classify backend stat world).1.1.isCandidate = true := by
    by_contra other
    have nothing : (filesystem.estimateOffset backend stat byteCount world).1 = none := if_neg other
    rw [nothing] at estimated
    cases estimated
  rw [classify_isCandidate] at candidate
  obtain ⟨-, raw, view, backed, -⟩ := FileContext.classify_eq_candidate candidate
  exact backed.1

/-- Noting its calls changes nothing of a session, and whatever it did before,
each step makes the calls of its operation and no others. A classification makes
one exactly if the space estimate is zero, and a file with an offset estimate has
that space estimate. -/
theorem run_calls (world : σ) (operations : List (Operation σ)) :
    let reached := run backend (start world) operations
    let session := run backend.recorded (start (world, [])) (operations.map Operation.noted)
    session = (reached.1, reached.2.noted ((start world).allCalls backend operations)) ∧
    (∀ operation, step backend.recorded session.2 operation.noted =
      ((step backend reached.2 operation).1,
        (step backend reached.2 operation).2.noted
          (session.2.world.2 ++ reached.2.calls backend operation))) ∧
    ∀ (stat : InodeStat) (now : σ) (log : List Call),
      (∀ context : FileContext, Filesystem.estimateSpace stat = some 0 ↔
        (context.classify backend.recorded stat (now, log)).2.2 ≠ log) ∧
      ∀ (filesystem : Filesystem) (byteCount size : Int64),
        (filesystem.estimateOffset backend stat byteCount now).1 = some size →
          Filesystem.estimateSpace stat = some 0 := by
  intro reached session
  have same : session = (reached.1, reached.2.noted ((start world).allCalls backend operations)) := by
    have whole := run_noted backend (start world) [] operations
    rwa [List.nil_append] at whole
  refine ⟨same, ?_, ?_⟩
  · intro operation
    rw [same]
    exact step_noted backend reached.2 _ operation
  · intro stat now log
    constructor
    · intro context
      have calls := classifyCalls_eq_nil_iff backend context.filesystem.fsid stat now
      rw [classify_notes backend.recorded_notes, estimateSpace_eq_zero_iff, ← not_not (a := stat.MayBeManaged),
        ← calls]
      simp
    · intro filesystem byteCount size estimated
      exact (estimateSpace_eq_zero_iff stat).mpr (mayBeManaged_of_estimateOffset backend estimated)

/-- A version that is not spoken, then one that is, and two files of which one is a directory. -/
def twoFiles : List (Operation (List UInt8)) :=
  [.init "/dmf" 2, .init "/dmf" 1, .allocate 0, .classify 0 .sample,
    .classify 0 { InodeStat.sample with mode := 0o040755 }]

theorem run_calls_two_files :
    let fsid : FsId := ⟨zeros 8, length_zeros 8⟩
    let session := run Backend.sameValue.recorded (start (dualValue, [])) (twoFiles.map Operation.noted)
    session.2.world.2 =
      [.resolveMount "/dmf", .makeHandle fsid 9 1, .readAttribute [] managedAttributeName .root 5000] ∧
    ((Filesystem.mk 1 fsid).estimateOffset .sameValue .sample 100 dualValue).1 = some 512 ∧
    Filesystem.estimateSpace .sample = some 0 := by
  intro fsid session
  obtain ⟨same, -, estimates⟩ := run_calls Backend.sameValue dualValue twoFiles
  have estimated : ((Filesystem.mk 1 fsid).estimateOffset .sameValue .sample 100 dualValue).1 = some 512 := by
    decide +kernel
  refine ⟨?_, estimated, (estimates .sample dualValue []).2 _ _ _ estimated⟩
  rw [show session = _ from same]
  decide +kernel

end Session

end Residency
