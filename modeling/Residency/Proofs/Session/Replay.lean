import Residency.Proofs.Classify
import Residency.Proofs.Estimate
import Residency.Proofs.Project
import Residency.Proofs.Session.History

/-!
# Sessions that repeat a classification

Sessions whose contexts have other pasts, and files that are classified again.
-/

/-!
## Contexts forget

A context is reused for every file of a stream and its storage is never wiped.
If the backend writes every byte that it reports, nothing of that is visible: a
context is like a new one of its filesystem on which only the last
classification ran, in the world of that moment. Main statement: `run_forgets`.
-/

namespace Residency

/-- The host cannot tell the contexts apart. Their storage may differ. -/
def FileContext.Alike (a b : FileContext) : Prop :=
  a.filesystem = b.filesystem ∧ a.state = b.state ∧ a.rawAttribute = b.rawAttribute

/-- A new context on which only the last classification ran. -/
def Past.replay {σ ε : Type} (backend : Backend σ ε) (past : Past σ) : FileContext :=
  match past.last with
  | none => past.filesystem.allocate
  | some (stat, world) => (past.filesystem.allocate.classify backend stat world).1.2

/-- A session in which each context is replaced by the replay of its past. -/
def Session.replayed {σ ε : Type} (backend : Backend σ ε) (world : σ) (operations : List (Operation σ)) :
    Session σ :=
  { (run backend (start world) operations).2 with
    files := (history backend world operations).map (Past.replay backend) }

/-! ### Classification -/

theorem judgeFetch_honest {ε : Type} {produced : Fill ε} (honest : produced.Honest) (a b : AttributeBuffer) :
    (judgeFetch a produced).1 = (judgeFetch b produced).1 ∧
      (judgeFetch a produced).2.toList = (judgeFetch b produced).2.toList := by
  rw [judgeFetch_eq, judgeFetch_eq, AttributeBuffer.fill_answer a b,
    AttributeBuffer.toList_fill_honest honest a b]
  exact ⟨rfl, rfl⟩

namespace FileContext

variable {σ ε : Type} {backend : Backend σ ε} (honest : backend.Honest)

include honest in
theorem evaluate_honest (filesystem : Filesystem) {a b : AttributeBuffer} (visible : a.toList = b.toList)
    (stat : InodeStat) (world : σ) :
    (evaluate backend filesystem a stat world).1.1 = (evaluate backend filesystem b stat world).1.1 ∧
      (evaluate backend filesystem a stat world).1.2.toList =
        (evaluate backend filesystem b stat world).1.2.toList ∧
      (evaluate backend filesystem a stat world).2 = (evaluate backend filesystem b stat world).2 := by
  unfold evaluate
  cases quickReject stat with
  | some reason => exact ⟨rfl, visible, rfl⟩
  | none =>
    obtain ⟨made, world₁⟩ := backend.makeHandle filesystem.fsid stat.ino stat.generation world
    cases made with
    | error _ => exact ⟨rfl, visible, rfl⟩
    | ok handle =>
      obtain ⟨verdict, bytes⟩ := judgeFetch_honest (honest handle managedAttributeName .root world₁) a b
      exact ⟨verdict, bytes, rfl⟩

include honest in
/-- What a context held before does not matter to a classification. -/
theorem classify_honest {a b : FileContext} (same : a.filesystem = b.filesystem) (stat : InodeStat) (world : σ) :
    (a.classify backend stat world).1.1 = (b.classify backend stat world).1.1 ∧
      Alike (a.classify backend stat world).1.2 (b.classify backend stat world).1.2 ∧
      (a.classify backend stat world).2 = (b.classify backend stat world).2 := by
  have cleared : a.buffer.clear.toList = b.buffer.clear.toList := by simp
  obtain ⟨verdict, bytes, world₁⟩ := evaluate_honest honest a.filesystem cleared stat world
  rw [classify_eq, classify_eq]
  rw [same] at verdict bytes world₁ ⊢
  rw [verdict]
  cases (evaluate backend b.filesystem b.buffer.clear stat world).1.1 with
  | error reason => exact ⟨rfl, ⟨rfl, rfl, bytes⟩, world₁⟩
  | ok view => exact ⟨rfl, ⟨rfl, rfl, bytes⟩, world₁⟩

theorem classify_filesystem (backend : Backend σ ε) (context : FileContext) (stat : InodeStat) (world : σ) :
    (context.classify backend stat world).1.2.filesystem = context.filesystem := by
  rw [classify_eq]
  cases (evaluate backend context.filesystem context.buffer.clear stat world).1.1 <;> rfl

theorem Alike.candidate?_eq {a b : FileContext} (alike : Alike a b) : a.candidate? = b.candidate? := by
  simp only [candidate?, alike.2.1]

end FileContext

/-! ### Steps -/

theorem lookup_forall₂ {α β : Type} {R : α → β → Prop} : ∀ {l₁ : List α} {l₂ : List β} (i : Nat),
    List.Forall₂ R l₁ l₂ → (l₁[i]? = none ∧ l₂[i]? = none) ∨
      ∃ a b, l₁[i]? = some a ∧ l₂[i]? = some b ∧ R a b
  | [], [], _, _ => .inl ⟨rfl, rfl⟩
  | a :: _, b :: _, 0, .cons h _ => .inr ⟨a, b, rfl, rfl, h⟩
  | _ :: l₁, _ :: l₂, i + 1, .cons _ t => by simpa using lookup_forall₂ i t

namespace Session

variable {σ ε : Type} {backend : Backend σ ε}

theorem onFile_reply {a b : Session σ} (files : List.Forall₂ FileContext.Alike a.files b.files) (file : Nat)
    {act₁ act₂ : FileContext → Reply ε × Session σ}
    (same : ∀ c d, FileContext.Alike c d → (act₁ c).1 = (act₂ d).1) :
    (a.onFile file act₁).1 = (b.onFile file act₂).1 := by
  unfold onFile
  obtain ⟨left, right⟩ | ⟨c, d, left, right, alike⟩ := lookup_forall₂ file files
  · rw [left, right]
  · rw [left, right]; exact same c d alike

/-- The reply of a step depends on what the host can tell of the contexts. -/
theorem step_reply (honest : backend.Honest) {a b : Session σ} (world : a.world = b.world)
    (filesystems : a.filesystems = b.filesystems) (files : List.Forall₂ FileContext.Alike a.files b.files)
    (operation : Operation σ) : (step backend a operation).1 = (step backend b operation).1 := by
  cases operation with
  | init mount apiVersion =>
    simp only [step, world, filesystems]
    split <;> rfl
  | allocate number =>
    simp only [step, onFilesystem, filesystems, files.length_eq]
    split <;> rfl
  | classify file stat =>
    refine onFile_reply files file fun c d alike => ?_
    simp only [world]
    exact congrArg Reply.classified (FileContext.classify_honest honest alike.1 stat b.world).1
  | metadata file stat =>
    refine onFile_reply files file fun c d alike => ?_
    exact congrArg Reply.metadata (FileContext.projectMetadata_congr alike.candidate?_eq stat)
  | extents file page =>
    refine onFile_reply files file fun c d alike => ?_
    have size : c.fileSize? = d.fileSize? := congrArg (Option.map Prod.fst) alike.candidate?_eq
    exact congrArg Reply.extents (FileContext.projectExtents_congr size page)
  | filter file name size space =>
    refine onFile_reply files file fun c d alike => ?_
    exact congrArg Reply.filtered (FileContext.filterAttribute_congr alike.candidate?_eq name size space)
  | add file cursor space =>
    refine onFile_reply files file fun c d alike => ?_
    exact congrArg Reply.added (FileContext.newAttribute?_congr alike.candidate?_eq cursor space)
  | estimateSpace number stat =>
    simp only [step, onFilesystem, filesystems]
    split <;> rfl
  | estimateOffset number stat byteCount =>
    simp only [step, onFilesystem, filesystems, world]
    split <;> rfl
  | inspect file => exact onFile_reply files file fun _ _ _ => rfl
  | change effect => rfl

/-! ### Runs -/

theorem replay_classified (honest : backend.Honest) {past : Past σ} {context : FileContext}
    (alike : FileContext.Alike (past.replay backend) context) (stat : InodeStat) (world : σ) :
    FileContext.Alike ((past.classified stat world).replay backend)
      (context.classify backend stat world).1.2 := by
  have same : past.filesystem.allocate.filesystem = context.filesystem := by
    rw [← alike.1, Past.replay]
    cases past.last with
    | none => rfl
    | some last => exact (FileContext.classify_filesystem backend _ _ _).symm
  exact (FileContext.classify_honest honest same stat world).2.1

theorem history_alike (honest : backend.Honest) (world : σ) (operations : List (Operation σ)) :
    List.Forall₂ (fun past context => FileContext.Alike (past.replay backend) context)
      (history backend world operations) (run backend (start world) operations).2.files := by
  refine history_forall₂ backend ?_ ?_ world operations
  · exact fun filesystem => ⟨rfl, rfl, rfl⟩
  · exact fun _ _ stat world alike => replay_classified honest alike stat world

/-- At the end each context is like the replay of its past, and each reply of the
run is the one that the replays of the pasts up to that step would have given. -/
theorem run_forgets (honest : backend.Honest) (world : σ) (operations : List (Operation σ)) :
    List.Forall₂ (fun past context => FileContext.Alike (past.replay backend) context)
      (history backend world operations) (run backend (start world) operations).2.files ∧
    ∀ before operation after, operations = before ++ operation :: after →
      (run backend (start world) operations).1[before.length]? =
        some (step backend (replayed backend world before) operation).1 := by
  refine ⟨history_alike honest world operations, ?_⟩
  -- the step is taken from the session that the earlier operations lead to
  rintro before operation after rfl
  rw [reply_eq_step]
  have files : List.Forall₂ FileContext.Alike (replayed backend world before).files
      (run backend (start world) before).2.files :=
    List.forall₂_map_left_iff.mpr (history_alike honest world before)
  have reply : (step backend (replayed backend world before) operation).1 =
      (step backend (run backend (start world) before).2 operation).1 := by
    refine step_reply honest ?_ ?_ files operation
    · rfl
    · rfl
  rw [reply]

/-- Two streams of one filesystem. The first classifies a long value, then a short one. -/
def twoStreams : List (Operation (List UInt8)) :=
  [.init "/dmf" 1, .allocate 0, .allocate 0, .classify 0 .sample,
    .change fun _ => 1 :: 0 :: 0 :: 2 :: zeros 18, .classify 1 .sample, .classify 0 .sample]

theorem run_forgets_two_streams :
    let long := 1 :: 1 :: 0 :: 2 :: zeros 44
    Backend.sameValue.Honest ∧
      (run .sameValue (start long) (twoStreams ++ [.add 0 0 .root])).1[twoStreams.length]? =
        some (step .sameValue (replayed .sameValue long twoStreams) (.add 0 0 .root)).1 :=
  ⟨Backend.sameValue_honest, (run_forgets Backend.sameValue_honest _ _).2 twoStreams (.add 0 0 .root) [] rfl⟩

end Session

/-!
## A file classified again

A classification runs over storage that still holds its own bytes and those of
older files, and a read may report bytes that it did not write. A read that
writes the same bytes once more finds them in place, so a backend that answers by
the request alone leads to the same verdict and the same context, however often
the file is classified and whatever happens in between. Main statement:
`run_reclassifies`.
-/

variable {σ ε : Type}

/-! ### Storage -/

namespace AttributeBuffer

theorem applyWrites_twice (storage : FixedBytes bufferCapacity) (writes : List Write) :
    applyWrites (applyWrites storage writes) writes = applyWrites storage writes := by
  ext1
  apply List.ext_getElem?
  intro i
  by_cases inside : i < bufferCapacity
  · rw [getElem?_applyWrites inside, getElem?_applyWrites inside, ← Option.or_assoc, Option.or_self]
  · have past (block : FixedBytes bufferCapacity) : block.toList[i]? = none :=
      List.getElem?_eq_none (by rw [block.length_toList]; omega)
    rw [past, past]

theorem fill_twice (buffer : AttributeBuffer) (produced : Fill ε) :
    (buffer.fill produced).2.clear.fill produced = buffer.fill produced := by
  unfold fill clear
  cases produced.outcome with
  | error error => simp only [applyWrites_twice]
  | ok reported =>
    by_cases fits : reported ≤ bufferCapacity
    · simp only [fits, dite_true, applyWrites_twice]
    · simp only [fits, dite_false, applyWrites_twice]

end AttributeBuffer

/-! ### One classification -/

theorem settle_twice (buffer : AttributeBuffer) (stat : InodeStat) (fetch : Option (Fill ε)) :
    settle (settle buffer.clear stat fetch).2.clear stat fetch = settle buffer.clear stat fetch := by
  unfold settle
  cases quickReject stat with
  | some reason => rfl
  | none =>
    cases fetch with
    | none => rfl
    | some produced =>
      simp only [judgeFetch_eq, AttributeBuffer.fill_twice]

theorem FileContext.buffer_classify (backend : Backend σ ε) (context : FileContext) (stat : InodeStat) (world : σ) :
    (context.classify backend stat world).1.2.buffer =
      (settle context.buffer.clear stat (backend.fetch context.filesystem.fsid stat world)).2 := by
  rw [classify_eq, ← evaluate_eq_settle]
  cases (evaluate backend context.filesystem context.buffer.clear stat world).1.1 <;> rfl

namespace Backend.Steady

variable {backend : Backend σ ε} (steady : backend.Steady)
include steady

theorem classify_twice (context : FileContext) (stat : InodeStat) (world world' : σ) :
    ((context.classify backend stat world).1.2.classify backend stat world').1 =
      (context.classify backend stat world).1 := by
  have filesystem := FileContext.classify_filesystem backend context stat world
  have buffer := FileContext.buffer_classify backend context stat world
  have fetched := Backend.fetch_steady steady context.filesystem.fsid stat world' world
  have settled : (FileContext.evaluate backend context.filesystem
        (context.classify backend stat world).1.2.buffer.clear stat world').1 =
      (FileContext.evaluate backend context.filesystem context.buffer.clear stat world).1 := by
    rw [evaluate_eq_settle, evaluate_eq_settle, buffer, fetched, settle_twice]
  rw [FileContext.classify_eq, filesystem, settled]
  rfl

theorem classifyCalls_eq (fsid : FsId) (stat : InodeStat) (world world' : σ) :
    backend.classifyCalls fsid stat world = backend.classifyCalls fsid stat world' := by
  unfold Backend.classifyCalls
  rw [steady.1 fsid stat.ino stat.generation world world']

end Backend.Steady

/-! ### Runs -/

namespace Session

section
variable {backend : Backend σ ε} {session : Session σ} {file : Nat} {stat : InodeStat} {context : FileContext}
  (settled : ∀ world, (context.classify backend stat world).1.2 = context)
include settled

theorem step_keeps (there : session.files[file]? = some context) {operation : Operation σ}
    (same : ∀ other, operation = .classify file other → other = stat) :
    (step backend session operation).2.files[file]? = some context := by
  rw [step_files]
  cases operation with
  | allocate number =>
    obtain ⟨inside, -⟩ := List.getElem?_eq_some_iff.mp there
    rw [List.getElem?_append_left inside]
    exact there
  | classify number other =>
    by_cases here : number = file
    · obtain rfl := same other (by rw [here])
      simp only [List.getElem?_modify, if_pos here, there]
      exact congrArg some (settled session.world)
    · simp only [List.getElem?_modify, if_neg here, there]
      rfl
  | _ => exact there

theorem run_keeps (operations : List (Operation σ))
    (same : ∀ other, .classify file other ∈ operations → other = stat)
    (there : session.files[file]? = some context) :
    (run backend session operations).2.files[file]? = some context := by
  induction operations generalizing session with
  | nil => exact there
  | cons operation rest ih =>
    rw [run_cons]
    apply ih
    · exact fun other later => same other (List.mem_cons_of_mem _ later)
    · apply step_keeps settled there
      rintro other rfl
      exact same other List.mem_cons_self

end

section
variable (backend : Backend σ ε) {session : Session σ} {file : Nat} {context : FileContext}
  (there : session.files[file]? = some context) (stat : InodeStat)
include there

theorem step_classify :
    step backend session (.classify file stat) =
      (.classified (context.classify backend stat session.world).1.1,
        { session with
          world := (context.classify backend stat session.world).2
          files := session.files.set file (context.classify backend stat session.world).1.2 }) := by
  simp only [step, onFile, there]

theorem calls_classify :
    session.calls backend (.classify file stat) =
      backend.classifyCalls context.filesystem.fsid stat session.world := by
  simp only [calls, there]

theorem getElem?_step_classify :
    (step backend session (.classify file stat)).2.files[file]? =
      some (context.classify backend stat session.world).1.2 := by
  obtain ⟨inside, -⟩ := List.getElem?_eq_some_iff.mp there
  rw [step_classify backend there]
  exact List.getElem?_set_self inside

end

theorem run_concat (backend : Backend σ ε) (session : Session σ) (before : List (Operation σ))
    (operation : Operation σ) :
    (run backend session (before ++ [operation])).2 = (step backend (run backend session before).2 operation).2 := by
  rw [run_append]
  rfl

theorem reply_noted (backend : Backend σ ε) (world : σ) (before : List (Operation σ)) (operation : Operation σ) :
    (step backend.recorded (run backend.recorded (start (world, [])) (before.map Operation.noted)).2
      operation.noted).1 = (step backend (run backend (start world) before).2 operation).1 := by
  show (step backend.recorded (run backend.recorded ((start world).noted []) _).2 _).1 = _
  rw [run_noted, step_noted]

theorem step_reclassifies {backend : Backend σ ε} (steady : backend.Steady) {session : Session σ} {file : Nat}
    {context : FileContext} (there : session.files[file]? = some context) (stat : InodeStat)
    {between : List (Operation σ)} (same : ∀ other, .classify file other ∈ between → other = stat) :
    let classified := (context.classify backend stat session.world).1
    let later := (run backend (step backend session (.classify file stat)).2 between).2
    later.files[file]? = some classified.2 ∧
      (step backend later (.classify file stat)).1 = .classified classified.1 ∧
      (step backend later (.classify file stat)).2.files[file]? = some classified.2 ∧
      later.calls backend (.classify file stat) = session.calls backend (.classify file stat) := by
  intro classified later
  have settled (world : σ) : (classified.2.classify backend stat world).1 = classified :=
    steady.classify_twice context stat session.world world
  have kept : later.files[file]? = some classified.2 :=
    run_keeps (fun world => congrArg Prod.snd (settled world)) between same (getElem?_step_classify backend there stat)
  refine ⟨kept, ?_, ?_, ?_⟩
  · rw [step_classify backend kept, settled]
  · rw [getElem?_step_classify backend kept, settled]
  · rw [calls_classify backend kept, calls_classify backend there,
      FileContext.classify_filesystem backend context stat session.world]
    exact steady.classifyCalls_eq _ stat _ _

/-- A context that a session reaches is classified, and after any operations that
classify it, if at all, by the same record, it is classified by that record again.
Whatever the reads report, the reply, the context and the calls are those of the
first time, and nothing touched the context in between. -/
theorem run_reclassifies {backend : Backend σ ε} (steady : backend.Steady) (world : σ) (before : List (Operation σ))
    {file : Nat} (reached : file < (run backend (start world) before).2.files.length) (stat : InodeStat) :
    let session := (run backend.recorded (start (world, [])) (before.map Operation.noted)).2
    let first := step backend.recorded session (.classify file stat)
    ∃ classification context calls, first.1 = .classified classification ∧
      first.2.files[file]? = some context ∧ first.2.world.2 = session.world.2 ++ calls ∧
      ∀ between : List (Operation σ), (∀ other, .classify file other ∈ between → other = stat) →
        let later := (run backend.recorded first.2 (between.map Operation.noted)).2
        let again := step backend.recorded later (.classify file stat)
        later.files[file]? = some context ∧ again.1 = .classified classification ∧
          again.2.files[file]? = some context ∧ again.2.world.2 = later.world.2 ++ calls := by
  intro session first
  let plain := (run backend (start world) before).2
  let log := (start world).allCalls backend before
  let started := step backend plain (.classify file stat)
  let calls := plain.calls backend (.classify file stat)
  have there : plain.files[file]? = some plain.files[file] := List.getElem?_eq_getElem reached
  let classified := (plain.files[file].classify backend stat plain.world).1
  -- with its notes taken off, each step is one over the backend itself
  have noted : session = plain.noted log := congrArg Prod.snd (run_noted backend (start world) [] before)
  have begun : first = (started.1, started.2.noted (log ++ calls)) := by
    show step backend.recorded session (Operation.classify file stat).noted = _
    rw [noted, step_noted]
  refine ⟨classified.1, classified.2, calls, ?_, ?_, ?_, ?_⟩
  · rw [begun]
    exact congrArg Prod.fst (step_classify backend there stat)
  · rw [begun]
    exact getElem?_step_classify backend there stat
  · rw [begun, noted]
    rfl
  · intro between same later again
    let ended := (run backend started.2 between).2
    obtain ⟨kept, reply, context, asked⟩ := step_reclassifies steady there stat same
    have lately : later = ended.noted (log ++ calls ++ started.2.allCalls backend between) := by
      show (run backend.recorded first.2 (between.map Operation.noted)).2 = _
      rw [begun, run_noted]
    let repeated := step backend ended (.classify file stat)
    have anew : again =
        (repeated.1, repeated.2.noted (later.world.2 ++ ended.calls backend (.classify file stat))) := by
      show step backend.recorded later (Operation.classify file stat).noted = _
      rw [lately, step_noted]
      rfl
    rw [anew, lately]
    exact ⟨kept, reply, context, congrArg (_ ++ ·) asked⟩

/-- One stream of one filesystem, after a file whose value was read in full. -/
def readInFull : List (Operation Unit) := [.init "/dmf" 1, .allocate 0] ++ [.classify 0 (.ofInode 22)]

theorem files_readInFull : (run (.shortReads dualValue) (start ()) readInFull).2.files[0]? = some usedContext := by
  have fresh : (run (.shortReads dualValue) (start ()) [.init "/dmf" 1, .allocate 0]).2.files[0]? =
      some Filesystem.blank.allocate := rfl
  rw [readInFull, run_concat]
  exact getElem?_step_classify (.shortReads dualValue) fresh (.ofInode 22)

/-- Of the next file two bytes are written and 22 reported: it is a candidate by the
bytes of the file before, each time. -/
theorem run_reclassifies_two_bytes :
    let stat := InodeStat.ofInode 2
    let recorded := (Backend.shortReads dualValue).recorded
    let first := step recorded (run recorded (start ((), [])) (readInFull.map Operation.noted)).2 (.classify 0 stat)
    let between := [.add 0 0 .root, .estimateOffset 0 stat 100, .classify 0 stat]
    let again := step recorded (run recorded first.2 (between.map Operation.noted)).2 (.classify 0 stat)
    (Backend.shortReads dualValue).Steady ∧
      0 < (run (.shortReads dualValue) (start ()) readInFull).2.files.length ∧
      first.1 = .classified (.candidate 512) ∧ again.1 = .classified (.candidate 512) := by
  intro stat recorded first between again
  have steady := Backend.shortReads_steady dualValue
  have reached := (List.getElem?_eq_some_iff.mp files_readInFull).1
  have verdict : (usedContext.classify (.shortReads dualValue) stat ()).1.1 = .candidate 512 := by decide +kernel
  have candidate : first.1 = .classified (.candidate 512) := by
    have unit : (run (.shortReads dualValue) (start ()) readInFull).2.world = () := Subsingleton.elim _ _
    have noted : first.1 = _ := reply_noted (.shortReads dualValue) () readInFull (.classify 0 stat)
    rw [noted, step_classify (.shortReads dualValue) files_readInFull stat, unit, verdict]
  obtain ⟨classification, context, calls, told, -, -, repeats⟩ := run_reclassifies steady () readInFull reached stat
  obtain ⟨-, same, -, -⟩ := repeats between (by simp [between])
  rw [show classification = .candidate 512 from Reply.classified.inj (told.symm.trans candidate)] at same
  exact ⟨steady, reached, candidate, same⟩

end Session

end Residency
