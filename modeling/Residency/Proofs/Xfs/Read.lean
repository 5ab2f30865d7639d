import Mathlib.Data.Nat.Digits.Defs
import Residency.Proofs.Attribute.Checked
import Residency.Proofs.Bytes
import Residency.Proofs.Command.Report
import Residency.Proofs.Xfs.Kernel

/-!
# Reads of an attribute

The verdict for every reply of the kernel, and the one inode that it is about.
-/

/-!
## Replies of the kernel

Whatever the kernel replies to a read, a classification gives the verdict that the
reply asks for, and the bytes of a value never lead it out of range. One reply
stops the run instead: the lowest status has no absolute value in its 32 bits
(`classify_reply`).
-/

namespace Residency

def Classification.ofVerdict (stat : InodeStat) : Except Disqualification View → Classification
  | .ok _ => .candidate stat.size
  | .error reason => .rejected reason

theorem conclude_eq (filesystem : Filesystem) (stat : InodeStat) (buffer : AttributeBuffer)
    (verdict : Except Disqualification View) :
    (FileContext.conclude filesystem stat buffer verdict).1 = .ofVerdict stat verdict ∧
      (FileContext.conclude filesystem stat buffer verdict).2.buffer = buffer := by
  cases verdict with
  | ok view => exact ⟨rfl, rfl⟩
  | error reason => exact ⟨rfl, rfl⟩

theorem AttributeBuffer.slice_eq (buffer : AttributeBuffer) :
    Checked.slice buffer.storage.toList 0 buffer.length = .ok buffer.toList := by
  unfold toList
  rw [Checked.slice_eq (Nat.zero_le _) (by rw [buffer.storage.length_toList]; exact buffer.length_le)]
  rfl

namespace Xfs

variable {σ : Type}

/-- What a classification says to a reply, and the bytes that it shows then. -/
def verdictOn (stat : InodeStat) (storage : FixedBytes bufferCapacity) :
    Except Errno AttributeReply → Classification × List UInt8
  | .error _ => (.rejected .attributeUnavailable, [])
  | .ok reply =>
    if reply.status ≠ 0 then (.rejected .attributeUnavailable, [])
    else if bufferCapacity < reply.length.toNat then (.rejected (.attributeTooLarge reply.length.toNat), [])
    else
      let raw := (AttributeBuffer.applyWrites storage reply.writes).toList.take reply.length.toNat
      (.ofVerdict stat (judge raw), raw)

theorem judgeFetch_fillOf (buffer : AttributeBuffer) (stat : InodeStat) {answer : Except Errno AttributeReply}
    {produced : Fill Failure} (brought : fillOf answer = .ok produced) :
    let judged := judgeFetch buffer produced
    (Classification.ofVerdict stat judged.1, judged.2.toList) = verdictOn stat buffer.storage answer := by
  have hidden (storage : FixedBytes bufferCapacity) : AttributeBuffer.toList ⟨storage, 0, Nat.zero_le _⟩ = [] :=
    List.take_zero
  cases answer with
  | error errno =>
    cases brought
    simp only [judgeFetch, AttributeBuffer.fill, verdictOn, hidden]
    rfl
  | ok reply =>
    by_cases succeeded : reply.status = 0
    · simp only [fillOf, succeeded, ite_true] at brought
      cases brought
      by_cases fits : reply.length.toNat ≤ bufferCapacity
      · have kept : ¬ bufferCapacity < reply.length.toNat := Nat.not_lt.mpr fits
        simp only [judgeFetch, AttributeBuffer.fill, verdictOn, succeeded, fits, kept, ne_eq, not_true_eq_false,
          ite_false, dite_true]
        rfl
      · have exceeds : bufferCapacity < reply.length.toNat := Nat.lt_of_not_le fits
        simp only [judgeFetch, AttributeBuffer.fill, verdictOn, succeeded, fits, exceeds, hidden, ne_eq,
          not_true_eq_false, ite_true, ite_false, dite_false]
        rfl
    · simp only [fillOf, succeeded, ite_false] at brought
      obtain ⟨number, -, brought⟩ := Except.bind_eq_ok_iff.mp brought
      cases brought
      simp only [judgeFetch, AttributeBuffer.fill, verdictOn, succeeded, hidden, ne_eq, not_false_eq_true, ite_true]
      rfl

/-- A classification stops for the one status without an absolute value. To every
other reply it says what the reply asks for, and what it reads lies in its storage. -/
theorem classify_reply (kernel : Kernel σ) (context : FileContext) {stat : InodeStat}
    (managed : stat.MayBeManaged) (world : σ) :
    let reply := (kernel.attributes (readRequest context.filesystem.fsid stat) world).1
    let run := context.classify (backend kernel) stat (.running world)
    let classification := run.1.1
    let buffer := run.1.2.buffer
    (Overflows reply → run.2.fault = some .overflow) ∧
    (¬ Overflows reply →
      run.2.fault = none ∧
      (classification, run.1.2.rawAttribute) = verdictOn stat context.buffer.storage reply ∧
      Checked.slice buffer.storage.toList 0 buffer.length = .ok run.1.2.rawAttribute ∧
      View.decodeChecked run.1.2.rawAttribute = .ok (View.decode run.1.2.rawAttribute)) := by
  intro reply run
  have made : ∀ brought, fillOf reply = brought →
      let judged := judgeFetch context.buffer.clear (brought.toOption.getD idleFill)
      run = (FileContext.conclude context.filesystem stat judged.2 judged.1,
        ⟨kernel.after world (.attributes (readRequest context.filesystem.fsid stat)), brought.fault?⟩) := by
    rintro brought rfl
    exact classify_managed kernel context managed world
  refine ⟨?_, ?_⟩
  · intro overflows
    rw [made _ (fillOf_overflow overflows)]
    rfl
  · intro fits
    obtain ⟨produced, brought⟩ := fillOf_eq_ok fits
    let judged := judgeFetch context.buffer.clear produced
    obtain ⟨told, kept⟩ := conclude_eq context.filesystem stat judged.2 judged.1
    have same := made _ brought
    refine ⟨?_, ?_, AttributeBuffer.slice_eq _, View.decodeChecked_eq _⟩
    · rw [same]
      rfl
    · have shown : (run.1.1, run.1.2.rawAttribute) = (Classification.ofVerdict stat judged.1, judged.2.toList) := by
        rw [same, FileContext.rawAttribute]
        exact Prod.ext told (congrArg AttributeBuffer.toList kept)
      rw [shown, judgeFetch_fillOf _ _ brought]
      rfl

/-- A kernel with one attribute, that of the sample inode. -/
def oneAttribute (entry : AttributeScript) : Script :=
  { Script.empty with attributes := [(InodeStat.sample.ino, entry)] }

/-- The longest length that a reply can report, of a value of two bytes. -/
theorem classify_reply_overlong :
    let script := oneAttribute (.value [1, 0] (some 4294967295))
    let context := (Filesystem.mk 1 ⟨zeros 8, length_zeros 8⟩).allocate
    let run := context.classify (backend Script.kernel) .sample (.running script)
    InodeStat.sample.MayBeManaged ∧ run.2.fault = none ∧
      (run.1.1, run.1.2.rawAttribute) = (.rejected (.attributeTooLarge 4294967295), []) := by
  intro script context run
  obtain ⟨-, answers⟩ := classify_reply Script.kernel context InodeStat.sample_mayBeManaged script
  have answered : (Script.kernel.attributes (readRequest context.filesystem.fsid .sample) script).1 =
      .ok ⟨[⟨0, [1, 0]⟩], 0, 4294967295⟩ := by rfl
  rw [answered] at answers
  have fits : ¬ Overflows (.ok ⟨[⟨0, [1, 0]⟩], 0, 4294967295⟩) := by
    rintro ⟨reply, same, lowest⟩
    cases same
    cases lowest
  obtain ⟨ended, told, -⟩ := answers fits
  exact ⟨InodeStat.sample_mayBeManaged, ended, told⟩

/-- The status without an absolute value stops the run, whose file should be
rejected for want of its attribute. -/
theorem classify_lowest_status :
    let script := oneAttribute (.status Int32.minValue)
    let context := (Filesystem.mk 1 ⟨zeros 8, length_zeros 8⟩).allocate
    (context.classify (backend Script.kernel) .sample (.running script)).2.fault = some .overflow := by
  decide +kernel

end Xfs

/-!
## The inode that a handle names

The kernel reads the fields of a handle at fixed places (`HandleFields.read`) and
finds there what the handle was made of (`read_handleOf`). A classification
therefore depends on one inode's attribute alone: `classify_reads_inode` follows the
handle from the set-up of a filesystem to the read behind a classification.
-/

namespace LittleEndian

theorem toNat_load_short {bytes : List UInt8} (short : bytes.length ≤ 8) :
    (load bytes).toNat = Nat.ofDigits 256 (bytes.map UInt8.toNat) := by
  rw [load, BigEndian.toNat_load_short (by rw [List.length_reverse]; exact short), BigEndian.valueOf_eq_ofDigits,
    List.reverse_reverse]

theorem ofDigits_encode {width : Nat} (short : width ≤ 8) {value : UInt64} (fits : value.toNat < 256 ^ width) :
    Nat.ofDigits 256 ((encode width value).map UInt8.toNat) = value.toNat := by
  rw [← toNat_load_short (by rw [length_encode]; exact short), load, encode, List.reverse_reverse,
    BigEndian.load_encode fits]

end LittleEndian

namespace Xfs

/-! ### Fields of a handle -/

/-- What the kernel takes a handle for. -/
structure HandleFields where
  fsid : List UInt8
  generation : Nat
  ino : Nat
deriving DecidableEq

/-- The kernel looks at fixed places, skips the four bytes behind the id, and takes
the others for digits of base 256, the lowest first. -/
def HandleFields.read (handle : Handle) : HandleFields where
  fsid := handle.take 8
  generation := Nat.ofDigits 256 (((handle.drop 12).take 4).map UInt8.toNat)
  ino := Nat.ofDigits 256 (((handle.drop 16).take 8).map UInt8.toNat)

section
variable (fsid : FsId) (ino : UInt64) (generation : UInt32)

theorem handleOf_eq :
    handleOf fsid ino generation = fsid.toList ++ ([14, 0] ++ ([0, 0] ++
      (LittleEndian.encode 4 generation.toUInt64 ++ LittleEndian.encode 8 ino))) := by
  have first : LittleEndian.encode 2 fidLength = [14, 0] := by decide
  have second : LittleEndian.encode 2 0 = [0, 0] := by decide
  rw [handleOf, first, second]
  simp only [List.append_assoc]

theorem length_handleOf : (handleOf fsid ino generation).length = 24 := by
  rw [handleOf_eq]
  simp [fsid.length_toList]

theorem read_handleOf :
    HandleFields.read (handleOf fsid ino generation) = ⟨fsid.toList, generation.toNat, ino.toNat⟩ := by
  -- one equation for each place that the kernel looks at
  have front : (handleOf fsid ino generation).take 8 = fsid.toList := by
    rw [handleOf_eq]
    exact List.take_left' fsid.length_toList
  have middle : ((handleOf fsid ino generation).drop 12).take 4 = LittleEndian.encode 4 generation.toUInt64 := by
    rw [handleOf_eq, ← List.append_assoc, ← List.append_assoc, List.drop_left' (by simp [fsid.length_toList])]
    exact List.take_left' (LittleEndian.length_encode ..)
  have back : ((handleOf fsid ino generation).drop 16).take 8 = LittleEndian.encode 8 ino := by
    rw [handleOf_eq, ← List.append_assoc, ← List.append_assoc, ← List.append_assoc,
      List.drop_left' (by simp [fsid.length_toList])]
    exact List.take_of_length_le (LittleEndian.length_encode ..).le
  have generationFits : generation.toUInt64.toNat < 256 ^ 4 := by
    rw [UInt32.toNat_toUInt64]
    exact generation.toNat_lt
  have inoFits : ino.toNat < 256 ^ 8 := ino.toNat_lt
  simp only [HandleFields.read, front, middle, back, LittleEndian.ofDigits_encode (by decide) generationFits,
    LittleEndian.ofDigits_encode (by decide) inoFits, UInt32.toNat_toUInt64]

end

theorem handleOf_injective :
    Function.Injective fun file : FsId × UInt64 × UInt32 => handleOf file.1 file.2.1 file.2.2 := by
  intro left right same
  have fields := congrArg HandleFields.read same
  simp only [read_handleOf, HandleFields.mk.injEq] at fields
  obtain ⟨fsid, generation, ino⟩ := fields
  exact Prod.ext (FixedBytes.ext fsid) (Prod.ext (UInt64.toNat_inj.mp ino) (UInt32.toNat_inj.mp generation))

/-! ### The set-up of a filesystem -/

section
variable {σ : Type} (kernel : Kernel σ) (mount : RawText) (apiVersion : UInt32) (start : σ)

/-- The storage for a filesystem's handle, zeros where the kernel wrote nothing. -/
def HandleReply.storage (reply : HandleReply) : List UInt8 :=
  (FixedBytes.ofPadded handleCapacity reply.bytes).toList

theorem HandleReply.fsid_eq (reply : HandleReply) :
    (FixedBytes.ofPadded 8 (reply.bytes.take handleCapacity)).toList = reply.storage.take 8 := by
  have most : 8 ≤ handleCapacity := by decide
  simp only [HandleReply.storage, FixedBytes.ofPadded, zeros]
  apply List.ext_getElem?
  intro i
  simp only [List.getElem?_take, List.getElem?_append, List.length_take, List.getElem?_replicate]
  by_cases inside : i < 8
  · have low : i < handleCapacity := by omega
    simp only [inside, low, ite_true]
    by_cases written : i < reply.bytes.length
    · rw [if_pos (by omega), if_pos written]
    · rw [if_neg (by omega), if_neg written, if_pos (by omega), if_pos (by omega)]
  · rw [if_neg inside, if_neg inside]

theorem init_short {reply : HandleReply} (answered : (kernel.filesystemHandle mount start).1 = .ok reply)
    (short : reply.length.toNat < 8) :
    ∃ error, (Filesystem.init (backend kernel) mount apiVersion (.running start)).1 = .error error := by
  rw [init_eq]
  by_cases version : apiVersion = supportedApiVersion
  · rw [if_pos version]
    cases nul : mount.nulPosition? with
    | some position =>
      simp only [resolveMount, withoutNul, nul]
      exact ⟨_, rfl⟩
    | none =>
      have refused : fsidOf mount (.ok reply) = .error (.shortHandle reply.length) := if_pos short
      simp only [resolveMount_eq kernel nul, answered, refused]
      exact ⟨_, rfl⟩
  · rw [if_neg version]
    exact ⟨_, rfl⟩

theorem init_eq_ok {filesystem : Filesystem}
    (initialised : (Filesystem.init (backend kernel) mount apiVersion (.running start)).1 = .ok filesystem) :
    ∃ reply, (kernel.filesystemHandle mount start).1 = .ok reply ∧ 8 ≤ reply.length.toNat ∧
      filesystem.fsid.toList = reply.storage.take 8 := by
  rw [init_eq] at initialised
  by_cases version : apiVersion = supportedApiVersion
  · rw [if_pos version] at initialised
    cases nul : mount.nulPosition? with
    | some position =>
      simp only [resolveMount, withoutNul, nul] at initialised
      cases initialised
    | none =>
      simp only [resolveMount_eq kernel nul] at initialised
      cases answered : (kernel.filesystemHandle mount start).1 with
      | error errno =>
        rw [answered] at initialised
        cases initialised
      | ok reply =>
        rw [answered] at initialised
        by_cases short : reply.length.toNat < fsidLength
        · simp only [fsidOf, if_pos short] at initialised
          cases initialised
        · simp only [fsidOf, if_neg short] at initialised
          cases initialised
          exact ⟨reply, rfl, Nat.le_of_not_lt short, reply.fsid_eq⟩
  · rw [if_neg version] at initialised
    cases initialised

end

/-! ### Attributes by inode -/

section
variable {σ α : Type} {kernel : Kernel σ} {entry : σ → Nat → α}

/-- What the kernel answers to a request for attributes depends on what it holds of
the inode that the handle names. -/
def Kernel.LooksUp (kernel : Kernel σ) (entry : σ → Nat → α) : Prop :=
  ∀ request world world',
    entry world (HandleFields.read request.handle).ino = entry world' (HandleFields.read request.handle).ino →
    (kernel.attributes request world).1 = (kernel.attributes request world').1

theorem Kernel.LooksUp.attributeOf_congr (looks : kernel.LooksUp entry) (fsid : FsId) {ino : UInt64}
    (generation : UInt32) {world world' : σ} (same : entry world ino.toNat = entry world' ino.toNat) :
    kernel.attributeOf (handleOf fsid ino generation) world =
      kernel.attributeOf (handleOf fsid ino generation) world' := by
  unfold Kernel.attributeOf
  rw [readAttribute_eq _ _ nulPosition?_managedAttributeName, readAttribute_eq _ _ nulPosition?_managedAttributeName]
  refine congrArg fillOf (looks _ world world' ?_)
  simp only [attributeRequest, read_handleOf]
  exact same

/-- Two worlds that hold the same of an inode are the same to its classification,
whatever the contexts were used for before. -/
theorem classify_other_inodes (looks : kernel.LooksUp entry) {a b : FileContext}
    (together : a.filesystem = b.filesystem) {stat : InodeStat} {world world' : σ} (honest : kernel.Honest world)
    (same : entry world stat.ino.toNat = entry world' stat.ino.toNat) :
    let left := a.classify (backend kernel) stat (.running world)
    let right := b.classify (backend kernel) stat (.running world')
    left.1.1 = right.1.1 ∧ left.1.2.rawAttribute = right.1.2.rawAttribute ∧ left.2.fault = right.2.fault := by
  intro left right
  have brought := looks.attributeOf_congr a.filesystem.fsid stat.generation same
  have first := fetch_backend kernel a.filesystem.fsid stat world
  have second : (backend kernel).fetch b.filesystem.fsid stat (.running world') =
      some (kernel.readOf (handleOf a.filesystem.fsid stat.ino stat.generation) world) := by
    rw [fetch_backend, Kernel.readOf, Kernel.readOf, ← together, brought]
  obtain ⟨verdict, -, visible⟩ := classify_congr (honest.readOf _) first second
  refine ⟨verdict, visible, ?_⟩
  simp only [left, right, classify_machine, Kernel.classifyFault?, ← together, brought]

end

/-- The request of a classification names the classified inode of the filesystem that
was set up, and with a kernel that goes by that name no other inode matters. -/
theorem classify_reads_inode {σ α : Type} (kernel : Kernel σ) (mount : RawText) (apiVersion : UInt32) (start : σ) :
    let initialised := (Filesystem.init (backend kernel) mount apiVersion (.running start)).1
    (∀ reply, (kernel.filesystemHandle mount start).1 = .ok reply → reply.length.toNat < 8 →
      ∃ error, initialised = .error error) ∧
    (∀ filesystem, initialised = .ok filesystem →
      (∃ reply, (kernel.filesystemHandle mount start).1 = .ok reply ∧ 8 ≤ reply.length.toNat ∧
        ∀ (context : FileContext) (stat : InodeStat), context.filesystem = filesystem → stat.MayBeManaged →
        ∀ world log,
          let handle := reply.storage.take 8 ++ ([14, 0] ++ ([0, 0] ++
            (LittleEndian.encode 4 stat.generation.toUInt64 ++ LittleEndian.encode 8 stat.ino)))
          (context.classify (backend kernel.recorded) stat (.running (world, log))).2.world.2 =
            log ++ [.attributes (attributeRequest handle managedAttributeName .root bufferCapacity)] ∧
          handle.length = 24 ∧
          HandleFields.read handle = ⟨filesystem.fsid.toList, stat.generation.toNat, stat.ino.toNat⟩) ∧
      ∀ entry : σ → Nat → α, kernel.LooksUp entry →
        ∀ (a b : FileContext) (stat : InodeStat), a.filesystem = filesystem → b.filesystem = filesystem →
        ∀ world world', kernel.Honest world → entry world stat.ino.toNat = entry world' stat.ino.toNat →
          let left := a.classify (backend kernel) stat (.running world)
          let right := b.classify (backend kernel) stat (.running world')
          left.1.1 = right.1.1 ∧ left.1.2.rawAttribute = right.1.2.rawAttribute ∧ left.2.fault = right.2.fault) ∧
    Function.Injective fun file : FsId × UInt64 × UInt32 => handleOf file.1 file.2.1 file.2.2 := by
  refine ⟨?_, ?_, handleOf_injective⟩
  · intro reply answered short
    exact init_short kernel mount apiVersion start answered short
  · intro filesystem initialised
    obtain ⟨reply, answered, long, named⟩ := init_eq_ok kernel mount apiVersion start initialised
    refine ⟨⟨reply, answered, long, ?_⟩, ?_⟩
    · intro context stat own managed world log handle
      have made : handle = handleOf filesystem.fsid stat.ino stat.generation := by
        rw [handleOf_eq, named]
      rw [made]
      refine ⟨?_, length_handleOf .., read_handleOf ..⟩
      have noted := classify_noted kernel context stat (.running world) log
      rw [requestsFrom, if_neg (by simp [Machine.running]), classifyRequests, if_pos managed, own] at noted
      exact congrArg (fun classified => classified.2.world.2) noted
    · intro entry looks a b stat ownA ownB world world' honest same
      exact classify_other_inodes looks (ownA.trans ownB.symm) honest same

/-! ### Scripts -/

theorem Script.looksUp : Script.kernel.LooksUp fun script ino => script.attributes.lookup (UInt64.ofNat ino) := by
  intro request script script' same
  have short : ((request.handle.drop 16).take 8).length ≤ 8 := List.length_take_le ..
  have named : UInt64.ofNat (HandleFields.read request.handle).ino = handleIno request.handle := by
    rw [handleIno, HandleFields.read, ← LittleEndian.toNat_load_short short, UInt64.ofNat_toNat]
  simp only [named] at same
  by_cases truncated : request.handle.length < handleLength
  · simp only [Script.kernel, if_pos truncated]
  · simp only [Script.kernel, if_neg truncated, same]

/-- A filesystem with a managed file, the sample inode, and another inode that holds a
value too. -/
def besideAnother (other : List UInt8) : Script where
  filesystemHandle := .ok ⟨[1, 2, 3, 4, 5, 6, 7, 8, 9], 8⟩
  attributes := [(InodeStat.sample.ino, .value (1 :: 0 :: 0 :: 3 :: zeros 18) none), (10, .value other none)]
  bulkStats := []

theorem classify_reads_inode_beside :
    let start := Machine.running (besideAnother [])
    let initialised := (Filesystem.init (backend Script.kernel) "/dmf" 1 start).1
    let filesystem : Filesystem := ⟨1, ⟨[1, 2, 3, 4, 5, 6, 7, 8], rfl⟩⟩
    let before := filesystem.allocate.classify (backend Script.kernel) .sample start
    let after := before.1.2.classify (backend Script.kernel) .sample (.running (besideAnother [1, 1, 0]))
    let recorded := Machine.running (besideAnother [], ([] : List Request))
    initialised = .ok filesystem ∧ before.1.1 = .candidate 512 ∧ after.1.1 = .candidate 512 ∧
      before.1.2.rawAttribute = after.1.2.rawAttribute ∧ before.2.fault = none ∧ after.2.fault = none ∧
      (filesystem.allocate.classify (backend Script.kernel.recorded) .sample recorded).2.world.2 =
        [.attributes (attributeRequest [1, 2, 3, 4, 5, 6, 7, 8, 14, 0, 0, 0, 1, 0, 0, 0, 9, 0, 0, 0, 0, 0, 0, 0]
          managedAttributeName .root bufferCapacity)] := by
  intro start initialised filesystem before after recorded
  have nul : (RawText.ofString "/dmf").nulPosition? = none := by decide +kernel
  have made : initialised = .ok filesystem := by
    simp only [initialised, start, init_eq, resolveMount_eq Script.kernel nul]
    rfl
  obtain ⟨-, held, -⟩ := classify_reads_inode (α := Option AttributeScript) Script.kernel "/dmf" 1 (besideAnother [])
  obtain ⟨⟨reply, answered, -, reads⟩, other⟩ := held filesystem made
  have honest : Script.kernel.Honest (besideAnother []) := Script.honest (by
    intro entry there
    obtain rfl | rfl : entry = _ ∨ entry = _ := by simpa [besideAnother] using there
    · exact Nat.le_refl _
    · exact Nat.le_refl _)
  have first : before.1.1 = .candidate 512 ∧ before.2.fault = none := by
    simp only [before, start, filesystem]
    decide +kernel
  have own : before.1.2.filesystem = filesystem := by
    simp only [before, FileContext.classify_filesystem]
    rfl
  obtain ⟨verdict, visible, ended⟩ := other _ Script.looksUp filesystem.allocate before.1.2 .sample rfl own
    (besideAnother []) (besideAnother [1, 1, 0]) honest rfl
  -- from here on the two classifications are not looked into
  have known : filesystem.allocate.classify (backend Script.kernel) .sample (.running (besideAnother [])) = before := rfl
  have again : before.1.2.classify (backend Script.kernel) .sample (.running (besideAnother [1, 1, 0])) = after := rfl
  clear_value after before
  rw [known, again] at verdict visible ended
  obtain rfl : _ = reply := Except.ok.inj answered
  exact ⟨made, first.1, verdict.symm.trans first.1, visible, first.2, ended.symm.trans first.2,
    (reads filesystem.allocate .sample rfl InodeStat.sample_mayBeManaged (besideAnother []) []).1⟩

end Xfs

end Residency
