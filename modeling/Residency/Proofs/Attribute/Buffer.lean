import Residency.Attribute

/-!
# The storage of a value

What becomes visible of one fill, and of many into one buffer.
-/

/-!
## What becomes visible of a fill

The byte at a place of the storage is the one written there last, or what was
there before. A fill that writes every byte it reports shows nothing of what the
storage held.
-/

namespace Residency

/-- The byte that a write puts at place `i`. -/
def Write.byteAt? (write : Write) (i : Nat) : Option UInt8 :=
  if write.offset ≤ i then write.bytes[i - write.offset]? else none

/-- The byte written last at place `i`. -/
def lastWritten (i : Nat) : List Write → Option UInt8
  | [] => none
  | write :: writes => (lastWritten i writes).or (write.byteAt? i)

/-- A fill that fails, reports more than fits, or writes every byte it reports. -/
def Fill.Honest {ε : Type} (produced : Fill ε) : Prop :=
  ∀ reported, produced.outcome = .ok reported → reported ≤ bufferCapacity → ∀ i < reported,
    ∃ write ∈ produced.writes, write.offset ≤ i ∧ i < write.offset + write.bytes.length

/-- A fill that writes exactly these bytes to the front and reports their number. -/
def Fill.Serves {ε : Type} (value : List UInt8) (produced : Fill ε) : Prop :=
  produced.outcome = .ok value.length ∧ ∀ i < value.length, lastWritten i produced.writes = value[i]?

/-- A fill that writes some bytes from the start of the storage on. -/
def Fill.WritesFront {ε : Type} (produced : Fill ε) : Prop :=
  ∃ count, ∀ i, (lastWritten i produced.writes).isSome ↔ i < count

/-! ### The storage after some writes -/

theorem getElem?_overlay {offset i : Nat} {bytes block : List UInt8} (inside : i < block.length) :
    (overlay offset bytes block)[i]? = ((Write.mk offset bytes).byteAt? i).or block[i]? := by
  simp only [overlay, Write.byteAt?]
  by_cases before : i < offset
  · have front : i < (block.take offset).length := by rw [List.length_take]; omega
    rw [List.append_assoc, List.getElem?_append_left front, List.getElem?_take, if_pos before,
      if_neg (by omega), Option.none_or]
  · have front : (block.take offset).length = offset := by rw [List.length_take]; omega
    rw [List.append_assoc, List.getElem?_append_right (by omega), front, if_pos (by omega)]
    by_cases written : i - offset < bytes.length
    · have middle : i - offset < (bytes.take (block.length - offset)).length := by
        rw [List.length_take]; omega
      rw [List.getElem?_append_left middle, List.getElem?_take, if_pos (by omega),
        List.getElem?_eq_getElem written, Option.some_or]
    · have middle : (bytes.take (block.length - offset)).length = bytes.length := by
        rw [List.length_take]; omega
      have past : bytes[i - offset]? = none := List.getElem?_eq_none (by omega)
      have same : offset + bytes.length + (i - offset - bytes.length) = i := by omega
      rw [List.getElem?_append_right (by omega), middle, List.getElem?_drop, past, Option.none_or, same]

theorem getElem?_applyWrites {i : Nat} (inside : i < bufferCapacity) :
    ∀ (writes : List Write) (storage : FixedBytes bufferCapacity),
      (AttributeBuffer.applyWrites storage writes).toList[i]? = (lastWritten i writes).or storage.toList[i]?
  | [], storage => by simp [AttributeBuffer.applyWrites, lastWritten]
  | write :: writes, storage => by
    have step : (storage.overlay write.offset write.bytes).toList[i]? =
        (write.byteAt? i).or storage.toList[i]? :=
      getElem?_overlay (by rw [storage.length_toList]; exact inside)
    rw [lastWritten, Option.or_assoc, ← step]
    exact getElem?_applyWrites inside writes _

theorem lastWritten_isSome {i : Nat} {write : Write} (starts : write.offset ≤ i)
    (ends : i < write.offset + write.bytes.length) :
    ∀ {writes : List Write}, write ∈ writes → (lastWritten i writes).isSome
  | _ :: writes, .head _ => by
    have here : i - write.offset < write.bytes.length := by omega
    simp [lastWritten, Write.byteAt?, starts, here]
  | _ :: writes, .tail _ there => by
    simp [lastWritten, lastWritten_isSome starts ends there]

/-! ### Fills -/

namespace AttributeBuffer

variable {ε : Type}

theorem getElem?_storage_empty {i : Nat} (inside : i < bufferCapacity) : empty.storage.toList[i]? = some 0 := by
  show (List.replicate bufferCapacity (0 : UInt8))[i]? = some 0
  rw [List.getElem?_replicate, if_pos inside]

theorem toList_fill (buffer : AttributeBuffer) (produced : Fill ε) :
    (buffer.fill produced).2.toList =
      match produced.outcome with
      | .error _ => []
      | .ok reported =>
        if reported ≤ bufferCapacity then (applyWrites buffer.storage produced.writes).toList.take reported
        else [] := by
  unfold fill
  cases produced.outcome with
  | error _ => exact List.take_zero
  | ok reported =>
    by_cases fits : reported ≤ bufferCapacity
    · simp only [fits, dite_true, ite_true]; rfl
    · simp only [fits, dite_false, ite_false]; exact List.take_zero

/-- The answer of a fill is the producer's; it owes nothing to the storage. -/
theorem fill_answer (a b : AttributeBuffer) (produced : Fill ε) : (a.fill produced).1 = (b.fill produced).1 := by
  unfold fill
  cases produced.outcome with
  | error _ => rfl
  | ok reported => by_cases fits : reported ≤ bufferCapacity <;> simp [fits]

theorem toList_fill_honest {produced : Fill ε} (honest : produced.Honest) (a b : AttributeBuffer) :
    (a.fill produced).2.toList = (b.fill produced).2.toList := by
  rw [toList_fill, toList_fill]
  cases outcome : produced.outcome with
  | error _ => rfl
  | ok reported =>
    by_cases fits : reported ≤ bufferCapacity
    · simp only [fits, ite_true]
      apply List.ext_getElem?
      intro i
      rw [List.getElem?_take, List.getElem?_take]
      by_cases visible : i < reported
      · obtain ⟨write, there, starts, ends⟩ := honest reported outcome fits i visible
        obtain ⟨byte, written⟩ := Option.isSome_iff_exists.mp (lastWritten_isSome starts ends there)
        rw [getElem?_applyWrites (by omega), getElem?_applyWrites (by omega), written, Option.some_or,
          Option.some_or]
      · simp only [visible, ite_false]
    · simp only [fits, ite_false]

theorem fill_serves {value : List UInt8} {produced : Fill ε} (serves : produced.Serves value)
    (fits : value.length ≤ bufferCapacity) (buffer : AttributeBuffer) :
    (buffer.fill produced).1 = .ok value.length := by
  unfold fill
  simp only [serves.1, fits, dite_true]

theorem toList_fill_serves {value : List UInt8} {produced : Fill ε} (serves : produced.Serves value)
    (fits : value.length ≤ bufferCapacity) (buffer : AttributeBuffer) :
    (buffer.fill produced).2.toList = value := by
  obtain ⟨outcome, written⟩ := serves
  rw [toList_fill, outcome]
  simp only [fits, ite_true]
  apply List.ext_getElem?
  intro i
  rw [List.getElem?_take]
  by_cases visible : i < value.length
  · rw [if_pos visible, getElem?_applyWrites (by omega), written i visible, List.getElem?_eq_getElem visible,
      Option.some_or]
  · rw [if_neg visible, List.getElem?_eq_none (by omega)]

end AttributeBuffer

/-!
## One buffer over many fills

The storage outlives every fill, the visible length is set anew by each. So what
a fill shows was written by some producer so far, also by one that failed or
reported too much, or by none. Main statement: `fill_history`.
-/

variable {ε : Type}

inductive BufferStep (ε : Type) where
  | clear
  /-- The producer sees the storage that it is handed. -/
  | fill (produce : FixedBytes bufferCapacity → Fill ε)

namespace AttributeBuffer

def perform (buffer : AttributeBuffer) : BufferStep ε → AttributeBuffer
  | .clear => buffer.clear
  | .fill produce => (buffer.fill (produce buffer.storage)).2

def writesOf (buffer : AttributeBuffer) : BufferStep ε → List Write
  | .clear => []
  | .fill produce => (produce buffer.storage).writes

def performAll : AttributeBuffer → List (BufferStep ε) → AttributeBuffer
  | buffer, [] => buffer
  | buffer, step :: rest => performAll (buffer.perform step) rest

/-- Everything that producers write in the course of some steps, the earliest first. -/
def allWrites : AttributeBuffer → List (BufferStep ε) → List Write
  | _, [] => []
  | buffer, step :: rest => buffer.writesOf step ++ allWrites (buffer.perform step) rest

/-- The storage of a buffer that was new before these writes. -/
def Holds (buffer : AttributeBuffer) (writes : List Write) : Prop :=
  ∀ i < bufferCapacity, buffer.storage.toList[i]? = some ((lastWritten i writes).getD 0)

end AttributeBuffer

theorem lastWritten_append (i : Nat) (earlier later : List Write) :
    lastWritten i (earlier ++ later) = (lastWritten i later).or (lastWritten i earlier) := by
  induction earlier with
  | nil => simp [lastWritten]
  | cons write earlier ih => rw [List.cons_append, lastWritten, lastWritten, ih, Option.or_assoc]

namespace AttributeBuffer

/-! ### The storage over a history -/

theorem storage_fill (buffer : AttributeBuffer) (produced : Fill ε) :
    (buffer.fill produced).2.storage = applyWrites buffer.storage produced.writes := by
  unfold fill
  cases produced.outcome with
  | error error => rfl
  | ok reported =>
    by_cases fits : reported ≤ bufferCapacity
    · simp only [fits, dite_true]
    · simp only [fits, dite_false]

theorem holds_empty : empty.Holds [] := by
  intro i inside
  rw [getElem?_storage_empty inside]
  rfl

section
variable {buffer : AttributeBuffer} {writes : List Write} (holds : buffer.Holds writes)
include holds

theorem holds_fill (produced : Fill ε) : (buffer.fill produced).2.Holds (writes ++ produced.writes) := by
  intro i inside
  rw [storage_fill, getElem?_applyWrites inside, holds i inside, lastWritten_append]
  cases lastWritten i produced.writes with
  | none => rfl
  | some byte => rfl

theorem holds_perform (step : BufferStep ε) : (buffer.perform step).Holds (writes ++ buffer.writesOf step) := by
  cases step with
  | clear =>
    intro i inside
    rw [writesOf, List.append_nil]
    exact holds i inside
  | fill produce => exact holds_fill holds _

theorem holds_performAll (steps : List (BufferStep ε)) :
    (buffer.performAll steps).Holds (writes ++ buffer.allWrites steps) := by
  induction steps generalizing buffer writes with
  | nil =>
    rw [allWrites, List.append_nil]
    exact holds
  | cons step rest ih =>
    rw [allWrites, ← List.append_assoc]
    exact ih (holds_perform holds step)

theorem getElem?_toList_of_holds {i : Nat} (visible : i < buffer.length) :
    buffer.toList[i]? = some ((lastWritten i writes).getD 0) := by
  have inside := Nat.lt_of_lt_of_le visible buffer.length_le
  rw [toList, List.getElem?_take, if_pos visible, holds i inside]

end

/-! ### One fill -/

section
variable {produced : Fill ε} (buffer : AttributeBuffer)

theorem fill_failed {error : ε} (outcome : produced.outcome = .error error) :
    (buffer.fill produced).1 = .error (.producer error) ∧ (buffer.fill produced).2.toList = [] := by
  refine ⟨?_, ?_⟩
  · unfold fill
    rw [outcome]
  · rw [toList_fill, outcome]

theorem fill_overflowed {reported : Nat} (outcome : produced.outcome = .ok reported)
    (exceeds : ¬ reported ≤ bufferCapacity) :
    (buffer.fill produced).1 = .error (.overflow ⟨reported, bufferCapacity⟩) ∧
      (buffer.fill produced).2.toList = [] := by
  refine ⟨?_, ?_⟩
  · unfold fill
    rw [outcome]
    simp only [exceeds, dite_false]
  · rw [toList_fill, outcome]
    exact if_neg exceeds

theorem fill_fitted {reported : Nat} (outcome : produced.outcome = .ok reported) (fits : reported ≤ bufferCapacity) :
    (buffer.fill produced).1 = .ok reported ∧ (buffer.fill produced).2.length = reported := by
  unfold fill
  rw [outcome]
  simp only [fits, dite_true]
  exact ⟨trivial, trivial⟩

end

/-- A fill after any history of a new buffer. -/
theorem fill_history (before : List (BufferStep ε)) (produce : FixedBytes bufferCapacity → Fill ε) :
    let buffer := empty.performAll before
    let produced := produce buffer.storage
    let writes := empty.allWrites before ++ produced.writes
    let answer := (buffer.fill produced).1
    let after := (buffer.fill produced).2
    buffer.length ≤ 5000 ∧ buffer.toList.length = buffer.length ∧ buffer.clear.toList = [] ∧
    (∀ i < buffer.length, buffer.toList[i]? = some ((lastWritten i (empty.allWrites before)).getD 0)) ∧
    (match produced.outcome with
    | .error error => answer = .error (.producer error) ∧ after.toList = []
    | .ok reported =>
      if reported ≤ 5000 then
        answer = .ok reported ∧ after.toList.length = reported ∧
          ∀ i < reported, after.toList[i]? = some ((lastWritten i writes).getD 0)
      else answer = .error (.overflow ⟨reported, 5000⟩) ∧ after.toList = []) ∧
    ∀ value, produced.Serves value → value.length ≤ 5000 →
      answer = .ok value.length ∧ after.toList = value := by
  intro buffer produced writes answer after
  -- the invariant of the history: every place holds what was written there last
  have held : buffer.Holds (empty.allWrites before) := holds_performAll holds_empty before
  refine ⟨buffer.length_le, buffer.length_toList, buffer.toList_clear, ?_, ?_, ?_⟩
  · intro i visible
    exact getElem?_toList_of_holds held visible
  · have holds : after.Holds writes := holds_fill held produced
    cases outcome : produced.outcome with
    | error error => exact fill_failed buffer outcome
    | ok reported =>
      by_cases fits : reported ≤ 5000
      · obtain ⟨told, length⟩ := fill_fitted buffer outcome fits
        refine (if_pos fits).mpr ⟨told, (length_toList after).trans length, ?_⟩
        intro i visible
        exact getElem?_toList_of_holds holds (Nat.lt_of_lt_of_eq visible length.symm)
      · exact (if_neg fits).mpr (fill_overflowed buffer outcome fits)
  · intro value serves fits
    exact ⟨fill_serves serves fits buffer, toList_fill_serves serves fits buffer⟩

/-- A failed producer's byte behind the one that is written, and a place that nobody wrote to. -/
example :
    let failed : BufferStep String := .fill fun _ => ⟨[⟨0, [7, 8]⟩], .error "interrupted"⟩
    ((empty.performAll [failed, .clear]).fill (⟨[⟨0, [5]⟩], .ok 3⟩ : Fill String)).2.toList = [5, 8, 0] := by
  decide +kernel

end AttributeBuffer

end Residency
