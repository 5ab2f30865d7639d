import Mathlib.Data.Rat.Floor
import Residency.Proofs.Attribute.Checked
import Residency.Proofs.Paging

/-!
# Collapsed extent maps

A page that becomes one hole up to the end of its file, and the rounding behind its
length.
-/

/-!
## One page, collapsed in place

A page of an extent map is handed in and changed where it stands. The in-place
collapse below looks up and changes slots under a check of their numbers and adds
under a check of the width; it never stops, and it agrees with the projection.
Three numbers may change: how many records are announced, and place and length of
the first one. Main statement: `projectExtents_effect`.
-/

namespace Residency

/-! ### With every check -/

namespace Checked

def slot (page : List ExtentRecord) (i : Nat) : Checked ExtentRecord :=
  match page[i]? with
  | some record => .ok record
  | none => .error .outOfRange

def changeSlot (page : List ExtentRecord) (i : Nat) (change : ExtentRecord → ExtentRecord) :
    Checked (List ExtentRecord) := do
  let record ← slot page i
  .ok (page.set i (change record))

def add (a b : Int64) : Checked Int64 :=
  if Int64.minValue.toInt ≤ a.toInt + b.toInt ∧ a.toInt + b.toInt ≤ Int64.maxValue.toInt then .ok (a + b)
  else .error .overflow

end Checked

open Checked

def basicBlocksChecked (bytes : Int64) : Checked Int64 := add (bytes >>> 9) (if bytes &&& 511 = 0 then 0 else 1)

/-- What the caller is told, and the page afterwards. -/
def FileContext.projectExtentsInPlace (context : FileContext) (page : List ExtentRecord) :
    Checked (Except ProjectionError Unit × List ExtentRecord) :=
  if page.length < 2 then .ok (.error (.extentMapTooShort page.length), page)
  else do
    let header ← slot page 0
    if header.entries ≤ 0 then .ok (.ok (), page)
    else
      match context.fileSize? with
      | none => .ok (.ok (), page)
      | some fileSize => do
        let blocks ← basicBlocksChecked fileSize
        let first ← slot page 1
        let remaining := saturatingSub blocks first.offset
        if 0 < remaining then do
          let page ← changeSlot page 0 fun header => { header with entries := 1 }
          let page ← changeSlot page 1 fun first => { first with block := ExtentRecord.holeBlock }
          let page ← changeSlot page 1 fun first => { first with length := remaining }
          .ok (.ok (), page)
        else do
          let page ← changeSlot page 0 fun header => { header with entries := 0 }
          .ok (.ok (), page)

theorem basicBlocksChecked_eq (bytes : Int64) : basicBlocksChecked bytes = .ok (basicBlocks bytes) := by
  have least := bytes.le_toInt
  have greatest := bytes.toInt_lt
  have shifted := toInt_shiftRight_nine bytes
  have lowest : Int64.minValue.toInt = -2 ^ 63 := rfl
  have highest : Int64.maxValue.toInt = 2 ^ 63 - 1 := rfl
  unfold basicBlocksChecked add basicBlocks
  -- the shift has taken nine bits off, which leaves room for the carry
  by_cases aligned : bytes &&& 511 = 0
  · rw [if_pos aligned, Int64.toInt_zero, if_pos (by omega)]
  · rw [if_neg aligned, Int64.toInt_one, if_pos (by omega)]

namespace FileContext

variable {context : FileContext} {page after : List ExtentRecord}

theorem projectExtentsInPlace_eq (context : FileContext) (page : List ExtentRecord) :
    context.projectExtentsInPlace page =
      match context.projectExtents page with
      | .ok after => .ok (.ok (), after)
      | .error error => .ok (.error error, page) := by
  match page with
  | [] => rfl
  | [_] => rfl
  | header :: first :: rest =>
    have enough : ¬ (header :: first :: rest).length < 2 := by simp
    unfold projectExtentsInPlace projectExtents
    rw [if_neg enough]
    simp only [slot, changeSlot, List.getElem?_cons_zero, List.getElem?_cons_succ, ok_bind]
    by_cases ended : header.entries ≤ 0
    · simp [ended]
    · cases context.fileSize? with
      | none => simp [ended]
      | some size =>
        by_cases more : 0 < saturatingSub (basicBlocks size) first.offset
        · simp [ended, basicBlocksChecked_eq, collapse, more]
        · simp [ended, basicBlocksChecked_eq, collapse, more]

/-! ### The cases of a call -/

theorem projectExtents_short (short : page.length < 2) :
    context.projectExtents page = .error (.extentMapTooShort page.length) := by
  match page, short with
  | [], _ => rfl
  | [_], _ => rfl
  | _ :: _ :: rest, short =>
    rw [List.length_cons, List.length_cons] at short
    omega

theorem projectExtents_cases {header first : ExtentRecord} {rest : List ExtentRecord}
    (projected : context.projectExtents (header :: first :: rest) = .ok after) :
    (header.entries ≤ 0 ∨ context.fileSize? = none) ∧ after = header :: first :: rest ∨
      ∃ size, context.fileSize? = some size ∧ 0 < header.entries ∧
        after = (collapse (basicBlocks size) header first).1 ::
          (collapse (basicBlocks size) header first).2 :: rest := by
  by_cases idle : header.entries ≤ 0 ∨ context.fileSize? = none
  · rw [projectExtents_idle idle] at projected
    exact .inl ⟨idle, (Except.ok.inj projected).symm⟩
  · rw [not_or] at idle
    obtain ⟨size, candidate⟩ := Option.ne_none_iff_exists'.mp idle.2
    have announced : 0 < header.entries := Int32.not_le.mp idle.1
    rw [projectExtents_candidate candidate announced] at projected
    exact .inr ⟨size, candidate, announced, (Except.ok.inj projected).symm⟩

theorem collapse_twice (blocks : Int64) (header first : ExtentRecord) :
    collapse blocks (collapse blocks header first).1 (collapse blocks header first).2 =
      collapse blocks header first := by
  by_cases before : first.offset < blocks
  · -- the offset is kept, so the second call finds the same number of blocks left
    have still : (holeUpTo blocks first).offset < blocks := before
    rw [collapse_before_end header before]
    exact collapse_before_end _ still
  · have past := Int64.not_lt.mp before
    rw [collapse_past_end header past]
    exact collapse_past_end _ past

theorem projectExtents_twice (projected : context.projectExtents page = .ok after) :
    context.projectExtents after = .ok after := by
  match page with
  | [] => cases projected
  | [_] => cases projected
  | header :: first :: rest =>
    rcases projectExtents_cases projected with ⟨idle, rfl⟩ | ⟨size, candidate, -, rfl⟩
    · exact projectExtents_idle idle first rest
    · by_cases reached : (collapse (basicBlocks size) header first).1.entries ≤ 0
      · exact projectExtents_idle (.inl reached) _ _
      · rw [projectExtents_candidate candidate (Int32.not_le.mp reached), collapse_twice]

theorem collapse_frame (blocks : Int64) (header first : ExtentRecord) :
    ∃ entries block length,
      collapse blocks header first = ({ header with entries }, { first with block, length }) := by
  by_cases before : first.offset < blocks
  · exact ⟨1, ExtentRecord.holeBlock, _, collapse_before_end header before⟩
  · exact ⟨0, first.block, first.length, collapse_past_end header (Int64.not_lt.mp before)⟩

theorem projectExtents_frame {header first : ExtentRecord} {rest : List ExtentRecord}
    (projected : context.projectExtents (header :: first :: rest) = .ok after) :
    ∃ entries block length, after = { header with entries } :: { first with block, length } :: rest := by
  rcases projectExtents_cases projected with ⟨-, rfl⟩ | ⟨size, -, -, rfl⟩
  · exact ⟨header.entries, first.block, first.length, rfl⟩
  · obtain ⟨entries, block, length, collapsed⟩ := collapse_frame (basicBlocks size) header first
    exact ⟨entries, block, length, by rw [collapsed]⟩

theorem length_holeUpTo {blocks : Int64} {first : ExtentRecord} (before : first.offset < blocks) :
    let length := (holeUpTo blocks first).length.toInt
    length = min (blocks.toInt - first.offset.toInt) (2 ^ 63 - 1) ∧ 0 < length ∧
      first.offset.toInt + length ≤ blocks.toInt := by
  have value := toInt_saturatingSub blocks first.offset
  rw [Int64.lt_iff_toInt_lt] at before
  show (saturatingSub blocks first.offset).toInt = _ ∧ 0 < (saturatingSub blocks first.offset).toInt ∧
    first.offset.toInt + (saturatingSub blocks first.offset).toInt ≤ _
  omega

theorem fileSize?_of_not_candidate (passed : context.isCandidate = false) : context.fileSize? = none := by
  unfold isCandidate at passed
  unfold fileSize?
  rw [Option.isSome_eq_false_iff, Option.isNone_iff_eq_none] at passed
  rw [passed]
  rfl

theorem projectExtents_collapsed {size : Int64} (candidate : context.fileSize? = some size)
    {header first : ExtentRecord} {rest : List ExtentRecord} (announced : 0 < header.entries)
    (projected : context.projectExtents (header :: first :: rest) = .ok after) :
    if (basicBlocks size).toInt ≤ first.offset.toInt then after = { header with entries := 0 } :: first :: rest
    else ∃ length : Int64,
      after = { header with entries := 1 } :: { first with block := -1, length } :: rest ∧
      length.toInt = min ((basicBlocks size).toInt - first.offset.toInt) (2 ^ 63 - 1) ∧ 0 < length.toInt ∧
      first.offset.toInt + length.toInt ≤ (basicBlocks size).toInt ∧
      (0 ≤ first.offset.toInt → first.offset.toInt + length.toInt = (basicBlocks size).toInt) := by
  rw [projectExtents_candidate candidate announced] at projected
  cases projected
  by_cases past : (basicBlocks size).toInt ≤ first.offset.toInt
  · rw [if_pos past, collapse_past_end header (Int64.le_iff_toInt_le.mpr past)]
  · have before : first.offset < basicBlocks size := Int64.lt_iff_toInt_lt.mpr (by omega)
    rw [if_neg past, collapse_before_end header before]
    obtain ⟨exact, positive, inside⟩ := length_holeUpTo before
    exact ⟨_, rfl, exact, positive, inside, fun start => stop_holeUpTo start before⟩

/-- One call, for every context and every page. -/
theorem projectExtents_effect (context : FileContext) (page : List ExtentRecord) :
    ∃ told after, context.projectExtentsInPlace page = .ok (told, after) ∧
      context.projectExtents page = told.map (fun _ => after) ∧
      context.projectExtentsInPlace after = .ok (told, after) ∧
      (page.length < 2 → told = .error (.extentMapTooShort page.length) ∧ after = page) ∧
      ∀ header first rest, page = header :: first :: rest →
        told = .ok () ∧ after.length = page.length ∧
        (∃ entries block length, after = { header with entries } :: { first with block, length } :: rest) ∧
        (header.entries ≤ 0 ∨ context.isCandidate = false → after = page) ∧
        ∀ size, context.fileSize? = some size → 0 < header.entries →
          let stop := (basicBlocks size).toInt
          let start := first.offset.toInt
          if stop ≤ start then after = { header with entries := 0 } :: first :: rest
          else ∃ length : Int64,
            after = { header with entries := 1 } :: { first with block := -1, length } :: rest ∧
            length.toInt = min (stop - start) (2 ^ 63 - 1) ∧ 0 < length.toInt ∧ start + length.toInt ≤ stop ∧
            (0 ≤ start → start + length.toInt = stop) := by
  by_cases short : page.length < 2
  · have refused : context.projectExtents page = .error (.extentMapTooShort page.length) := projectExtents_short short
    have called := projectExtentsInPlace_eq context page
    rw [refused] at called
    refine ⟨_, page, called, refused, called, fun _ => ⟨rfl, rfl⟩, ?_⟩
    rintro header first rest rfl
    rw [List.length_cons, List.length_cons] at short
    omega
  · match page with
    | [] => exact absurd (by simp) short
    | [_] => exact absurd (by simp) short
    | header :: first :: rest =>
      obtain ⟨after, projected⟩ := projectExtents_isOk context header first rest
      have called := projectExtentsInPlace_eq context (header :: first :: rest)
      have again := projectExtentsInPlace_eq context after
      rw [projected] at called
      rw [projectExtents_twice projected] at again
      refine ⟨.ok (), after, called, projected, again, fun few => absurd few short, ?_⟩
      rintro _ _ _ ⟨⟩
      obtain ⟨entries, block, length, frame⟩ := projectExtents_frame projected
      refine ⟨rfl, ?_, ⟨entries, block, length, frame⟩, ?_, ?_⟩
      · rw [frame]
        rfl
      · intro idle
        have kept := projectExtents_idle (idle.imp_right fileSize?_of_not_candidate) first rest
        rw [projected] at kept
        exact Except.ok.inj kept
      · intro size candidate announced
        exact projectExtents_collapsed candidate announced projected

/-- A page that begins at the lowest offset: the distance to the end does not fit. -/
theorem projectExtents_effect_lowest_offset :
    let context : FileContext := ⟨⟨1, zeros 8, length_zeros 8⟩, .candidate 700 siteView, .empty⟩
    let first := ExtentRecord.extent Int64.minValue 100 8
    ∃ after, context.projectExtentsInPlace [.header 2 1, first] = .ok (.ok (), after) ∧
      after = [.header 2 1, { first with block := -1, length := Int64.maxValue }] := by
  intro context first
  obtain ⟨told, after, called, -, -, -, cases⟩ := projectExtents_effect context [.header 2 1, first]
  obtain ⟨rfl, -, -, -, candidate⟩ := cases _ _ _ rfl
  have collapsed := candidate 700 rfl (by decide)
  rw [if_neg (by decide)] at collapsed
  obtain ⟨length, rfl, exact, -⟩ := collapsed
  have most : length = Int64.maxValue := Int64.toInt_inj.mp (exact.trans (by decide))
  exact ⟨_, called, by rw [most]; rfl⟩

end FileContext

end Residency

/-!
## Sizes rounded up to blocks

A number of blocks is the ceiling of a size over 512, for every size, and nothing
overflows on the way to it. The usual rule adds 511 and shifts: it gives the same
number where the sum fits, which is everywhere but at the 511 greatest sizes.
Main statement: `basicBlocks_rounds_up`.
-/

namespace Residency

open Checked

/-! ### As numbers -/

theorem basicBlocks_eq_ceil (bytes : Int64) : (basicBlocks bytes).toInt = ⌈(bytes.toInt : ℚ) / 512⌉ :=
  calc (basicBlocks bytes).toInt
    _ = (bytes.toInt + 511) / 512 := toInt_basicBlocks bytes
    _ = -(-bytes.toInt / (512 : ℕ)) := by omega
    _ = ⌈(bytes.toInt : ℚ) / (512 : ℕ)⌉ := (Rat.ceil_intCast_div_natCast bytes.toInt 512).symm
    _ = ⌈(bytes.toInt : ℚ) / 512⌉ := by rw [Nat.cast_ofNat]

theorem basicBlocks_mono {small large : Int64} (le : small ≤ large) : basicBlocks small ≤ basicBlocks large := by
  rw [Int64.le_iff_toInt_le] at le ⊢
  rw [toInt_basicBlocks, toInt_basicBlocks]
  omega

theorem basicBlocks_between (bytes : Int64) :
    -2 ^ 54 ≤ (basicBlocks bytes).toInt ∧ (basicBlocks bytes).toInt ≤ 2 ^ 54 := by
  have least := bytes.le_toInt
  have greatest := bytes.toInt_lt
  rw [toInt_basicBlocks]
  omega

/-! ### By a sum -/

/-- The rule as a sum and a shift, with every check. -/
def basicBlocksBySum (bytes : Int64) : Checked Int64 := do
  let total ← add bytes 511
  .ok (total >>> 9)

theorem Checked.toInt_of_add {a b total : Int64} (added : add a b = .ok total) :
    total.toInt = a.toInt + b.toInt := by
  have lowest : Int64.minValue.toInt = -2 ^ 63 := rfl
  have highest : Int64.maxValue.toInt = 2 ^ 63 - 1 := rfl
  unfold add at added
  split at added
  · next fits =>
    cases added
    rw [Int64.toInt_add, Int.bmod_eq_of_le (by omega) (by omega)]
  · cases added

theorem basicBlocks_of_add {bytes total : Int64} (added : add bytes 511 = .ok total) :
    total >>> 9 = basicBlocks bytes := by
  have exact : total.toInt = bytes.toInt + 511 := toInt_of_add added
  apply Int64.toInt_inj.mp
  rw [toInt_shiftRight_nine, toInt_basicBlocks, exact]

theorem basicBlocksBySum_eq (bytes : Int64) : basicBlocksBySum bytes =
    if bytes.toInt + 511 ≤ Int64.maxValue.toInt then .ok (basicBlocks bytes) else .error .overflow := by
  have least := bytes.minValue_le_toInt
  have addend : (511 : Int64).toInt = 511 := rfl
  -- the sum can only be too large
  by_cases fits : bytes.toInt + 511 ≤ Int64.maxValue.toInt
  · have added : add bytes 511 = .ok (bytes + 511) := if_pos ⟨by omega, by omega⟩
    rw [if_pos fits, basicBlocksBySum, added, ok_bind, basicBlocks_of_add added]
  · have refused : add bytes 511 = .error .overflow := if_neg (by omega)
    rw [if_neg fits, basicBlocksBySum, refused, error_bind]

/-! ### Together -/

/-- Rounding up, for every size, negative ones included: nothing overflows, the number of
blocks is the ceiling and grows with the size, and the rule by a sum gives it where it can. -/
theorem basicBlocks_rounds_up (bytes : Int64) :
    basicBlocksChecked bytes = .ok (basicBlocks bytes) ∧
    (let blocks := (basicBlocks bytes).toInt
     blocks = ⌈(bytes.toInt : ℚ) / 512⌉ ∧
     512 * blocks - 512 < bytes.toInt ∧ bytes.toInt ≤ 512 * blocks ∧
     -2 ^ 54 ≤ blocks ∧ blocks ≤ 2 ^ 54) ∧
    (∀ more, bytes ≤ more → basicBlocks bytes ≤ basicBlocks more) ∧
    basicBlocksBySum bytes =
      if bytes.toInt + 511 ≤ Int64.maxValue.toInt then .ok (basicBlocks bytes) else .error .overflow := by
  obtain ⟨above, near⟩ := basicBlocks_bytes bytes
  obtain ⟨least, most⟩ := basicBlocks_between bytes
  refine ⟨basicBlocksChecked_eq bytes, ?_, ?_, basicBlocksBySum_eq bytes⟩
  · exact ⟨basicBlocks_eq_ceil bytes, by omega, above, least, most⟩
  · intro more le
    exact basicBlocks_mono le

/-- The last size that the sum fits, and the one after it. -/
theorem basicBlocks_rounds_up_last_fit :
    let last := Int64.maxValue - 511
    last ≤ last + 1 ∧ basicBlocks last ≤ basicBlocks (last + 1) ∧
      basicBlocksBySum last = .ok (2 ^ 54 - 1) ∧
      basicBlocksChecked (last + 1) = .ok (2 ^ 54) ∧ basicBlocksBySum (last + 1) = .error .overflow := by
  intro last
  obtain ⟨-, -, mono, sum⟩ := basicBlocks_rounds_up last
  obtain ⟨checked, -, -, refused⟩ := basicBlocks_rounds_up (last + 1)
  have next : last ≤ last + 1 := by decide
  refine ⟨next, mono _ next, ?_, ?_, ?_⟩
  · rw [sum]
    decide
  · rw [checked]
    decide
  · rw [refused]
    decide

end Residency
