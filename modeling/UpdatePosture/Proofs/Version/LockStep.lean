import Mathlib
import UpdatePosture.Proofs.Version.Fragment

/-!
# Fragments byte by byte

The order of fragments can be told without cutting them into segments, by walking through both of them in lock
step (`lockStep`). A round of this passes over texts as long as one of the fragments is in a text, then over
leading zeros, and then over digits as long as both fragments are in a number. It ends with an answer or with
what is left of both. Main statement: the walk finds the order of the fragments, and so does comparing their
segments with the numbers taken at their value (`compareFragments_eq_lockStep`).
-/

namespace UpdatePosture.Version

open Std

/-! ## The walk -/

/-- Whether a byte comes next that is no digit. -/
def startsText (bytes : List UInt8) : Bool :=
  bytes.head?.any fun byte => !isDigitByte byte

/-- Whether a digit comes next. -/
def startsDigit (bytes : List UInt8) : Bool :=
  bytes.head?.any isDigitByte

/-- The weight of what comes next: the end and digits weigh nothing, an ASCII letter weighs its code, a tilde
less than nothing, and any other byte more than a letter. -/
def weight : List UInt8 → Int
  | [] => 0
  | byte :: _ =>
      let c := Char.ofNat byte.toNat
      if c.isDigit then 0
      else if c.isAlpha then byte.toNat
      else if c = '~' then -1
      else byte.toNat + 256

/-- The answer that an order gives, or what is left of the fragments where it gives none. -/
def settle (ordering : Ordering) (left right : List UInt8) : Except Ordering (List UInt8 × List UInt8) :=
  match ordering with
  | .eq => .ok (left, right)
  | answer => .error answer

/-- Passes over texts, unless a weight differs. -/
def passTexts (left right : List UInt8) : Except Ordering (List UInt8 × List UInt8) :=
  if startsText left || startsText right then
    if weight left = weight right then passTexts left.tail right.tail
    else .error (compare (weight left) (weight right))
  else .ok (left, right)
termination_by left.length + right.length
decreasing_by
  have hne : left ≠ [] ∨ right ≠ [] := by
    rw [Bool.or_eq_true] at *
    refine Or.imp ?_ ?_ ‹_› <;> rintro h rfl <;> cases h
  simp only [List.length_tail, ← List.length_pos_iff] at *
  omega

/-- Passes over zeros in front. -/
def passZeros (bytes : List UInt8) : List UInt8 :=
  bytes.dropWhile (· == 48)

/-- Passes over digits, keeping in mind how the first two that differ compare. -/
def passDigits (noted : Ordering) : List UInt8 → List UInt8 → Ordering × List UInt8 × List UInt8
  | x :: left, y :: right =>
      if isDigitByte x && isDigitByte y then passDigits (noted.then (compare x y)) left right
      else (noted, x :: left, y :: right)
  | left, right => (noted, left, right)

/-- The end of a round. The number with a digit left is greater, and otherwise what was noted counts. -/
def close : Ordering × List UInt8 × List UInt8 → Except Ordering (List UInt8 × List UInt8)
  | (noted, left, right) =>
      if startsDigit left then .error .gt
      else if startsDigit right then .error .lt
      else settle noted left right

def round (left right : List UInt8) : Except Ordering (List UInt8 × List UInt8) := do
  let (left, right) ← passTexts left right
  close (passDigits .eq (passZeros left) (passZeros right))

/-! ## What a round does -/

theorem weight_cons (byte : UInt8) (bytes : List UInt8) : weight (byte :: bytes) = byteRank byte := by
  have h : ∀ byte : UInt8, weight [byte] = byteRank byte := by decide +kernel
  exact h byte

/-- No text starts with a weight of nothing. -/
theorem weight_eq_zero_iff {bytes : List UInt8} : weight bytes = 0 ↔ startsText bytes = false := by
  cases bytes with
  | nil => exact iff_of_true rfl rfl
  | cons byte bytes => rw [weight_cons, byteRank_eq_zero_iff]; simp [startsText]

theorem headD_map_byteRank (bytes : List UInt8) : ((textRun bytes).map byteRank).headD 0 = weight bytes := by
  cases bytes with
  | nil => rfl
  | cons byte bytes =>
    rw [weight_cons]
    cases hdigit : isDigitByte byte with
    | true => simp [textRun, hdigit, byteRank_eq_zero_iff.mpr hdigit]
    | false => simp [textRun, hdigit]

section StartsText

variable {bytes : List UInt8} (h : startsText bytes)
include h

theorem exists_cons_of_startsText : ∃ byte rest, bytes = byte :: rest ∧ isDigitByte byte = false := by
  cases bytes with
  | nil => cases h
  | cons byte rest => exact ⟨byte, rest, rfl, by simpa [startsText] using h⟩

theorem tail_textRun : (textRun bytes).tail = textRun bytes.tail := by
  obtain ⟨byte, rest, rfl, hdigit⟩ := exists_cons_of_startsText h
  simp [textRun, hdigit]

theorem afterText_tail : afterText bytes.tail = afterText bytes := by
  obtain ⟨byte, rest, rfl, hdigit⟩ := exists_cons_of_startsText h
  simp [afterText, hdigit]

end StartsText

theorem textRun_of_not_startsText {bytes : List UInt8} (h : startsText bytes = false) :
    textRun bytes = [] ∧ afterText bytes = bytes := by
  cases bytes with
  | nil => exact ⟨rfl, rfl⟩
  | cons byte bytes =>
    have hdigit : isDigitByte byte := by simpa [startsText] using h
    simp [textRun, afterText, hdigit]

theorem compareTexts_textRun (left right : List UInt8) :
    compareTexts (textRun left) (textRun right) =
      (compare (weight left) (weight right)).then (compareTexts (textRun left).tail (textRun right).tail) := by
  rw [compareTexts, comparePadded_step, headD_map_byteRank, headD_map_byteRank, compareTexts, List.map_tail,
    List.map_tail]

theorem passTexts_eq (left right : List UInt8) :
    passTexts left right =
      settle (compareTexts (textRun left) (textRun right)) (afterText left) (afterText right) := by
  fun_induction passTexts left right with
  | case1 left right hstart hweight ih =>
    -- one of them starts with a text, and of the same weight the other one does too
    have hiff : startsText left = startsText right := by
      have hleft := @weight_eq_zero_iff left
      have hright := @weight_eq_zero_iff right
      rw [hweight, hright] at hleft
      cases h : startsText right <;> simp_all
    have hboth : startsText left ∧ startsText right := by
      rw [hiff, Bool.or_self] at hstart
      exact ⟨hiff.trans hstart, hstart⟩
    have hself : compare (weight right) (weight right) = .eq := ReflCmp.compare_self
    rw [ih, compareTexts_textRun left, hweight, hself, Ordering.eq_then, tail_textRun hboth.1,
      tail_textRun hboth.2, afterText_tail hboth.1, afterText_tail hboth.2]
  | case2 left right hstart hweight =>
    rw [compareTexts_textRun]
    cases hcompare : compare (weight left) (weight right) with
    | eq => exact absurd (Int.compare_eq_eq.mp hcompare) hweight
    | lt => rfl
    | gt => rfl
  | case3 left right hstart =>
    obtain ⟨hleft, hright⟩ : startsText left = false ∧ startsText right = false := by simpa using hstart
    obtain ⟨hrunLeft, hafterLeft⟩ := textRun_of_not_startsText hleft
    obtain ⟨hrunRight, hafterRight⟩ := textRun_of_not_startsText hright
    rw [hrunLeft, hrunRight, hafterLeft, hafterRight]
    simp [compareTexts, comparePadded, settle]

theorem takeWhile_of_not_startsDigit {bytes : List UInt8} (h : startsDigit bytes = false) :
    bytes.takeWhile isDigitByte = [] ∧ bytes.dropWhile isDigitByte = bytes := by
  cases bytes with
  | nil => exact ⟨rfl, rfl⟩
  | cons byte bytes =>
    have hdigit : isDigitByte byte = false := by simpa [startsDigit] using h
    simp [hdigit]

theorem length_takeWhile_pos {bytes : List UInt8} (h : startsDigit bytes) :
    0 < (bytes.takeWhile isDigitByte).length := by
  cases bytes with
  | nil => cases h
  | cons byte bytes =>
    have hdigit : isDigitByte byte := by simpa [startsDigit] using h
    simp [hdigit]

/-- The digits that are left belong to the longer number. -/
theorem close_eq (noted : Ordering) {left right : List UInt8} (h : startsDigit left → startsDigit right = false) :
    close (noted, left, right) =
      settle
        ((compare (left.takeWhile isDigitByte).length (right.takeWhile isDigitByte).length).then
          (noted.then (compare (left.takeWhile isDigitByte) (right.takeWhile isDigitByte))))
        (left.dropWhile isDigitByte) (right.dropWhile isDigitByte) := by
  rw [close]
  cases hleft : startsDigit left with
  | true =>
    have hlonger := length_takeWhile_pos hleft
    rw [(takeWhile_of_not_startsDigit (h hleft)).1, List.length_nil, Nat.compare_eq_gt.mpr hlonger]
    rfl
  | false =>
    obtain ⟨hrunLeft, hafterLeft⟩ := takeWhile_of_not_startsDigit hleft
    cases hright : startsDigit right with
    | true =>
      have hlonger := length_takeWhile_pos hright
      rw [hrunLeft, List.length_nil, Nat.compare_eq_lt.mpr hlonger]
      rfl
    | false =>
      obtain ⟨hrunRight, hafterRight⟩ := takeWhile_of_not_startsDigit hright
      simp [hrunLeft, hafterLeft, hrunRight, hafterRight]

theorem close_passDigits (noted : Ordering) (left right : List UInt8) :
    close (passDigits noted left right) =
      settle
        ((compare (left.takeWhile isDigitByte).length (right.takeWhile isDigitByte).length).then
          (noted.then (compare (left.takeWhile isDigitByte) (right.takeWhile isDigitByte))))
        (left.dropWhile isDigitByte) (right.dropWhile isDigitByte) := by
  fun_induction passDigits noted left right with
  | case1 noted x left y right hdigits ih =>
    obtain ⟨hx, hy⟩ : isDigitByte x ∧ isDigitByte y := by simpa using hdigits
    rw [ih]
    simp [hx, hy, List.compare_cons_cons, Ordering.then_assoc, Nat.compare_eq_ite_lt]
  | case2 noted x left y right hdigits =>
    exact close_eq noted (by simpa [startsDigit] using hdigits)
  | case3 noted left right hne =>
    refine close_eq noted fun hleft => ?_
    cases left with
    | nil => cases hleft
    | cons x left =>
      cases right with
      | nil => rfl
      | cons y right => exact (hne x left y right rfl rfl).elim

/-- Leading zeros are passed over on either side, and so they may be passed over in the number alone. -/
theorem passZeros_eq (bytes : List UInt8) :
    (passZeros bytes).takeWhile isDigitByte = significant (bytes.takeWhile isDigitByte) ∧
      (passZeros bytes).dropWhile isDigitByte = bytes.dropWhile isDigitByte := by
  induction bytes with
  | nil => exact ⟨rfl, rfl⟩
  | cons byte bytes ih =>
    by_cases hzero : byte = 48
    · subst hzero
      have hdigit : isDigitByte 48 := by decide
      simpa [passZeros, significant, hdigit] using ih
    · cases hdigit : isDigitByte byte <;> simp [passZeros, significant, hzero, hdigit]

theorem settle_bind (first second : Ordering) {left right left' right' : List UInt8}
    {next : List UInt8 × List UInt8 → Except Ordering (List UInt8 × List UInt8)}
    (h : next (left, right) = settle second left' right') :
    settle first left right >>= next = settle (first.then second) left' right' := by
  cases first with
  | eq => exact h
  | lt => rfl
  | gt => rfl

/-- A round compares the first segments, and leaves what stands after them if they are equal. -/
theorem round_eq (left right : List UInt8) :
    round left right =
      settle ((headSegment left).compare (headSegment right)) (afterSegment left) (afterSegment right) := by
  rw [round, passTexts_eq]
  refine settle_bind _ _ ?_
  obtain ⟨hzerosLeft, hafterLeft⟩ := passZeros_eq (afterText left)
  obtain ⟨hzerosRight, hafterRight⟩ := passZeros_eq (afterText right)
  show close (passDigits .eq (passZeros (afterText left)) (passZeros (afterText right))) = _
  rw [close_passDigits, hzerosLeft, hzerosRight, hafterLeft, hafterRight, Ordering.eq_then]
  rfl

theorem settle_eq_ok_iff {ordering : Ordering} {left right left' right' : List UInt8} :
    settle ordering left right = .ok (left', right') ↔ ordering = .eq ∧ left = left' ∧ right = right' := by
  cases ordering <;> simp [settle]

theorem length_lt_of_round {left right left' right' : List UInt8} (h : round left right = .ok (left', right'))
    (hne : ¬(left = [] ∧ right = [])) : left'.length + right'.length < left.length + right.length := by
  rw [round_eq, settle_eq_ok_iff] at h
  obtain ⟨-, rfl, rfl⟩ := h
  rcases not_and_or.mp hne with hleft | hright
  · exact Nat.add_lt_add_of_lt_of_le (length_afterSegment_lt hleft) (length_afterSegment_le right)
  · exact Nat.add_lt_add_of_le_of_lt (length_afterSegment_le left) (length_afterSegment_lt hright)

/-- The order of fragments, found in rounds as long as anything is left. -/
def lockStep (left right : List UInt8) : Ordering :=
  if left = [] ∧ right = [] then .eq
  else
    match _h : round left right with
    | .error answer => answer
    | .ok (left', right') => lockStep left' right'
termination_by left.length + right.length
decreasing_by exact length_lt_of_round _h ‹_›

theorem lockStep_eq (left right : List UInt8) : lockStep left right = compareFragments left right := by
  fun_induction lockStep left right with
  | case1 left right hnil =>
    obtain ⟨rfl, rfl⟩ := hnil
    simp [compareFragments, segments, comparePadded]
  | case2 left right hne answer hround =>
    rw [round_eq] at hround
    rw [compareFragments_step]
    cases hhead : (headSegment left).compare (headSegment right) with
    | eq => simp [hhead, settle] at hround
    | lt => simpa [hhead, settle, eq_comm] using hround
    | gt => simpa [hhead, settle, eq_comm] using hround
  | case3 left right hne left' right' hround ih =>
    rw [round_eq, settle_eq_ok_iff] at hround
    obtain ⟨heq, rfl, rfl⟩ := hround
    rw [ih, compareFragments_step left, heq, Ordering.eq_then]

/-- Walking through two fragments byte by byte finds their order, and so does comparing their segments with
every run of digits taken as the number that it denotes. -/
theorem compareFragments_eq_lockStep (left right : List UInt8) :
    compareFragments left right = lockStep left right ∧
      compareFragments left right =
        comparePadded Segment.compareByValue .empty (segments left) (segments right) :=
  ⟨(lockStep_eq left right).symm, compareFragments_eq_compareByValue left right⟩

end UpdatePosture.Version
