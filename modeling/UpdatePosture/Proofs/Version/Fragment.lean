import Mathlib
import UpdatePosture.Proofs.Version.Order

/-!
# Fragments from the front

The order of fragments is taken apart at the front: the first segments decide, and if they are equal what
stands after them does (`compareFragments_step`). Main statements: what fragments have in common at their
front does not count, unless it cuts a number in two (`compareFragments_append_append`), and runs of digits
are compared as the numbers they denote (`compareFragments_eq_compareByValue`).
-/

namespace UpdatePosture.Version

open Std

/-! ## The first segment -/

/-- The run of bytes that are no digits in front. -/
def textRun (bytes : List UInt8) : List UInt8 :=
  bytes.takeWhile fun byte => !isDigitByte byte

/-- What stands after `textRun`. -/
def afterText (bytes : List UInt8) : List UInt8 :=
  bytes.dropWhile fun byte => !isDigitByte byte

/-- The first segment, which is empty where nothing is left. -/
def headSegment (bytes : List UInt8) : Segment :=
  ⟨textRun bytes, (afterText bytes).takeWhile isDigitByte⟩

/-- What stands after the first segment. -/
def afterSegment (bytes : List UInt8) : List UInt8 :=
  (afterText bytes).dropWhile isDigitByte

theorem segments_eq_cons {bytes : List UInt8} (h : bytes ≠ []) :
    segments bytes = headSegment bytes :: segments (afterSegment bytes) := by
  cases bytes with
  | nil => exact absurd rfl h
  | cons byte bytes =>
    rw [segments]
    cases hdigit : isDigitByte byte with
    | true => simp [headSegment, afterSegment, textRun, afterText, hdigit]
    | false => simp [headSegment, afterSegment, textRun, afterText, hdigit]

theorem headD_segments (bytes : List UInt8) : (segments bytes).headD .empty = headSegment bytes := by
  cases bytes with
  | nil => simp [segments, headSegment, textRun, afterText, Segment.empty]
  | cons byte bytes => rw [segments_eq_cons (List.cons_ne_nil _ _), List.headD_cons]

theorem tail_segments (bytes : List UInt8) : (segments bytes).tail = segments (afterSegment bytes) := by
  cases bytes with
  | nil => simp [segments, afterSegment, afterText]
  | cons byte bytes => rw [segments_eq_cons (List.cons_ne_nil _ _), List.tail_cons]

theorem compareFragments_step (left right : List UInt8) :
    compareFragments left right =
      ((headSegment left).compare (headSegment right)).then
        (compareFragments (afterSegment left) (afterSegment right)) := by
  rw [compareFragments, comparePadded_step, headD_segments, headD_segments, tail_segments, tail_segments,
    compareFragments]

theorem compareTexts_cons_cons (x y : UInt8) (xs ys : List UInt8) :
    compareTexts (x :: xs) (y :: ys) = (compare (byteRank x) (byteRank y)).then (compareTexts xs ys) := by
  simp [compareTexts, comparePadded]

theorem length_afterSegment_le (bytes : List UInt8) : (afterSegment bytes).length ≤ bytes.length :=
  ((List.dropWhile_sublist _).trans (List.dropWhile_sublist _)).length_le

theorem length_afterSegment_lt {bytes : List UInt8} (h : bytes ≠ []) :
    (afterSegment bytes).length < bytes.length := by
  obtain ⟨byte, rest, rfl⟩ := List.exists_cons_of_ne_nil h
  refine Nat.lt_succ_of_le ?_
  cases hdigit : isDigitByte byte with
  | true =>
    have hafter : afterSegment (byte :: rest) = rest.dropWhile isDigitByte := by
      simp [afterSegment, afterText, hdigit]
    rw [hafter]
    exact (List.dropWhile_sublist _).length_le
  | false =>
    have hafter : afterSegment (byte :: rest) = afterSegment rest := by
      simp [afterSegment, afterText, hdigit]
    rw [hafter]
    exact length_afterSegment_le rest

theorem isDigitByte_of_mem_segments {bytes : List UInt8} {segment : Segment} (h : segment ∈ segments bytes) :
    ∀ digit ∈ segment.digits, isDigitByte digit := by
  induction hlength : bytes.length using Nat.strong_induction_on generalizing bytes with
  | _ length ih =>
    rcases eq_or_ne bytes [] with rfl | hne
    · simp [segments] at h
    · rw [segments_eq_cons hne] at h
      rcases List.mem_cons.mp h with rfl | hmem
      · exact fun digit hdigit => List.mem_takeWhile_imp hdigit
      · exact ih _ (hlength ▸ length_afterSegment_lt hne) hmem rfl

/-! ## A common front -/

/-- No number goes on in front. -/
def EndsDigits (bytes : List UInt8) : Prop :=
  ∀ byte ∈ bytes.head?, isDigitByte byte = false

theorem compareFragments_cons_cons {byte : UInt8} (h : isDigitByte byte = false) (left right : List UInt8) :
    compareFragments (byte :: left) (byte :: right) = compareFragments left right := by
  have hhead : ∀ bytes, headSegment (byte :: bytes) = ⟨byte :: textRun bytes, (headSegment bytes).digits⟩ := by
    intro bytes
    simp [headSegment, textRun, afterText, h]
  have hafter : ∀ bytes, afterSegment (byte :: bytes) = afterSegment bytes := by
    intro bytes
    simp [afterSegment, afterText, h]
  have hrank : compare (byteRank byte) (byteRank byte) = .eq := ReflCmp.compare_self
  rw [compareFragments_step, compareFragments_step left, hhead, hhead, hafter, hafter, Segment.compare,
    compareTexts_cons_cons, hrank]
  rfl

/-- A number in front is the first segment. -/
theorem headSegment_digits_append {digits bytes : List UInt8} (hne : digits ≠ [])
    (hdigits : ∀ byte ∈ digits, isDigitByte byte) (h : EndsDigits bytes) :
    headSegment (digits ++ bytes) = ⟨[], digits⟩ ∧ afterSegment (digits ++ bytes) = bytes := by
  have hafter : afterText (digits ++ bytes) = digits ++ bytes := by
    obtain ⟨byte, more, rfl⟩ := List.exists_cons_of_ne_nil hne
    simp [afterText, hdigits byte List.mem_cons_self]
  have htext : textRun (digits ++ bytes) = [] := by
    obtain ⟨byte, more, rfl⟩ := List.exists_cons_of_ne_nil hne
    simp [textRun, hdigits byte List.mem_cons_self]
  rw [headSegment, afterSegment, hafter, htext, List.takeWhile_append_of_pos hdigits,
    List.dropWhile_append_of_pos hdigits]
  cases bytes with
  | nil => simp
  | cons byte bytes => simp [h byte rfl]

theorem compareFragments_digits_append {digits left right : List UInt8}
    (hdigits : ∀ byte ∈ digits, isDigitByte byte) (hleft : EndsDigits left) (hright : EndsDigits right) :
    compareFragments (digits ++ left) (digits ++ right) = compareFragments left right := by
  rcases eq_or_ne digits [] with rfl | hne
  · rfl
  · obtain ⟨hheadLeft, hafterLeft⟩ := headSegment_digits_append hne hdigits hleft
    obtain ⟨hheadRight, hafterRight⟩ := headSegment_digits_append hne hdigits hright
    have heq : Segment.compare ⟨[], digits⟩ ⟨[], digits⟩ = .eq := ReflCmp.compare_self
    rw [compareFragments_step, hheadLeft, hheadRight, hafterLeft, hafterRight, heq]
    rfl

theorem endsDigits_append {front bytes : List UInt8} (hfront : EndsDigits front) (h : EndsDigits bytes) :
    EndsDigits (front ++ bytes) := by
  cases front with
  | nil => exact h
  | cons byte front => exact hfront

/-- What two fragments have in common in front is of no account, if no number goes on after it. -/
theorem compareFragments_append_append (front : List UInt8) {left right : List UInt8}
    (hleft : EndsDigits left) (hright : EndsDigits right) :
    compareFragments (front ++ left) (front ++ right) = compareFragments left right := by
  -- byte by byte through a text, but a number only as a whole
  induction hlength : front.length using Nat.strong_induction_on generalizing front with
  | _ length ih =>
    cases front with
    | nil => rfl
    | cons byte front =>
      cases hdigit : isDigitByte byte with
      | false =>
        rw [List.cons_append, List.cons_append, compareFragments_cons_cons hdigit]
        exact ih front.length (by rw [← hlength]; exact Nat.lt_succ_self _) front rfl
      | true =>
        let rest := front.dropWhile isDigitByte
        have hrest : EndsDigits rest := fun b hb => by
          have hnot := List.head?_dropWhile_not isDigitByte front
          rw [Option.mem_def.mp hb] at hnot
          simpa using hnot
        have hdigits : ∀ b ∈ byte :: front.takeWhile isDigitByte, isDigitByte b :=
          List.forall_mem_cons.mpr ⟨hdigit, fun b hb => List.mem_takeWhile_imp hb⟩
        have hfront : byte :: front = (byte :: front.takeWhile isDigitByte) ++ rest := by
          rw [List.cons_append, List.takeWhile_append_dropWhile]
        have hshorter : rest.length < length := by
          rw [← hlength, List.length_cons]
          exact Nat.lt_succ_of_le (List.dropWhile_sublist _).length_le
        rw [hfront, List.append_assoc, List.append_assoc, compareFragments_digits_append hdigits
          (endsDigits_append hrest hleft) (endsDigits_append hrest hright)]
        exact ih rest.length hshorter rest rfl

/-! ## Bytes that go on with a text -/

theorem isDigitByte_iff {byte : UInt8} : isDigitByte byte ↔ 48 ≤ byte.toNat ∧ byte.toNat ≤ 57 := by
  simp [isDigitByte, UInt8.le_iff_toNat_le]

theorem isLetterByte_iff {byte : UInt8} :
    isLetterByte byte ↔
      (65 ≤ byte.toNat ∧ byte.toNat ≤ 90) ∨ (97 ≤ byte.toNat ∧ byte.toNat ≤ 122) := by
  simp [isLetterByte, UInt8.le_iff_toNat_le]

/-- No other bytes have the rank of digits, which is that of the end of a run. -/
theorem byteRank_eq_zero_iff {byte : UInt8} : byteRank byte = 0 ↔ isDigitByte byte := by
  unfold byteRank
  split
  next htilde =>
    subst htilde
    decide
  next =>
    split
    next hdigit => simp [hdigit]
    next hdigit =>
      split
      next hletter =>
        have hbounds := isLetterByte_iff.mp hletter
        exact iff_of_false (by omega) hdigit
      next => exact iff_of_false (by omega) hdigit

theorem byteRank_pos {byte : UInt8} (hdigit : isDigitByte byte = false) (htilde : byte ≠ tilde) :
    0 < byteRank byte := by
  have hne : byteRank byte ≠ 0 := by rw [ne_eq, byteRank_eq_zero_iff, hdigit]; exact Bool.false_ne_true
  have hnonneg : 0 ≤ byteRank byte := by
    rw [byteRank, if_neg htilde]
    split
    · exact le_rfl
    · split <;> omega
  omega

/-- A fragment that goes on where another ends is told by the next byte. -/
theorem compareFragments_append_self {byte : UInt8} (h : isDigitByte byte = false) (front bytes : List UInt8) :
    compareFragments (front ++ byte :: bytes) front = compare (byteRank byte) 0 := by
  have hleft : EndsDigits (byte :: bytes) := by
    rintro b ⟨⟩
    exact h
  have hright : EndsDigits [] := nofun
  have hcommon := compareFragments_append_append front hleft hright
  rw [List.append_nil] at hcommon
  have hhead : headSegment (byte :: bytes) = ⟨byte :: textRun bytes, (afterText bytes).takeWhile isDigitByte⟩ := by
    simp [headSegment, textRun, afterText, h]
  have hdecided : compare (byteRank byte) 0 ≠ .eq := by
    rw [ne_eq, Int.compare_eq_eq, byteRank_eq_zero_iff, h]
    exact Bool.false_ne_true
  have hempty : headSegment [] = .empty := rfl
  rw [hcommon, compareFragments_step, hhead, hempty, Segment.compare, Segment.empty, compareTexts, List.map_cons,
    List.map_nil, comparePadded]
  -- the order of the first bytes is not `eq`, and so nothing after them counts
  cases hfirst : compare (byteRank byte) 0 with
  | eq => exact absurd hfirst hdecided
  | lt => rfl
  | gt => rfl

/-! ## Numbers -/

/-- Takes the next digit into a number. -/
def push (number : Nat) (digit : UInt8) : Nat :=
  10 * number + (digit.toNat - 48)

/-- The number that a run of digits denotes. -/
def value (digits : List UInt8) : Nat :=
  digits.foldl push 0

theorem foldl_push (number : Nat) (digits : List UInt8) :
    digits.foldl push number = number * 10 ^ digits.length + value digits := by
  induction digits generalizing number with
  | nil => simp [value]
  | cons digit digits ih =>
    rw [value, List.foldl_cons, List.foldl_cons, ih, ih (push 0 digit), List.length_cons]
    simp only [push]
    ring

theorem value_lt {digits : List UInt8} (h : ∀ digit ∈ digits, isDigitByte digit) :
    value digits < 10 ^ digits.length := by
  induction digits with
  | nil => exact Nat.one_pos
  | cons digit digits ih =>
    obtain ⟨hdigit, hdigits⟩ := List.forall_mem_cons.mp h
    have hbounds := isDigitByte_iff.mp hdigit
    have hrest := ih hdigits
    have hpush : push 0 digit ≤ 9 := by unfold push; omega
    calc value (digit :: digits) = push 0 digit * 10 ^ digits.length + value digits :=
        foldl_push (push 0 digit) digits
      _ < push 0 digit * 10 ^ digits.length + 10 ^ digits.length := by omega
      _ = (push 0 digit + 1) * 10 ^ digits.length := by ring
      _ ≤ 10 * 10 ^ digits.length := Nat.mul_le_mul_right _ (by omega)
      _ = 10 ^ (digit :: digits).length := by rw [List.length_cons, pow_succ']

theorem le_value {digit : UInt8} (hdigit : isDigitByte digit) (hzero : digit ≠ 48) (digits : List UInt8) :
    10 ^ digits.length ≤ value (digit :: digits) := by
  have hbounds := isDigitByte_iff.mp hdigit
  have hne : digit.toNat ≠ 48 := fun h => hzero (UInt8.toNat_inj.mp h)
  have hpush : 1 ≤ push 0 digit := by unfold push; omega
  calc 10 ^ digits.length = 1 * 10 ^ digits.length := (Nat.one_mul _).symm
    _ ≤ push 0 digit * 10 ^ digits.length := Nat.mul_le_mul_right _ hpush
    _ ≤ push 0 digit * 10 ^ digits.length + value digits := Nat.le_add_right _ _
    _ = value (digit :: digits) := (foldl_push (push 0 digit) digits).symm

theorem value_significant (digits : List UInt8) : value (significant digits) = value digits := by
  induction digits with
  | nil => rfl
  | cons digit digits ih =>
    by_cases hzero : digit = 48
    · subst hzero
      exact ih
    · rw [significant, List.dropWhile_cons_of_neg (by simpa using hzero)]

theorem compare_push {m n : Nat} {x y : UInt8} (hx : isDigitByte x) (hy : isDigitByte y) :
    compare (push m x) (push n y) = (compare m n).then (compare x y) := by
  have hxbounds := isDigitByte_iff.mp hx
  have hybounds := isDigitByte_iff.mp hy
  rw [UInt8.compare_eq_toNat_compare_toNat]
  unfold push
  rcases Nat.lt_trichotomy m n with hlt | rfl | hgt
  · rw [Nat.compare_eq_lt.mpr hlt]
    exact Nat.compare_eq_lt.mpr (by omega)
  · have hself : compare m m = .eq := ReflCmp.compare_self
    rw [hself]
    simp only [Nat.compare_eq_ite_lt, Ordering.eq_then]
    grind
  · rw [Nat.compare_eq_gt.mpr hgt]
    exact Nat.compare_eq_gt.mpr (by omega)

/-- Of digits that are as many, the first difference tells which number is greater. -/
theorem compare_foldl_push {xs ys : List UInt8} (hlength : xs.length = ys.length)
    (hxs : ∀ x ∈ xs, isDigitByte x) (hys : ∀ y ∈ ys, isDigitByte y) (m n : Nat) :
    compare (xs.foldl push m) (ys.foldl push n) = (compare m n).then (compare xs ys) := by
  induction xs generalizing ys m n with
  | nil =>
    obtain rfl := List.length_eq_zero_iff.mp hlength.symm
    simp
  | cons x xs ih =>
    cases ys with
    | nil => cases hlength
    | cons y ys =>
      obtain ⟨hx, hxs⟩ := List.forall_mem_cons.mp hxs
      obtain ⟨hy, hys⟩ := List.forall_mem_cons.mp hys
      rw [List.foldl_cons, List.foldl_cons, ih (Nat.succ.inj hlength) hxs hys, compare_push hx hy,
        List.compare_cons_cons, Ordering.then_assoc]

theorem significant_sublist (digits : List UInt8) : (significant digits).Sublist digits :=
  List.dropWhile_sublist _

/-- A run with more digits that count denotes a greater number. -/
theorem value_lt_value {left right : List UInt8} (hleft : ∀ digit ∈ left, isDigitByte digit)
    (hright : ∀ digit ∈ right, isDigitByte digit)
    (h : (significant left).length < (significant right).length) : value left < value right := by
  rw [← value_significant left, ← value_significant right]
  cases hdigits : significant right with
  | nil => simp [hdigits] at h
  | cons digit digits =>
    have hdigit : digit ∈ right := (significant_sublist right).subset (hdigits ▸ List.mem_cons_self)
    have hzero : digit ≠ 48 := by
      have hnot := List.head?_dropWhile_not (· == 48) right
      rw [← significant, hdigits] at hnot
      simpa using hnot
    rw [hdigits, List.length_cons] at h
    calc value (significant left)
        < 10 ^ (significant left).length := value_lt fun d hd => hleft d ((significant_sublist left).subset hd)
      _ ≤ 10 ^ digits.length := Nat.pow_le_pow_right (by decide) (by omega)
      _ ≤ value (digit :: digits) := le_value (hright digit hdigit) hzero digits

/-- Runs of digits, however long, are in the order of the numbers that they denote. -/
theorem compareDigits_eq_compare_value {left right : List UInt8} (hleft : ∀ digit ∈ left, isDigitByte digit)
    (hright : ∀ digit ∈ right, isDigitByte digit) :
    compareDigits left right = compare (value left) (value right) := by
  unfold compareDigits
  rcases Nat.lt_trichotomy (significant left).length (significant right).length with hlt | heq | hgt
  · rw [Nat.compare_eq_lt.mpr hlt, Nat.compare_eq_lt.mpr (value_lt_value hleft hright hlt)]
    rfl
  · have hfold := compare_foldl_push heq (fun d hd => hleft d ((significant_sublist left).subset hd))
      (fun d hd => hright d ((significant_sublist right).subset hd)) 0 0
    have hself : compare 0 0 = Ordering.eq := rfl
    rw [← value, ← value, value_significant, value_significant, hself, Ordering.eq_then] at hfold
    rw [Nat.compare_eq_eq.mpr heq, hfold]
    rfl
  · rw [Nat.compare_eq_gt.mpr hgt, Nat.compare_eq_gt.mpr (value_lt_value hright hleft hgt)]
    rfl

/-- The order of segments whose digits are taken as a number. -/
def Segment.compareByValue (left right : Segment) : Ordering :=
  (compareTexts left.text right.text).then (Ord.compare (value left.digits) (value right.digits))

theorem comparePadded_congr {α : Type} {first second : α → α → Ordering} {filler : α} {xs ys : List α}
    (h : ∀ x ∈ filler :: xs, ∀ y ∈ filler :: ys, first x y = second x y) :
    comparePadded first filler xs ys = comparePadded second filler xs ys := by
  have hskip : ∀ {z w : α} {zs : List α}, z ∈ filler :: zs → z ∈ filler :: w :: zs := fun hz =>
    (List.mem_cons.mp hz).elim (fun heq => heq ▸ List.mem_cons_self)
      fun hmem => List.mem_cons_of_mem _ (List.mem_cons_of_mem _ hmem)
  have hsecond : ∀ {w : α} {zs : List α}, w ∈ filler :: w :: zs :=
    List.mem_cons_of_mem _ List.mem_cons_self
  fun_induction comparePadded first filler xs ys with
  | case1 => simp [comparePadded]
  | case2 x xs ih =>
    rw [comparePadded, h x hsecond filler List.mem_cons_self, ih fun x hx y hy => h x (hskip hx) y hy]
  | case3 y ys ih =>
    rw [comparePadded, h filler List.mem_cons_self y hsecond, ih fun x hx y hy => h x hx y (hskip hy)]
  | case4 x xs y ys ih =>
    rw [comparePadded, h x hsecond y hsecond, ih fun x hx y hy => h x (hskip hx) y (hskip hy)]

theorem compareFragments_eq_compareByValue (left right : List UInt8) :
    compareFragments left right =
      comparePadded Segment.compareByValue .empty (segments left) (segments right) := by
  have hdigits : ∀ bytes, ∀ segment ∈ Segment.empty :: segments bytes,
      ∀ digit ∈ segment.digits, isDigitByte digit := fun bytes =>
    List.forall_mem_cons.mpr ⟨nofun, fun _ => isDigitByte_of_mem_segments⟩
  refine comparePadded_congr fun first hfirst second hsecond => ?_
  rw [Segment.compare, Segment.compareByValue,
    compareDigits_eq_compare_value (hdigits left first hfirst) (hdigits right second hsecond)]

end UpdatePosture.Version
