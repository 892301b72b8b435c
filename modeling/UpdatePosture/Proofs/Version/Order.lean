import Mathlib
import UpdatePosture.Version.Order

/-!
# Laws of the order of versions

Versions that can be read are totally preordered by `Version.compare?`. Main statement:
`compare?_totalPreorder`.

The order is built from the top down out of lexicographic combinations, for which the library has the laws,
and of `comparePadded`, for which it has not. A comparison with padding is the lexicographic comparison of
the two lists once both are padded to one common length (`comparePadded_eq_compareLex`). Three lists that end
at different places are padded to one length too, so transitivity needs no cases on which one ends first.
-/

namespace UpdatePosture.Version

open Std

/-! ## Comparison with padding -/

section Padding

variable {α : Type} {compareItems : α → α → Ordering} {filler : α}

/-- A step compares two heads, whichever lists still have one. Once both lists have ended, the step compares
the filler with itself. -/
theorem comparePadded_step [ReflCmp compareItems] (xs ys : List α) :
    comparePadded compareItems filler xs ys =
      (compareItems (xs.headD filler) (ys.headD filler)).then
        (comparePadded compareItems filler xs.tail ys.tail) := by
  cases xs with
  | nil =>
    cases ys with
    | nil => simp [comparePadded, ReflCmp.compare_self]
    | cons y ys => simp [comparePadded]
  | cons x xs =>
    cases ys with
    | nil => simp [comparePadded]
    | cons y ys => simp [comparePadded]

theorem rightpad_succ (n : Nat) (xs : List α) :
    xs.rightpad (n + 1) filler = xs.headD filler :: xs.tail.rightpad n filler := by
  cases xs with
  | nil => simp [List.rightpad, List.replicate_succ]
  | cons x xs => simp [List.rightpad]

theorem comparePadded_eq_compareLex [ReflCmp compareItems] {n : Nat} {xs ys : List α}
    (hxs : xs.length ≤ n) (hys : ys.length ≤ n) :
    comparePadded compareItems filler xs ys =
      List.compareLex compareItems (xs.rightpad n filler) (ys.rightpad n filler) := by
  -- on the length and not on the lists: a step takes an item off both, even off a list that has ended
  induction n generalizing xs ys with
  | zero =>
    obtain rfl := List.length_eq_zero_iff.mp (Nat.le_zero.mp hxs)
    obtain rfl := List.length_eq_zero_iff.mp (Nat.le_zero.mp hys)
    simp [comparePadded, List.compareLex_nil_nil]
  | succ n ih =>
    have hxs' : xs.tail.length ≤ n := by rw [List.length_tail]; omega
    have hys' : ys.tail.length ≤ n := by rw [List.length_tail]; omega
    rw [comparePadded_step, rightpad_succ, rightpad_succ, List.compareLex_cons_cons, ih hxs' hys']

instance [OrientedCmp compareItems] : OrientedCmp (comparePadded compareItems filler) where
  eq_swap {xs ys} := by
    have hxs : xs.length ≤ max xs.length ys.length := Nat.le_max_left _ _
    have hys : ys.length ≤ max xs.length ys.length := Nat.le_max_right _ _
    rw [comparePadded_eq_compareLex hxs hys, comparePadded_eq_compareLex hys hxs]
    exact OrientedCmp.eq_swap

instance [TransCmp compareItems] : TransCmp (comparePadded compareItems filler) where
  isLE_trans {xs ys zs} hxy hyz := by
    -- any length will do that is enough for all three lists
    obtain ⟨n, hxs, hys, hzs⟩ : ∃ n, xs.length ≤ n ∧ ys.length ≤ n ∧ zs.length ≤ n :=
      ⟨xs.length + ys.length + zs.length, by omega, by omega, by omega⟩
    rw [comparePadded_eq_compareLex hxs hys] at hxy
    rw [comparePadded_eq_compareLex hys hzs] at hyz
    rw [comparePadded_eq_compareLex hxs hzs]
    exact TransCmp.isLE_trans hxy hyz

end Padding

/-! ## From runs to versions -/

/-- An order of images is an order. -/
theorem transCmp_comap {α β : Type} (order : β → β → Ordering) [TransCmp order] (image : α → β) :
    TransCmp fun x y => order (image x) (image y) where
  eq_swap {x y} := by
    show order (image x) (image y) = (order (image y) (image x)).swap
    exact OrientedCmp.eq_swap
  isLE_trans {x y z} hxy hyz := by
    show (order (image x) (image z)).isLE
    exact TransCmp.isLE_trans hxy hyz

instance : TransCmp compareTexts :=
  transCmp_comap (comparePadded compare 0) (List.map byteRank)

instance : TransCmp compareDigits :=
  inferInstanceAs (TransCmp (compareLex (compareOn fun digits => (significant digits).length)
    (compareOn significant)))

instance : TransCmp Segment.compare :=
  haveI := transCmp_comap compareTexts Segment.text
  haveI := transCmp_comap compareDigits Segment.digits
  inferInstanceAs (TransCmp (compareLex
    (fun left right : Segment => compareTexts left.text right.text)
    (fun left right : Segment => compareDigits left.digits right.digits)))

instance : TransCmp compareFragments :=
  transCmp_comap (comparePadded Segment.compare .empty) segments

instance : TransCmp order :=
  haveI := transCmp_comap compareFragments fun version : Version => Text.Utf8.encode version.upstream
  haveI := transCmp_comap compareFragments fun version : Version => Text.Utf8.encode version.revision
  inferInstanceAs (TransCmp (compareLex (compareLex (compareOn Version.epoch)
    (fun left right : Version =>
      compareFragments (Text.Utf8.encode left.upstream) (Text.Utf8.encode right.upstream)))
    (fun left right : Version =>
      compareFragments (Text.Utf8.encode left.revision) (Text.Utf8.encode right.revision))))

/-! ## Written versions -/

theorem compare?_eq_some_iff {left right : String} {ordering : Ordering} :
    compare? left right = some ordering ↔
      ∃ v w, parse? left = some v ∧ parse? right = some w ∧ order v w = ordering := by
  cases hleft : parse? left with
  | none => simp [compare?, hleft]
  | some v =>
    cases hright : parse? right with
    | none => simp [compare?, hleft, hright]
    | some w => simp [compare?, hleft, hright]

theorem compare?_eq_none_iff {left right : String} :
    compare? left right = none ↔ parse? left = none ∨ parse? right = none := by
  cases hleft : parse? left with
  | none => simp [compare?, hleft]
  | some v =>
    cases hright : parse? right with
    | none => simp [compare?, hleft, hright]
    | some w => simp [compare?, hleft, hright]

theorem compare?_self {text : String} (h : (parse? text).isSome) : compare? text text = some .eq := by
  obtain ⟨v, hv⟩ := Option.isSome_iff_exists.mp h
  exact compare?_eq_some_iff.mpr ⟨v, v, hv, hv, ReflCmp.compare_self⟩

theorem compare?_swap (left right : String) :
    compare? right left = (compare? left right).map Ordering.swap := by
  cases h : compare? left right with
  | none => exact compare?_eq_none_iff.mpr (compare?_eq_none_iff.mp h).symm
  | some ordering =>
    obtain ⟨v, w, hv, hw, rfl⟩ := compare?_eq_some_iff.mp h
    exact compare?_eq_some_iff.mpr ⟨w, v, hw, hv, OrientedCmp.eq_swap⟩

theorem compare?_self_ne_gt (text : String) : compare? text text ≠ some .gt := by
  intro hgt
  have hswap := compare?_swap text text
  rw [hgt] at hswap
  cases hswap

/-- Steps that do not descend add up to one that does not descend, and it ascends if one of them does. -/
theorem compare?_trans {a b c : String} {first second : Ordering} (hab : compare? a b = some first)
    (hbc : compare? b c = some second) (hfirst : first.isLE) (hsecond : second.isLE) :
    ∃ whole, compare? a c = some whole ∧ whole.isLE ∧ (first = .lt ∨ second = .lt → whole = .lt) := by
  obtain ⟨u, v, hu, hv, rfl⟩ := compare?_eq_some_iff.mp hab
  obtain ⟨v', w, hv', hw, rfl⟩ := compare?_eq_some_iff.mp hbc
  obtain rfl : v = v' := Option.some.inj (hv.symm.trans hv')
  refine ⟨order u w, compare?_eq_some_iff.mpr ⟨u, w, hu, hw, rfl⟩, TransCmp.isLE_trans hfirst hsecond, ?_⟩
  rintro (hlt | hlt)
  · exact TransCmp.lt_of_lt_of_isLE hlt hsecond
  · exact TransCmp.lt_of_isLE_of_lt hfirst hlt

/-- Versions that are equal in the order compare alike with every text, be it a version or not. -/
theorem compare?_congr {a b : String} (h : compare? a b = some .eq) (c : String) :
    compare? a c = compare? b c ∧ compare? c a = compare? c b := by
  obtain ⟨v, w, hv, hw, heq⟩ := compare?_eq_some_iff.mp h
  have hleft : compare? a c = compare? b c := by
    cases hc : parse? c with
    | none => rw [compare?_eq_none_iff.mpr (.inr hc), compare?_eq_none_iff.mpr (.inr hc)]
    | some x =>
      rw [compare?_eq_some_iff.mpr ⟨v, x, hv, hc, TransCmp.congr_left heq⟩]
      exact (compare?_eq_some_iff.mpr ⟨w, x, hw, hc, rfl⟩).symm
  exact ⟨hleft, by rw [compare?_swap a, compare?_swap b, hleft]⟩

/-- On the texts that can be read as versions, `compare?` is a total preorder, and it tells nothing exactly
of the other texts. Being equal is an equivalence that the order respects. -/
theorem compare?_totalPreorder (a b c : String) :
    (compare? a b = none ↔ parse? a = none ∨ parse? b = none) ∧
    (compare? a b = none ↔ compare? b a = none) ∧
    ((parse? a).isSome → compare? a a = some .eq) ∧
    compare? b a = (compare? a b).map Ordering.swap ∧
    (∀ first second, compare? a b = some first → compare? b c = some second →
      first.isLE → second.isLE →
      ∃ whole, compare? a c = some whole ∧ whole.isLE ∧
        (first = .lt ∨ second = .lt → whole = .lt)) ∧
    (compare? a b = some .eq → compare? a c = compare? b c ∧ compare? c a = compare? c b) := by
  refine ⟨compare?_eq_none_iff, ?_, compare?_self, compare?_swap a b, ?_, fun h => compare?_congr h c⟩
  · rw [compare?_eq_none_iff, compare?_eq_none_iff]
    exact or_comm
  · intro first second hab hbc hfirst hsecond
    exact compare?_trans hab hbc hfirst hsecond

example : compare? "1.0" "1.00" = some .eq ∧ compare? "1.0~rc1" "1.00" = some .lt :=
  ⟨by cbv, by cbv⟩

end UpdatePosture.Version
