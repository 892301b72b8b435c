import Mathlib
import UpdatePosture.Proofs.Text.Cut
import UpdatePosture.Text.Numeral

/-!
# Written numbers

A number that is written in decimal is read as itself, and it is one word that starts with a digit or a sign.
-/

namespace UpdatePosture.Text

theorem digits?_toDigits (n : Nat) : digits? (Nat.toDigits 10 n) = some n := by
  have hempty : (Nat.toDigits 10 n).isEmpty = false := by simp
  have hall : (Nat.toDigits 10 n).all Char.isDigit :=
    List.all_eq_true.mpr fun c hc => Nat.isDigit_of_mem_toDigits (by decide) (by decide) hc
  rw [digits?, hempty, hall, Bool.not_false, Bool.true_and, if_pos rfl, Nat.ofDigitChars_ten_toDigits]

theorem digits?_eq_some_iff {text : List Char} {n : Nat} :
    digits? text = some n ↔ text ≠ [] ∧ (∀ c ∈ text, c.isDigit) ∧ Nat.ofDigitChars 10 text 0 = n := by
  unfold digits?
  split
  next h => simp_all
  next h => simp_all

theorem word?_eq_some_iff {text : List Char} {n : Nat} :
    word? text = some n ↔ digits? text = some n ∧ n < wordBound := by
  simp [word?, Option.filter_eq_some_iff]

theorem word?_toDigits {n : Nat} (h : n < wordBound) : word? (Nat.toDigits 10 n) = some n :=
  word?_eq_some_iff.mpr ⟨digits?_toDigits n, h⟩

/-- The digits of a number are told from what follows it, if that does not start with a digit. -/
theorem span_isDigit_toDigits (n : Nat) {rest : List Char} (h : ∀ c ∈ rest.head?, c.isDigit = false) :
    (Nat.toDigits 10 n ++ rest).takeWhile Char.isDigit = Nat.toDigits 10 n ∧
      (Nat.toDigits 10 n ++ rest).dropWhile Char.isDigit = rest := by
  have hdigits : ∀ c ∈ Nat.toDigits 10 n, c.isDigit := fun c hc =>
    Nat.isDigit_of_mem_toDigits (by decide) (by decide) hc
  rw [List.takeWhile_append_of_pos hdigits, List.dropWhile_append_of_pos hdigits]
  cases rest with
  | nil => exact ⟨List.append_nil _, rfl⟩
  | cons c rest =>
    have hc : ¬c.isDigit := by simp [h c rfl]
    rw [List.takeWhile_cons_of_neg hc, List.dropWhile_cons_of_neg hc, List.append_nil]
    exact ⟨rfl, rfl⟩

/-- The characters that an integer is written with. -/
def integerChars (n : Int) : List Char :=
  (toString n).toList

theorem integerChars_ofNat (n : Nat) : integerChars n = Nat.toDigits 10 n := by
  simp [integerChars, Int.repr_eq_if]

theorem integerChars_neg {n : Int} (h : n < 0) : integerChars n = '-' :: Nat.toDigits 10 n.natAbs := by
  have hneg : ¬0 ≤ n := by omega
  have habs : (-n).toNat = n.natAbs := by omega
  simp [integerChars, Int.repr_eq_if, hneg, habs]

/-- How an integer is written: with a sign if it is negative, and then in digits. -/
theorem integerChars_eq (n : Int) :
    (0 ≤ n ∧ integerChars n = Nat.toDigits 10 n.natAbs) ∨
      (n < 0 ∧ integerChars n = '-' :: Nat.toDigits 10 n.natAbs) := by
  rcases Int.lt_or_le n 0 with h | h
  · exact .inr ⟨h, integerChars_neg h⟩
  · obtain ⟨m, rfl⟩ := Int.eq_ofNat_of_zero_le h
    exact .inl ⟨h, integerChars_ofNat m⟩

theorem isDigit_or_eq_of_mem_integerChars {n : Int} {c : Char} (h : c ∈ integerChars n) :
    c.isDigit ∨ c = '-' := by
  rcases integerChars_eq n with ⟨-, heq⟩ | ⟨-, heq⟩
  · rw [heq] at h
    exact .inl (Nat.isDigit_of_mem_toDigits (by decide) (by decide) h)
  · rw [heq] at h
    rcases List.mem_cons.mp h with rfl | h
    · exact .inr rfl
    · exact .inl (Nat.isDigit_of_mem_toDigits (by decide) (by decide) h)

theorem isBlank_of_mem_integerChars {n : Int} {c : Char} (h : c ∈ integerChars n) : isBlank c = false := by
  rcases isDigit_or_eq_of_mem_integerChars h with hdigit | rfl
  · exact isBlank_of_isDigit hdigit
  · decide

theorem integerChars_ne_nil (n : Int) : integerChars n ≠ [] := by
  rcases integerChars_eq n with ⟨-, heq⟩ | ⟨-, heq⟩ <;> simp [heq]

theorem priority?_eq_digits? {c : Char} (hc : c.isDigit) (text : List Char) :
    priority? (c :: text) =
      ((digits? (c :: text)).filter (· < priorityBound)).map fun n => (n : Int) := by
  have hminus : c ≠ '-' := by rintro rfl; simp at hc
  have hplus : c ≠ '+' := by rintro rfl; simp at hc
  rw [priority?] <;> simp [hminus, hplus]

theorem priority?_integerChars (priority : Int32) :
    priority? (integerChars priority.toInt) = some priority.toInt := by
  have hlow := priority.le_toInt
  have hhigh := priority.toInt_lt
  rcases integerChars_eq priority.toInt with ⟨hsign, heq⟩ | ⟨hsign, heq⟩
  · rw [heq]
    cases hdigits : Nat.toDigits 10 priority.toInt.natAbs with
    | nil => simp at hdigits
    | cons c digits =>
      have hc : c.isDigit := by
        have hmem : c ∈ Nat.toDigits 10 priority.toInt.natAbs := by rw [hdigits]; exact List.mem_cons_self
        exact Nat.isDigit_of_mem_toDigits (by decide) (by decide) hmem
      rw [priority?_eq_digits? hc, ← hdigits, digits?_toDigits]
      have hbound : priority.toInt.natAbs < priorityBound := by unfold priorityBound; omega
      simp [Option.filter, hbound, abs_of_nonneg hsign]
  · rw [heq, priority?, digits?_toDigits]
    have hbound : priority.toInt.natAbs ≤ priorityBound := by unfold priorityBound; omega
    simp [Option.filter, hbound, abs_of_neg hsign]

end UpdatePosture.Text
