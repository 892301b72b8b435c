import UpdatePosture.Text.Cut

/-!
# Numerals

The three spellings of integers that the readers accept. All are ASCII decimal digits without blanks or
separators; they differ in the sign and in the range.
-/

namespace UpdatePosture.Text

/-- The first number that needs more than 64 bits. -/
def wordBound : Nat := 0x10000000000000000

/-- A non-empty run of ASCII digits, without a sign. -/
def digits? (text : List Char) : Option Nat :=
  if !text.isEmpty && text.all Char.isDigit then some (Nat.ofDigitChars 10 text 0) else none

/-- A run of digits whose value fits into 64 bits. -/
def word? (text : List Char) : Option Nat :=
  (digits? text).filter (· < wordBound)

/-- A word that may have one plus sign. -/
def size? : List Char → Option Nat
  | '+' :: rest => word? rest
  | text => word? text

/-- The first number that needs more than 31 bits. -/
def priorityBound : Nat := 0x80000000

/-- A number with an optional sign that fits into 32 bits in two's complement. -/
def priority? : List Char → Option Int
  | '-' :: rest => ((digits? rest).filter (· ≤ priorityBound)).map fun n => -(n : Int)
  | '+' :: rest => ((digits? rest).filter (· < priorityBound)).map fun n => (n : Int)
  | text => ((digits? text).filter (· < priorityBound)).map fun n => (n : Int)

example : digits? "007".toList = some 7 ∧ digits? [] = none ∧ digits? "1 ".toList = none := by decide
example : size? "+5".toList = some 5 ∧ size? "++5".toList = none ∧ size? "-0".toList = none := by decide
example : word? "18446744073709551615".toList = some (2 ^ 64 - 1) := by decide
example : word? "18446744073709551616".toList = none := by decide
example : priority? "-2147483648".toList = some (-(2 ^ 31)) := by decide
example : priority? "2147483648".toList = none ∧ priority? "-".toList = none := by decide

end UpdatePosture.Text
