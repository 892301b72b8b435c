import UpdatePosture.Text.Blank

/-!
# Cutting text

Texts are read as lists of characters. This module holds the cuts that the readers share: trimming,
the parts before and after a separator, the rest after a fixed start, and words.
-/

namespace UpdatePosture.Text

/-- The text without the white space it starts with. -/
def trimStart (text : List Char) : List Char :=
  text.dropWhile isBlank

/-- The text without the white space it ends with. -/
def trimEnd (text : List Char) : List Char :=
  (text.reverse.dropWhile isBlank).reverse

/-- The text without white space at either end. -/
def trim (text : List Char) : List Char :=
  trimEnd (trimStart text)

/-- Whether nothing but white space is there. -/
def isBlankText (text : List Char) : Bool :=
  text.all isBlank

/-- What stands before and after the first character that `separates`. -/
def cutFirst? (separates : Char → Bool) (text : List Char) : Option (List Char × List Char) :=
  match text.dropWhile (fun c => !separates c) with
  | [] => none
  | _ :: after => some (text.takeWhile (fun c => !separates c), after)

/-- What stands before and after the last character that `separates`. -/
def cutLast? (separates : Char → Bool) (text : List Char) : Option (List Char × List Char) :=
  (cutFirst? separates text.reverse).map fun (after, before) => (before.reverse, after.reverse)

/-- What follows the characters `start`, if the text starts with them. -/
def dropStart? : List Char → List Char → Option (List Char)
  | [], text => some text
  | _ :: _, [] => none
  | c :: start, d :: text => if c = d then dropStart? start text else none

/-- What follows `start`, if the text starts with it. -/
def after? (start : String) (text : List Char) : Option (List Char) :=
  dropStart? start.toList text

/-- Whether the text starts with `start`. -/
def startsWith (start : String) (text : List Char) : Bool :=
  (after? start text).isSome

/-- The text without the characters `c` that it ends with. -/
def dropTrailing (c : Char) (text : List Char) : List Char :=
  (text.reverse.dropWhile (· == c)).reverse

/-- The runs of characters between white space. -/
def words (text : List Char) : List (List Char) :=
  (text.splitOnP isBlank).filter fun word => !word.isEmpty

/-- The text between a pair of `quote`s, if it starts with one and then ends with another. -/
def between? (quote : Char) : List Char → Option (List Char)
  | [] => none
  | c :: rest => if c = quote ∧ rest.getLast? = some quote then some rest.dropLast else none

theorem dropStart?_eq_some_iff {start text rest : List Char} :
    dropStart? start text = some rest ↔ text = start ++ rest := by
  fun_induction dropStart? start text with
  | case1 text => simp
  | case2 c start => simp
  | case3 start d text ih => simp [ih]
  | case4 c start d text h => simp [Ne.symm h]

theorem after?_eq_some_iff {start : String} {text rest : List Char} :
    after? start text = some rest ↔ text = start.toList ++ rest :=
  dropStart?_eq_some_iff

example : trim " a b\t".toList = "a b".toList := by decide
example : cutFirst? (· == ':') "1:2:3".toList = some ("1".toList, "2:3".toList) := by decide
example : cutLast? (· == '-') "1-2-3".toList = some ("1-2".toList, "3".toList) := by decide
example : words " a  b ".toList = ["a".toList, "b".toList] := by decide
example : between? '"' "\"a\"".toList = some "a".toList ∧ between? '"' ['"'] = none := by decide

end UpdatePosture.Text
