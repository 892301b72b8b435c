import UpdatePosture.Text.Cut

/-!
# Lines

A line ends at a line feed; one carriage return right before that line feed belongs to the line end.
A last line without a line feed counts when it is not empty, and keeps a carriage return it ends with.
Main statement: the lines of a text whose first part ends with a line feed are the lines of its parts
(`lines_append_lineFeed`).
-/

namespace UpdatePosture.Text

/-- The line without one carriage return at its end. -/
def dropReturn (line : List Char) : List Char :=
  if line.getLast? = some '\r' then line.dropLast else line

/-- Of the texts between line feeds, all but the last are lines, and the last is one if not empty. -/
def linesOfPieces : List (List Char) → List (List Char)
  | [] => []
  | [last] => if last.isEmpty then [] else [last]
  | line :: next :: more => dropReturn line :: linesOfPieces (next :: more)

/-- The lines of a text, without their ends. -/
def lines (text : List Char) : List (List Char) :=
  linesOfPieces (text.splitOn '\n')

theorem linesOfPieces_append {before after : List (List Char)} (h : after ≠ []) :
    linesOfPieces (before ++ after) = before.map dropReturn ++ linesOfPieces after := by
  induction before with
  | nil => rfl
  | cons line more ih =>
      cases hrest : more ++ after with
      | nil => simp [List.append_eq_nil_iff, h] at hrest
      | cons next others => simp [linesOfPieces, hrest, ← ih]

theorem lines_append_lineFeed (first second : List Char) :
    lines (first ++ '\n' :: second) = (first.splitOn '\n').map dropReturn ++ lines second := by
  rw [lines, List.splitOn_append_cons_self, linesOfPieces_append (List.splitOn_ne_nil _ _), lines]

example : lines "a\r\nb\n\nc".toList = ["a".toList, "b".toList, [], "c".toList] := by decide
example : lines "a\r".toList = ["a\r".toList] ∧ lines "\n".toList = [[]] ∧ lines [] = [] := by decide

end UpdatePosture.Text
