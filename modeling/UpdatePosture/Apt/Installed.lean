import UpdatePosture.Text.Lines

/-!
# The list of installed packages

The package database lists one package a line: its state, its name and its version, separated by tabs.
Only packages that are installed and are meant to be count, which the state `ii` says.
-/

namespace UpdatePosture.Apt

open Text

structure InstalledRow where
  name : String
  version : String
  deriving DecidableEq, Repr

/-- Reads a line; columns after the third do not matter. -/
def installedRow? (line : List Char) : Option InstalledRow :=
  match line.splitOn '\t' with
  | state :: name :: version :: _ =>
      if trim state = "ii".toList ∧ trim name ≠ [] ∧ trim version ≠ [] then
        some ⟨String.ofList (trim name), String.ofList (trim version)⟩
      else none
  | _ => none

/-- The installed packages, repetitions included. -/
def installedRows (text : String) : List InstalledRow :=
  (lines text.toList).filterMap installedRow?

/-- Keeps the first row of every name. -/
def firstRows : List InstalledRow → List InstalledRow
  | [] => []
  | row :: rows => row :: (firstRows rows).filter (·.name != row.name)

/-- The row as a line of a manifest. -/
def InstalledRow.manifestLine (row : InstalledRow) : String :=
  row.name ++ "\t" ++ row.version

end UpdatePosture.Apt
