import Mathlib
import UpdatePosture.Apt.Policy
import UpdatePosture.Proofs.Text.Cut

/-!
# The format of version tables

How a package tool writes the version tables of some packages (`PolicyBlock.render`), what can be written that
way without ambiguity (`PolicyBlock.WellFormed`), and what is to be read from it (`PolicyBlock.entry`).
-/

namespace UpdatePosture.Apt

open Text

/-! ## The format -/

/-- A row of a version table, with the package files below it. -/
structure TableRow where
  version : String
  /-- Whether the row is marked as the installed version. -/
  flagged : Bool
  priority : Int32
  /-- A remark on how far an update is phased. -/
  remark : Option String
  /-- Priorities and locations. -/
  files : List (Int32 × String)
  deriving DecidableEq, Repr

/-- The table of a package. -/
structure PolicyBlock where
  name : String
  installed : Option String
  candidate : Option String
  rows : List TableRow
  deriving DecidableEq, Repr

namespace TableRow

def remarkText : Option String → String
  | some remark => " (" ++ remark ++ ")"
  | none => ""

def heading (row : TableRow) : String :=
  (if row.flagged then " *** " else "     ") ++ row.version ++ " " ++ toString row.priority.toInt ++
    remarkText row.remark

def fileLine (file : Int32 × String) : String :=
  "        " ++ toString file.1.toInt ++ " " ++ file.2

def lines (row : TableRow) : List String :=
  row.heading :: row.files.map fileLine

end TableRow

namespace PolicyBlock

def versionText : Option String → String
  | some version => version
  | none => "(none)"

/-- The lines below the header. -/
def body (block : PolicyBlock) : List String :=
  ["  Installed: " ++ versionText block.installed, "  Candidate: " ++ versionText block.candidate,
    "  Version table:"] ++ block.rows.flatMap TableRow.lines

def lines (block : PolicyBlock) : List String :=
  (block.name ++ ":") :: block.body

/-- The blocks, each line ended by a line feed. -/
def render (blocks : List PolicyBlock) : String :=
  String.join ((blocks.flatMap lines).map fun line => line ++ "\n")

end PolicyBlock

/-! ## What is written without ambiguity -/

/-- A remark may be any text on one line; a location must be one that trimming leaves as it is. -/
@[mk_iff]
structure TableRow.WellFormed (row : TableRow) : Prop where
  version_word : IsWord row.version
  version_digit : row.version.toList.head?.any Char.isDigit
  remark_line : ∀ remark ∈ row.remark, '\n' ∉ remark.toList
  location_ne : ∀ file ∈ row.files, file.2 ≠ ""
  location_trimmed : ∀ file ∈ row.files, trim file.2.toList = file.2.toList
  location_line : ∀ file ∈ row.files, '\n' ∉ file.2.toList

/-- A name must not end like a header does, and a version must not read as the word for none. -/
@[mk_iff]
structure PolicyBlock.WellFormed (block : PolicyBlock) : Prop where
  name_word : IsWord block.name
  name_colon : block.name.toList.getLast? ≠ some ':'
  installed_word : ∀ version ∈ block.installed, IsWord version ∧ version ≠ "(none)"
  candidate_word : ∀ version ∈ block.candidate, IsWord version ∧ version ≠ "(none)"
  rows : ∀ row ∈ block.rows, row.WellFormed

instance (row : TableRow) : Decidable row.WellFormed :=
  decidable_of_iff _ (TableRow.wellFormed_iff row).symm

instance (block : PolicyBlock) : Decidable block.WellFormed :=
  decidable_of_iff _ (PolicyBlock.wellFormed_iff block).symm

/-! ## What is to be read -/

/-- The origin at a location, if the location is the machine's own database or one of the package files. -/
def originAt? (files : PackageFiles) (location : String) : Option Origin :=
  if location = "/var/lib/dpkg/status" then some .localInstall else files.origin? location

def PolicyBlock.entry (files : PackageFiles) (block : PolicyBlock) : PolicyEntry where
  name := block.name
  installed := block.installed
  candidate := block.candidate
  versions := block.rows.map fun row => ⟨row.version, row.files.filterMap fun file => originAt? files file.2⟩

end UpdatePosture.Apt
