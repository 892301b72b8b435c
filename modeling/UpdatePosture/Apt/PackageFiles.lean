import UpdatePosture.Package
import UpdatePosture.Text.Lines
import UpdatePosture.Text.Numeral

/-!
# The table of package files

The table lists the package files that versions come from. A row with a priority and a location opens an
entry; a `release` row below it gives the label, the archive and the component, and an `origin` row the site.
The table ends at the pinned packages. Where a location is listed twice, the later entry counts.
-/

namespace UpdatePosture.Apt

open Text

/-- The location in a row that starts with a priority. -/
def location? (row : List Char) : Option String := do
  let (priority, location) ← cutFirst? (· == ' ') row
  let _ ← Text.priority? priority
  let location := trim location
  if location.isEmpty then none else some (String.ofList location)

/-- The origin with one field of a release row taken over. -/
def setField (origin : Origin) (field : List Char) : Origin :=
  match cutFirst? (· == '=') field with
  | some (['o'], value) => { origin with label := String.ofList value }
  | some (['a'], value) => { origin with archive := String.ofList value }
  | some (['c'], value) => { origin with component := String.ofList value }
  | _ => origin

/-- The origin with a row below its location taken over. -/
def describe (origin : Origin) (row : List Char) : Origin :=
  match after? "release " row with
  | some fields => (fields.splitOn ',').foldl setField origin
  | none =>
      match after? "origin " row with
      | some site => { origin with site := String.ofList (trim site) }
      | none => origin

/-- The entries of the table, latest first. -/
structure PackageFiles where
  entries : List (String × Origin)
  deriving DecidableEq, Repr

namespace PackageFiles

/-- Takes a row, without white space around it, into the entries above it. -/
def add (entries : List (String × Origin)) (row : List Char) : List (String × Origin) :=
  match location? row with
  | some location => (location, .blank) :: entries
  | none =>
      match entries with
      | [] => []
      | (location, origin) :: earlier => (location, describe origin row) :: earlier

/-- Whether a row ends the table. -/
def isEnd (row : List Char) : Bool :=
  startsWith "Pinned packages:" row

/-- Reads the table. -/
def read (text : String) : PackageFiles :=
  let rows := (lines text.toList).map trim
  ⟨(rows.takeWhile fun row => !isEnd row).foldl add []⟩

/-- The origin at a location. -/
def origin? (files : PackageFiles) (location : String) : Option Origin :=
  (files.entries.find? (·.1 == location)).map (·.2)

end PackageFiles

end UpdatePosture.Apt
