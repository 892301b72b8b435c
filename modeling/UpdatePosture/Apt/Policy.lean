import UpdatePosture.Apt.PackageFiles
import UpdatePosture.Log

/-!
# The version tables of packages

A reply lists blocks, one a package. A line that does not start with white space opens a block and names its
package; the lines below give the installed version, the candidate and the version table. In the table a
row with a version stands at a small indent, or is flagged with three stars, and the rows below it name the
package files that have the version.
-/

namespace UpdatePosture.Apt

open Text

structure PolicyVersion where
  version : String
  origins : List Origin
  deriving DecidableEq, Repr

structure PolicyEntry where
  name : String
  installed : Option String
  candidate : Option String
  versions : List PolicyVersion
  deriving DecidableEq, Repr

/-- The location that stands for the machine's own package database. -/
def databaseLocation : String := "/var/lib/dpkg/status"

/-- A version behind a label; none if nothing is there or it is said that there is none. -/
def labelledVersion? (value : List Char) : Option String :=
  let value := trim value
  if value.isEmpty ∨ value = "(none)".toList then none else some (String.ofList value)

/-- The greatest indent, in bytes, of a row with a version that is not flagged. -/
def maxIndent : Nat := 5

/-- The width in bytes of the white space that a line starts with. -/
def indent (line : List Char) : Nat :=
  (String.ofList (line.takeWhile isBlank)).utf8ByteSize

/-- Whether a remark behind a priority is one in parentheses, or empty. -/
def isRemark (text : List Char) : Bool :=
  text.isEmpty || (text.head? == some '(' && text.getLast? == some ')')

/-- The version in a row of the form version, priority and remark. -/
def versionInRow? (row : List Char) : Option String := do
  let (version, rest) ← cutFirst? isBlank row
  let (priority, remark) :=
    match cutFirst? isBlank (trimStart rest) with
    | some (priority, remark) => (priority, trim remark)
    | none => (trim rest, [])
  let _ ← Text.priority? priority
  if isRemark remark then some (String.ofList version) else none

/-- The version in a line, if it is a row with a version. -/
def versionRow? (line : List Char) : Option String :=
  match after? "***" (trim line) with
  | some row => versionInRow? (trimStart row)
  | none => if indent line ≤ maxIndent then versionInRow? (trim line) else none

/-- What a line of a reply says. -/
inductive PolicyLine where
  | header (name : String)
  | installed (version : Option String)
  | candidate (version : Option String)
  | version (version : String)
  | file (location : String)
  /-- The heading of the table, or nothing that matters. -/
  | other
  deriving DecidableEq, Repr

namespace PolicyLine

/-- Reads a line that is not blank. -/
def read (line : List Char) : PolicyLine :=
  if line.head?.any isBlank then
    let row := trim line
    match after? "Installed:" row with
    | some value => installed (labelledVersion? value)
    | none =>
        match after? "Candidate:" row with
        | some value => candidate (labelledVersion? value)
        | none =>
            if startsWith "Version table:" row then other
            else
              match versionRow? line with
              | some found => version found
              | none => (location? row).elim other file
  else header (String.ofList (dropTrailing ':' (trim line)))

end PolicyLine

/-- The origin that a package file stands for. -/
def PackageFiles.resolve? (files : PackageFiles) (location : String) : Option Origin :=
  if location = databaseLocation then some .localInstall else files.origin? location

namespace PolicyEntry

/-- A block of which only the header has been read. -/
def opened (name : String) : PolicyEntry := ⟨name, none, none, []⟩

/-- Gives an origin to the version that is read last; versions are listed last first. -/
def addOrigin (origin : Origin) : List PolicyVersion → List PolicyVersion
  | [] => []
  | last :: earlier => { last with origins := last.origins ++ [origin] } :: earlier

/-- Takes a line below the header into a block, whose versions are listed last first. -/
def add (files : PackageFiles) (entry : PolicyEntry) : PolicyLine → PolicyEntry
  | .installed version => { entry with installed := version }
  | .candidate version => { entry with candidate := version }
  | .version version => { entry with versions := ⟨version, []⟩ :: entry.versions }
  | .file location =>
      match files.resolve? location with
      | some origin => { entry with versions := addOrigin origin entry.versions }
      | none => entry
  | .header _ | .other => entry

/-- The block with its versions in the order of the table. -/
def finished (entry : PolicyEntry) : PolicyEntry :=
  { entry with versions := entry.versions.reverse }

end PolicyEntry

/-- Takes a line into the blocks above it, which are listed last first. -/
def addPolicyLine (files : PackageFiles) (entries : List PolicyEntry) : PolicyLine → List PolicyEntry
  | .header name => .opened name :: entries
  | line =>
      match entries with
      | [] => []
      | entry :: earlier => entry.add files line :: earlier

/-- The lines of a reply that are not blank. -/
def textLines (text : String) : List (List Char) :=
  (lines text.toList).filter fun line => !isBlankText line

def policyLines (text : String) : List PolicyLine :=
  (textLines text).map PolicyLine.read

/-- The blocks of a reply, in their order. -/
def readPolicy (files : PackageFiles) (text : String) : List PolicyEntry :=
  (((policyLines text).foldl (addPolicyLine files) []).map .finished).reverse

/-- What is logged of a line below a header: a version is said to be at a location that is not listed. -/
def PolicyEntry.event? (files : PackageFiles) (entry : PolicyEntry) : PolicyLine → Option LogEvent
  | .file location =>
      if entry.versions.isEmpty || (files.resolve? location).isSome then none
      else some (.fileMissing entry.name location)
  | _ => none

/-- What is logged of lines below the blocks above them, which are listed last first. -/
def policyLogFrom (files : PackageFiles) (entries : List PolicyEntry) : List PolicyLine → List LogEvent
  | [] => []
  | line :: lines =>
      (entries.head?.bind fun entry => entry.event? files line).toList ++
        policyLogFrom files (addPolicyLine files entries line) lines

/-- What is logged of a reply. -/
def policyLog (files : PackageFiles) (text : String) : List LogEvent :=
  policyLogFrom files [] (policyLines text)

end UpdatePosture.Apt
