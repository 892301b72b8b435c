import UpdatePosture.Log
import UpdatePosture.Text.Lines

/-!
# The release file

The file that describes the installed release holds assignments, one a line. Blank lines and comments do not
count, a value may stand in quotes, and an empty value is no value. Of several assignments to a key the last
counts.
-/

namespace UpdatePosture

open Text

/-- The value without one pair of matching quotes around it. -/
def unquote (value : List Char) : List Char :=
  (between? '"' value <|> between? '\'' value).getD value

structure ReleaseInfo where
  id : Option String
  versionId : Option String
  versionCodename : Option String
  ubuntuCodename : Option String
  deriving DecidableEq, Repr, Inhabited

namespace ReleaseInfo

/-- Nothing is known. -/
def blank : ReleaseInfo := ⟨none, none, none, none⟩

/-- The key and the value that a line assigns. -/
def assignment? (line : List Char) : Option (String × String) := do
  let line := trim line
  if line.head? = some '#' then none
  let (key, value) ← cutFirst? (· == '=') line
  let value := unquote (trim value)
  if value.isEmpty then none else some (String.ofList (trim key), String.ofList value)

/-- Takes over an assignment. -/
def assign (info : ReleaseInfo) (key value : String) : ReleaseInfo :=
  if key = "ID" then { info with id := some value }
  else if key = "VERSION_ID" then { info with versionId := some value }
  else if key = "VERSION_CODENAME" then { info with versionCodename := some value }
  else if key = "UBUNTU_CODENAME" then { info with ubuntuCodename := some value }
  else info

/-- Takes over a line. -/
def addLine (info : ReleaseInfo) (line : List Char) : ReleaseInfo :=
  match assignment? line with
  | some (key, value) => info.assign key value
  | none => info

/-- What a release file says. -/
def read (text : String) : ReleaseInfo :=
  (lines text.toList).foldl addLine blank

/-- The name of the release series. -/
def series? (info : ReleaseInfo) : Option String :=
  info.versionCodename <|> info.ubuntuCodename

/-- A failure to learn of the release. -/
def failure (cause : Cause) : Failure := ⟨.release, .detectRelease, cause⟩

def requireSeries (info : ReleaseInfo) : Except Failure String :=
  match info.series? with
  | some series => .ok series
  | none => .error (failure .noCodename)

end ReleaseInfo

/-- A file as the operating system hands it out. -/
structure ReleaseFile where
  path : String
  content : Except SystemError (List UInt8)

namespace ReleaseFile

/-- What the file says. -/
def load (file : ReleaseFile) : Except Failure ReleaseInfo :=
  let refuse (problem : ReadProblem) : Except Failure ReleaseInfo :=
    .error (ReleaseInfo.failure (.unreadableRelease file.path problem))
  match file.content with
  | .error error => refuse (.system error)
  | .ok bytes =>
      match Utf8.decode bytes with
      | .error _ => refuse .notUtf8
      | .ok text => .ok (.read text)

/-- What is logged of a file: what it names, if it can be read. -/
def log (file : ReleaseFile) : List LogEvent :=
  match file.load with
  | .ok info => [.releaseRead file.path info.series?]
  | .error _ => []

end ReleaseFile

end UpdatePosture
