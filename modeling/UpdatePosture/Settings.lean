import UpdatePosture.Apt.Requests
import UpdatePosture.Release
import UpdatePosture.Subscription.Document

/-!
# Settings

The settings of a run. The series is the one that is asked for, unless that is blank; then it is the one
that the release file names.
-/

namespace UpdatePosture

structure Settings where
  series : String
  /-- How many packages are asked about at a time. -/
  chunkSize : Nat
  /-- How long a list may take, in milliseconds. -/
  listTimeout : Nat
  /-- How long the subscription may take, in milliseconds. -/
  statusTimeout : Nat
  deriving DecidableEq, Repr, Inhabited

namespace Settings

def ofSeries (series : String) : Settings where
  series := series
  chunkSize := Apt.defaultChunkSize
  listTimeout := Apt.listTimeout
  statusTimeout := Subscription.statusTimeout

/-- The series that is asked for, without white space around it, if it is not blank. -/
def explicit? (series : Option String) : Option String := do
  let series := Text.trim (← series).toList
  if series.isEmpty then none else some (String.ofList series)

/-- The settings for the series that is asked for, or else for the one that the file names. -/
def resolve (series : Option String) (file : ReleaseFile) : Except Failure Settings :=
  match explicit? series with
  | some series => .ok (ofSeries series)
  | none => do return ofSeries (← (← file.load).requireSeries)

/-- What is logged on the way to the settings. -/
def resolveLog (series : Option String) (file : ReleaseFile) : List LogEvent :=
  match explicit? series with
  | some _ => []
  | none => file.log

end Settings

end UpdatePosture
