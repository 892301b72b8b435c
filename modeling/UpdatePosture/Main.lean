import UpdatePosture.Program
import UpdatePosture.Tool.Endpoint

/-!
# The command line program

Reads the command line, the environment and the release file, takes the answers of the tools from recorded
files, and leaves everything else to `Program.run`. The recordings are the files named after the endpoints
in the directory that `SECSTAT_RECORDINGS` names; an endpoint without a recording counts as not installed.
-/

namespace UpdatePosture.Program

def releasePath : String := "/etc/os-release"

def recordingName : Endpoint → String
  | .installed => "installed"
  | .packageFiles => "package_files"
  | .policy => "policy"
  | .details => "show"
  | .containers => "snap"
  | .subscription => "pro"

/-- What the operating system says, in the words of the runtime. -/
def systemError : IO.Error → SystemError
  | error@(.noFileOrDirectory _ _ _) => ⟨true, toString error⟩
  | error => ⟨false, toString error⟩

def readBytes (path : String) : IO (Except SystemError (List UInt8)) :=
  tryCatch (do return .ok (← IO.FS.readBinFile path).data.toList) fun error => return .error (systemError error)

/-- The run that a recording stands for. -/
def readRun (directory : String) (endpoint : Endpoint) : IO Recorded := do
  match ← readBytes (directory ++ "/" ++ recordingName endpoint) with
  | .ok bytes => return .finished ⟨.exited 0, bytes, []⟩
  | .error error => return .notStarted (.notStarted endpoint.program error)

/-- Runs the program on the words of its command line and yields its exit code. -/
def main (words : List String) : IO UInt32 := do
  let environment ← IO.getEnv "SECSTAT_SERIES"
  let directory := (← IO.getEnv "SECSTAT_RECORDINGS").getD "."
  let content ← readBytes releasePath
  let runs ← Endpoint.all.mapM fun endpoint => return (endpoint, [← readRun directory endpoint])
  let recording := Recording.replaced (fun _ => []) runs
  let parse := CommandLine.parser fun outcome => outcome.name ++ "\n"
  let (exit, _) := Program.run parse words environment
    ⟨⟨releasePath, content⟩, recording.executor, StatusDocument.plainReader, .plain⟩
  IO.print exit.stdout
  IO.eprint exit.stderr
  return exit.code.toUInt32

end UpdatePosture.Program

/-- The entry point. -/
def main (words : List String) : IO UInt32 :=
  UpdatePosture.Program.main words
