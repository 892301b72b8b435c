import UpdatePosture.Text.Utf8

/-!
# Failures

A failure names the collaborator that was being asked, what it was asked for, and the cause. The cause
decides the kind of the failure and its message; both wordings are fixed here and nowhere else.
-/

namespace UpdatePosture

/-- The collaborators that answers come from. -/
inductive Source where
  | apt
  | dpkg
  | snap
  | pro
  | release
  deriving DecidableEq, Repr, Inhabited

/-- What a collaborator is asked for. -/
inductive Action where
  | listInstalled
  | listVersions
  | listManifest
  | listContainerPackages
  | readSubscription
  | detectRelease
  deriving DecidableEq, Repr, Inhabited

inductive FailureKind where
  | unavailable
  | invalidInput
  | parseFailure
  | timeout
  | processFailure
  | internal
  deriving DecidableEq, Repr, Inhabited

namespace FailureKind

def name : FailureKind → String
  | unavailable => "Unavailable"
  | invalidInput => "InvalidInput"
  | parseFailure => "ParseFailure"
  | timeout => "Timeout"
  | processFailure => "ProcessFailure"
  | internal => "Internal"

end FailureKind

/-- What the operating system says when a file cannot be opened or run. -/
structure SystemError where
  /-- Whether it says that there is no such file. -/
  missing : Bool
  message : String
  deriving DecidableEq, Repr, Inhabited

/-- What makes a request unfit to be carried out. -/
inductive RequestProblem where
  | emptyProgram
  | unfitArgument
  | unfitEnvironment
  | zeroTimeout
  deriving DecidableEq, Repr, Inhabited

def RequestProblem.message : RequestProblem → String
  | emptyProgram => "program is empty"
  | unfitArgument => "arguments must be non-empty and free of NUL bytes"
  | unfitEnvironment => "environment entries need a key and must be free of NUL bytes"
  | zeroTimeout => "timeout must be non-zero"

/-- The output streams of a tool. -/
inductive Stream where
  | stdout
  | stderr
  deriving DecidableEq, Repr, Inhabited

def Stream.name : Stream → String
  | stdout => "stdout"
  | stderr => "stderr"

/-- The time in milliseconds that a stream may stay open once the tool has ended. -/
def drainWindow : Nat := 250

/-- Why a file is of no use. -/
inductive ReadProblem where
  | system (error : SystemError)
  | notUtf8
  deriving DecidableEq, Repr, Inhabited

def ReadProblem.message : ReadProblem → String
  | system error => error.message
  | notUtf8 => "stream did not contain valid UTF-8"

inductive Cause where
  /-- The collaborator failed in its own words. -/
  | reported (kind : FailureKind) (message : String)
  | unfitRequest (problem : RequestProblem)
  | notStarted (program : String) (error : SystemError)
  /-- The tool had not ended when its time, in milliseconds, was up. -/
  | noExit (limit : Nat)
  | waitFailed (reason : String)
  | readFailed (stream : Stream) (reason : String)
  | stillOpen (stream : Stream)
  | exited (code : Int) (complaint : String)
  | terminated
  | outputNotUtf8 (flaw : Text.Utf8.Flaw)
  /-- The reader of the status document says what is wrong with it. -/
  | unreadableSubscription (reason : String)
  | unreadableRelease (path : String) (problem : ReadProblem)
  | noCodename
  deriving DecidableEq, Repr, Inhabited

namespace Cause

def kind : Cause → FailureKind
  | reported kind _ => kind
  | unfitRequest _ => .invalidInput
  | notStarted _ error => if error.missing then .unavailable else .processFailure
  | noExit _ | stillOpen _ => .timeout
  | waitFailed _ | readFailed _ _ | exited _ _ | terminated => .processFailure
  | outputNotUtf8 _ | unreadableSubscription _ => .parseFailure
  | unreadableRelease _ _ | noCodename => .unavailable

def message : Cause → String
  | reported _ message => message
  | unfitRequest problem => problem.message
  | notStarted program error => s!"could not start {program}: {error.message}"
  | noExit limit => s!"no exit after {limit}ms; process group killed"
  | waitFailed reason => s!"waiting for process failed: {reason}"
  | readFailed stream reason => s!"reading {stream.name} failed: {reason}"
  | stillOpen stream =>
      s!"{stream.name} still open {drainWindow}ms after exit; output may be incomplete"
  | exited code complaint => s!"process exited with code {code}: {complaint}"
  | terminated => "process was terminated by signal"
  | outputNotUtf8 flaw => s!"process stdout is not valid UTF-8: {flaw.message}"
  | unreadableSubscription reason => s!"invalid pro status JSON: {reason}"
  | unreadableRelease path problem => s!"failed to read {path}: {problem.message}"
  | noCodename => "os-release does not name a release codename"

end Cause

structure Failure where
  source : Source
  action : Action
  cause : Cause
  deriving DecidableEq, Repr, Inhabited

namespace Failure

def kind (failure : Failure) : FailureKind := failure.cause.kind

def message (failure : Failure) : String := failure.cause.message

/-- The kind and the message on one line. -/
def display (failure : Failure) : String := s!"{failure.kind.name}: {failure.message}"

end Failure

end UpdatePosture
