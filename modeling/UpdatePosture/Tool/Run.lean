import UpdatePosture.Dialogue
import UpdatePosture.Text.Cut
import UpdatePosture.Tool.Request

/-!
# Running a tool

What becomes of a request, and what the program takes from it: the standard output of a tool that ended with
code zero, if it is text. Whoever carries out requests says itself what is wrong if a tool could not be started or
awaited; everything else that is wrong is a failure of the request.
-/

namespace UpdatePosture

inductive ExitStatus where
  | exited (code : Int)
  /-- Killed by a signal. -/
  | terminated
  deriving DecidableEq, Repr, Inhabited

structure ToolOutput where
  status : ExitStatus
  stdout : List UInt8
  stderr : List UInt8
  deriving DecidableEq, Repr, Inhabited

/-- What becomes of a request that is handed over. -/
inductive Run where
  | notStarted (failure : Failure)
  | notAwaited (failure : Failure)
  | finished (output : ToolOutput)
  deriving DecidableEq, Repr

namespace ToolOutput

/-- The text on standard output, or what is wrong. -/
def text (output : ToolOutput) : Except Cause String :=
  match output.status with
  | .exited 0 => (Text.Utf8.decode output.stdout).mapError .outputNotUtf8
  | .exited code =>
      let complaint := Text.trim (Text.Utf8.decodeLossy output.stderr).toList
      .error (.exited code (String.ofList complaint))
  | .terminated => .error .terminated

end ToolOutput

/-- The text that a run of a request yields, or what is wrong. -/
def Request.textOf (request : Request) : Run → Except Failure String
  | .notStarted failure | .notAwaited failure => .error failure
  | .finished output => output.text.mapError request.failure

/-- Carries out requests; it sees the requests before the one at hand. -/
abbrev Executor := Dialogue.Responder Request Run

/-- The failures of an executor name what was asked for, and of whom. -/
def Executor.Tags (execute : Executor) : Prop :=
  ∀ earlier request failure,
    execute earlier request = .notStarted failure ∨ execute earlier request = .notAwaited failure →
      failure.source = request.source ∧ failure.action = request.action

/-- Hands a request over if it is fit, and takes the text that its run yields. -/
def Request.perform (execute : Executor) (request : Request) : Dialogue Request String := do
  match request.problem? with
  | some problem => throw (request.failure (.unfitRequest problem))
  | none => Dialogue.ask (fun earlier fit => fit.textOf (execute earlier fit)) request

end UpdatePosture
