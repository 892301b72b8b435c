import UpdatePosture.Tool.Run

/-!
# Waiting for a tool

A tool that runs writes on two pipes and ends. Waiting for it is over when the tool has ended and both pipes
have been read to their end, or when something makes the output incomplete: the tool is not done when its
time is up, a pipe cannot be read, or a pipe is still held open by somebody else when the window for reading
it has passed. The window is opened for standard output when the tool ends, and for standard error when
standard output has been read. Incomplete output is never passed on.
-/

namespace UpdatePosture

inductive WaitEvent where
  | wrote (stream : Stream) (bytes : List UInt8)
  /-- The end of a pipe was read. -/
  | closed (stream : Stream)
  /-- A pipe could not be read. -/
  | broke (stream : Stream) (reason : String)
  | ended (status : ExitStatus)
  /-- The end of the tool could not be awaited. -/
  | lost (reason : String)
  /-- The time that the request allows is up. -/
  | limitReached
  /-- The window of the pipe that is being read after the end of the tool is over. -/
  | windowOver
  deriving DecidableEq, Repr

/-- What has been read of a pipe. -/
inductive Pipe where
  | reading (bytes : List UInt8)
  | complete (bytes : List UInt8)
  | broken (reason : String)
  deriving DecidableEq, Repr

namespace Pipe

def wrote (bytes : List UInt8) : Pipe → Pipe
  | reading before => reading (before ++ bytes)
  | pipe => pipe

def closed : Pipe → Pipe
  | reading bytes => complete bytes
  | pipe => pipe

def broke (reason : String) : Pipe → Pipe
  | reading _ => broken reason
  | pipe => pipe

end Pipe

/-- The two pipes of a tool. -/
structure Pipes where
  stdout : Pipe
  stderr : Pipe
  deriving DecidableEq, Repr

namespace Pipes

def fresh : Pipes := ⟨.reading [], .reading []⟩

def update (pipes : Pipes) (change : Pipe → Pipe) : Stream → Pipes
  | .stdout => { pipes with stdout := change pipes.stdout }
  | .stderr => { pipes with stderr := change pipes.stderr }

/-- What an event does to the pipes. -/
def after (pipes : Pipes) : WaitEvent → Pipes
  | .wrote stream bytes => pipes.update (.wrote bytes) stream
  | .closed stream => pipes.update .closed stream
  | .broke stream reason => pipes.update (.broke reason) stream
  | _ => pipes

/-- The pipe whose window is running once the tool has ended. -/
def awaited (pipes : Pipes) : Stream :=
  match pipes.stdout with
  | .reading _ => .stdout
  | _ => .stderr

end Pipes

inductive WaitState where
  | running (pipes : Pipes)
  /-- The tool has ended, and a pipe is still to be read. -/
  | draining (status : ExitStatus) (pipes : Pipes)
  | finished (result : Except Cause ToolOutput)

namespace WaitState

/-- The state once the tool has ended. -/
def settle (status : ExitStatus) (pipes : Pipes) : WaitState :=
  match pipes.stdout, pipes.stderr with
  | .broken reason, _ => finished (.error (.readFailed .stdout reason))
  | .complete _, .broken reason => finished (.error (.readFailed .stderr reason))
  | .complete stdout, .complete stderr => finished (.ok ⟨status, stdout, stderr⟩)
  | _, _ => draining status pipes

/-- Takes one event, under the limit of the request. -/
def step (limit : Option Nat) : WaitState → WaitEvent → WaitState
  | running _, .lost reason => finished (.error (.waitFailed reason))
  | running pipes, .limitReached =>
      match limit with
      | some limit => finished (.error (.noExit limit))
      | none => running pipes
  | running pipes, .ended status => settle status pipes
  | running pipes, event => running (pipes.after event)
  | draining _ pipes, .windowOver => finished (.error (.stillOpen pipes.awaited))
  | draining status pipes, event => settle status (pipes.after event)
  | finished result, _ => finished result

/-- The state that events lead to. -/
def afterEvents (limit : Option Nat) (events : List WaitEvent) : WaitState :=
  events.foldl (step limit) (running .fresh)

end WaitState

/-- The result of waiting, if the events bring it to an end. -/
def wait? (limit : Option Nat) (events : List WaitEvent) : Option (Except Cause ToolOutput) :=
  match WaitState.afterEvents limit events with
  | .finished result => some result
  | _ => none

/-- What comes of waiting for a request that was started, if the events bring it to an end. -/
def Request.await? (request : Request) (events : List WaitEvent) : Option (Except Failure ToolOutput) :=
  (wait? request.timeout events).map fun result => result.mapError request.failure

end UpdatePosture
