import UpdatePosture.Tool.Run

/-!
# Endpoints

The questions that tools are asked, told apart by program and arguments, and executors that answer from
recorded runs instead of starting anything.
-/

namespace UpdatePosture

inductive Endpoint where
  | installed
  | packageFiles
  | policy
  | details
  | containers
  | subscription
  deriving DecidableEq, Repr

namespace Endpoint

def all : List Endpoint := [installed, packageFiles, policy, details, containers, subscription]

/-- The program that answers. -/
def program : Endpoint → String
  | installed => "dpkg-query"
  | packageFiles | policy | details => "apt-cache"
  | containers => "snap"
  | subscription => "pro"

end Endpoint

/-- What a request asks. -/
def Request.endpoint? (request : Request) : Option Endpoint :=
  match request.program, request.args with
  | "dpkg-query", _ => some .installed
  | "apt-cache", ["policy"] => some .packageFiles
  | "apt-cache", "policy" :: _ => some .policy
  | "apt-cache", "show" :: _ => some .details
  | "snap", _ => some .containers
  | "pro", _ => some .subscription
  | _, _ => none

/-- What is recorded of a run; of a run that came to nothing, the cause. -/
inductive Recorded where
  | notStarted (cause : Cause)
  | notAwaited (cause : Cause)
  | finished (output : ToolOutput)
  deriving DecidableEq, Repr

namespace Recorded

/-- The run of a tool that says nothing and succeeds. -/
def silent : Recorded := .finished ⟨.exited 0, [], []⟩

/-- The recorded run as one of a request. -/
def run (request : Request) : Recorded → Run
  | notStarted cause => .notStarted (request.failure cause)
  | notAwaited cause => .notAwaited (request.failure cause)
  | finished output => .finished output

end Recorded

/-- The runs that each endpoint is going to answer with. -/
abbrev Recording := Endpoint → List Recorded

namespace Recording

/-- Answers from the recorded runs; the last run of an endpoint is repeated. -/
def executor (recording : Recording) : Executor := fun earlier request =>
  (Dialogue.scripted Request.endpoint? (fun endpoint => endpoint.elim [] recording) .silent earlier request).run
    request

theorem tags_executor (recording : Recording) : recording.executor.Tags := by
  intro earlier request failure h
  unfold executor at h
  cases hrecorded : Dialogue.scripted Request.endpoint? (fun endpoint => endpoint.elim [] recording) .silent earlier
      request <;> rw [hrecorded] at h <;> rcases h with h | h <;> cases h <;> exact ⟨rfl, rfl⟩

/-- The recording with other runs for some endpoints. -/
def replaced (recording : Recording) (runs : List (Endpoint × List Recorded)) : Recording := fun endpoint =>
  (runs.lookup endpoint).getD (recording endpoint)

end Recording

end UpdatePosture
