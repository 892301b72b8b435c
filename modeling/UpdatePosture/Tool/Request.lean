import UpdatePosture.Failure

/-!
# Requests to run a tool

A request names a program with its arguments and environment, the time it may take, and on whose behalf it
runs. A request is fit when the operating system can be handed it as it is.
-/

namespace UpdatePosture

structure Request where
  program : String
  args : List String
  /-- What is added to the environment; no key occurs twice. -/
  env : List (String × String)
  source : Source
  action : Action
  /-- In milliseconds. -/
  timeout : Option Nat
  deriving DecidableEq, Repr, Inhabited

namespace Request

/-- The request with a variable set in its environment. -/
def setEnv (request : Request) (key value : String) : Request :=
  { request with env := request.env.filter (·.1 != key) ++ [(key, value)] }

/-- The request with another limit, if one is given. -/
def limited (request : Request) (timeout : Option Nat) : Request :=
  { request with timeout := timeout <|> request.timeout }

/-- Whether a text holds the character that ends texts in the operating system. -/
def hasNul (text : String) : Bool :=
  text.toList.contains '\x00'

/-- The first thing that makes a request unfit. -/
def problem? (request : Request) : Option RequestProblem :=
  if request.program = "" then some .emptyProgram
  else if request.args.any fun arg => arg == "" || hasNul arg then some .unfitArgument
  else if request.env.any fun (key, value) => key == "" || hasNul key || hasNul value then
    some .unfitEnvironment
  else if request.timeout = some 0 then some .zeroTimeout
  else none

/-- A failure of this request. -/
def failure (request : Request) (cause : Cause) : Failure :=
  ⟨request.source, request.action, cause⟩

/-- Refuses an unfit request. -/
def validate (request : Request) : Except Failure Unit :=
  match request.problem? with
  | some problem => .error (request.failure (.unfitRequest problem))
  | none => .ok ()

end Request

end UpdatePosture
