import UpdatePosture.Failure

/-!
# The log

What a run says about itself beside its result. Nothing that the program does depends on it. It is collected in the
order in which it comes up, and whoever runs the program decides how much of it is shown.
-/

namespace UpdatePosture

inductive LogLevel where
  | warn
  | debug
  | trace
  deriving DecidableEq, Repr

namespace LogLevel

def name : LogLevel → String
  | warn => "WARN"
  | debug => "DEBUG"
  | trace => "TRACE"

/-- Whether events of this level are shown unless it is said otherwise. -/
def isShown (verbose : Bool) : LogLevel → Bool
  | warn => true
  | debug => verbose
  | trace => false

end LogLevel

inductive LogEvent where
  | releaseRead (path : String) (series : Option String)
  | resolved (series : String)
  | subscriptionRead (attached : Bool) (entitled enabled : Nat)
  /-- A version table has a version at a location that the table of package files does not list. -/
  | fileMissing (package location : String)
  | detailsFailed (failure : Failure)
  | packagesRead (packages files : Nat)
  | classified (package component : String)
  | unordered (package version installed : String)
  | scanFinished (services updates : Nat)
  | reportBuilt (installed upgradable : Nat) (attached : Bool)
  | containersMissing (failure : Failure)
  | manifestBuilt (lines containers : Nat)
  deriving DecidableEq, Repr

namespace LogEvent

def level : LogEvent → LogLevel
  | fileMissing _ _ | detailsFailed _ => .warn
  | classified _ _ => .trace
  | _ => .debug

def message : LogEvent → String
  | releaseRead _ _ => "read release info"
  | resolved _ => "resolved configuration"
  | subscriptionRead _ _ _ => "read subscription status"
  | fileMissing _ _ => "package file missing from apt policy"
  | detailsFailed _ => "apt-cache show failed; download sizes unknown"
  | packagesRead _ _ => "read installed packages from apt"
  | classified _ _ => "classified by archive component"
  | unordered _ _ _ => "skipping version that cannot be ordered"
  | scanFinished _ _ => "security update scan finished"
  | reportBuilt _ _ _ => "built security status report"
  | containersMissing _ => "snap is not installed"
  | manifestBuilt _ _ => "built package manifest"

end LogEvent

/-- Shows the log. -/
structure Logger where
  /-- What is set to be shown. If nothing is, the level of an event decides. -/
  chosen? : Option (LogEvent → Bool)
  /-- An event as a line, given the number of lines above it. -/
  line : Nat → LogEvent → String

namespace Logger

def shows (logger : Logger) (verbose : Bool) (event : LogEvent) : Bool :=
  match logger.chosen? with
  | some chosen => chosen event
  | none => event.level.isShown verbose

/-- The lines of the events that are shown. -/
def text (logger : Logger) (verbose : Bool) (events : List LogEvent) : String :=
  String.join ((events.filter (logger.shows verbose)).zipIdx.map fun (event, above) =>
    logger.line above event ++ "\n")

/-- Shows an event by its level and its message. -/
def plain : Logger := ⟨none, fun _ event => event.level.name ++ " " ++ event.message⟩

end Logger

/-- A value, with what was logged on the way to it. -/
@[ext]
structure Logged (α : Type) where
  value : α
  log : List LogEvent
  deriving Repr

namespace Logged

instance : Monad Logged where
  pure value := ⟨value, []⟩
  bind logged next := ⟨(next logged.value).value, logged.log ++ (next logged.value).log⟩

instance : LawfulMonad Logged :=
  .mk' Logged (fun logged => Logged.ext rfl (List.append_nil _)) (fun _ _ => rfl)
    (fun _ _ _ => Logged.ext rfl (List.append_assoc ..))

end Logged

end UpdatePosture
