import UpdatePosture.Package
import UpdatePosture.Text.Lines
import UpdatePosture.Tool.Run

/-!
# Container packages

The list of container packages has a line of column titles, and then the name and the version in the first
two columns. A machine on which it cannot be had has no container packages.
-/

namespace UpdatePosture.Snap

open Text

/-- The package in a line. -/
def row? (line : List Char) : Option ContainerPackage :=
  match words line with
  | name :: version :: _ => some ⟨String.ofList name, String.ofList version⟩
  | _ => none

/-- The packages in a list. -/
def read (text : String) : List ContainerPackage :=
  ((lines text.toList).drop 1).filterMap row?

/-- The installed container packages, from a dialogue that yields the list. -/
def packages {Q : Type} (list : Dialogue Q String) : Dialogue Q (List ContainerPackage) :=
  tryCatch (read <$> list) fun failure =>
    if failure.kind = .unavailable then Dialogue.logging (fun _ => [.containersMissing failure]) (pure [])
    else throw failure

/-- How long the list may take, in milliseconds. -/
def listTimeout : Nat := 60000

def request : Request :=
  (Request.mk "snap" ["list"] [] .snap .listContainerPackages (some listTimeout)).setEnv "LC_ALL" "C"

/-- The list on the machine. -/
def list (execute : Executor) : Dialogue Request String :=
  request.perform execute

end UpdatePosture.Snap
