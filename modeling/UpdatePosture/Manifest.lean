import UpdatePosture.Dialogue
import UpdatePosture.Json.Writer
import UpdatePosture.Package

/-!
# The package manifest

The manifest lists everything that is installed, one name and version a line with a tab between them: first
the packages of the package database, then the container packages.
-/

namespace UpdatePosture

structure Manifest where
  data : String
  deriving DecidableEq, Repr

namespace Manifest

/-- The manifest of these lines and container packages. -/
def build (lines : List String) (containers : List ContainerPackage) : Manifest :=
  let containerLines := containers.map fun container => container.name ++ "\t" ++ container.version
  ⟨String.join ((lines ++ containerLines).map (· ++ "\n"))⟩

/-- The manifest of what two dialogues list, the packages first. -/
def ask {Q : Type} (lines : Dialogue Q (List String)) (containers : Dialogue Q (List ContainerPackage)) :
    Dialogue Q Manifest := do
  let lines ← lines
  let containers ← containers
  Dialogue.log [.manifestBuilt lines.length containers.length]
  return build lines containers

/-- The manifest in JSON, on one line without its end. -/
def jsonLine (manifest : Manifest) : String :=
  (Json.record [("manifest_data", .ofString manifest.data)]).render

end Manifest

end UpdatePosture
