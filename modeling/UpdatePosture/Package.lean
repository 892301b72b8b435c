/-!
# Packages

What is known about an installed package: the version that is installed, every version that could be, and
for each of them where it comes from.
-/

namespace UpdatePosture

/-- Where a version of a package can be had. -/
structure Origin where
  /-- Who publishes it. -/
  label : String
  /-- The archive it is published in, such as `jammy-security`. -/
  archive : String
  component : String
  /-- The host it is served from. -/
  site : String
  deriving DecidableEq, Repr, Inhabited

/-- A package file that has told nothing about itself. -/
def Origin.blank : Origin := ⟨"", "", "", ""⟩

/-- The list of what is installed on the machine itself. -/
def Origin.localInstall : Origin := { Origin.blank with archive := "now" }

structure VersionRecord where
  version : String
  /-- In bytes; 0 when it is not known. -/
  downloadSize : Nat
  origins : List Origin
  deriving DecidableEq, Repr, Inhabited

structure InstalledPackage where
  name : String
  installed : VersionRecord
  available : List VersionRecord
  /-- The version that an upgrade would install. -/
  candidate : Option String
  deriving DecidableEq, Repr, Inhabited

namespace InstalledPackage

/-- The first available record of a version string. -/
def record? (package : InstalledPackage) (version : String) : Option VersionRecord :=
  package.available.find? (·.version == version)

/-- Whether an upgrade would change nothing. -/
def candidateIsInstalled (package : InstalledPackage) : Bool :=
  package.candidate.all (· == package.installed.version)

/-- The record of the candidate. -/
def candidateRecord? (package : InstalledPackage) : Option VersionRecord :=
  package.candidate.bind fun version =>
    if version = package.installed.version then some package.installed else package.record? version

end InstalledPackage

/-- A package of a container system, which has no origins. -/
structure ContainerPackage where
  name : String
  version : String
  deriving DecidableEq, Repr, Inhabited

end UpdatePosture
