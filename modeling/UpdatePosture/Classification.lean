import UpdatePosture.Log
import UpdatePosture.OriginTable

/-!
# Classification of installed packages

A package has no origin, its versions do. The installed version speaks for the package unless the only
thing known about it is one origin, in most cases that it is installed: then the candidate speaks for it.
Of the origins that are examined, the first that decides gives the bucket.
-/

namespace UpdatePosture.OriginTable

/-- The origins that decide where a package belongs; `none` when nothing tells it. -/
def examined? (package : InstalledPackage) : Option (List Origin) :=
  if package.installed.origins.length = 1 then
    if package.candidateIsInstalled then none else package.candidateRecord?.map (·.origins)
  else some package.installed.origins

/-- The bucket that an origin decides on: the service with a subscription that it publishes for, or else the
component, if it is of the distribution's own archive. -/
def decision? (table : OriginTable) (origin : Origin) : Option Bucket :=
  match (table.service? origin).filter (·.isEsm) with
  | some service => some service
  | none =>
      if origin.label = ubuntuLabel then some ((Bucket.ofComponent? origin.component).getD .unknown)
      else none

/-- The bucket of an installed package. -/
def classify (table : OriginTable) (package : InstalledPackage) : Bucket :=
  match examined? package with
  | none => .unknown
  | some origins => (origins.findSome? table.decision?).getD .thirdParty

/-- What is logged of a package: the component that decides, if it is one. -/
def classifyLog (table : OriginTable) (package : InstalledPackage) : List LogEvent :=
  match (examined? package).bind (·.find? fun origin => (table.decision? origin).isSome) with
  | none => []
  | some origin =>
      if ((table.service? origin).filter (·.isEsm)).isSome then []
      else [.classified package.name origin.component]

end UpdatePosture.OriginTable
