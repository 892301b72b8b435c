import UpdatePosture.ByBucket
import UpdatePosture.Log
import UpdatePosture.OriginTable
import UpdatePosture.Version.Order

/-!
# Pending security updates

An available version is a pending update when it is higher than the installed one and one of its origins
publishes for a security service. It counts once, for the first such origin. A version that cannot be
read is higher than nothing. The updates that are found are filed under their services.
-/

namespace UpdatePosture

structure Update where
  package : String
  version : VersionRecord
  service : Bucket
  /-- The host of the origin that publishes it. -/
  site : String
  deriving DecidableEq, Repr

/-- What is logged of an available version that cannot be ordered. -/
def InstalledPackage.unordered? (package : InstalledPackage) (record : VersionRecord) : Option LogEvent :=
  if Version.compare? record.version package.installed.version = none then
    some (.unordered package.name record.version package.installed.version)
  else none

namespace OriginTable

/-- The first origin that publishes for a service, with that service. -/
def publisher? (table : OriginTable) (origins : List Origin) : Option (Bucket × Origin) :=
  origins.findSome? fun origin => (table.service? origin).map (·, origin)

/-- The update that an available version of a package is. -/
def update? (table : OriginTable) (package : InstalledPackage) (record : VersionRecord) : Option Update :=
  if Version.compare? record.version package.installed.version = some .gt then
    (table.publisher? record.origins).map fun (service, origin) =>
      ⟨package.name, record, service, origin.site⟩
  else none

/-- Files an available version of a package, if it is an update, under the service that publishes it. -/
def file (table : OriginTable) (package : InstalledPackage) (filed : ByBucket Update)
    (record : VersionRecord) : ByBucket Update :=
  match table.update? package record with
  | some update => filed.push update.service update
  | none => filed

/-- The updates of all packages, filed package by package and version by version. -/
def scan (table : OriginTable) (packages : List InstalledPackage) : ByBucket Update :=
  packages.foldl (fun filed package => package.available.foldl (table.file package) filed) ∅

/-- What is logged of the search for updates. -/
def scanLog (table : OriginTable) (packages : List InstalledPackage) : List LogEvent :=
  let found := table.scan packages
  (packages.flatMap fun package => package.available.filterMap package.unordered?) ++
    [.scanFinished found.size (found.toList.flatMap (·.2)).length]

end OriginTable

end UpdatePosture
