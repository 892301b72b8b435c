import UpdatePosture.Partition
import UpdatePosture.Subscription
import UpdatePosture.Update

/-!
# The security status report

The report counts the installed packages by bucket and the pending security updates by service, and lists
every update with what stands between the machine and it.
-/

namespace UpdatePosture

structure ReportSummary where
  subscription : Subscription
  installed : Nat
  mainComponent : Nat
  restrictedComponent : Nat
  universeComponent : Nat
  multiverseComponent : Nat
  thirdParty : Nat
  unknown : Nat
  esmInfra : Nat
  esmApps : Nat
  esmInfraUpdates : Nat
  esmAppsUpdates : Nat
  standardUpdates : Nat
  deriving DecidableEq, Repr, Inhabited

/-- A pending update in a report. -/
structure ReportEntry where
  package : String
  version : String
  service : Bucket
  availability : Availability
  /-- The host that serves the update. -/
  site : String
  downloadSize : Nat
  deriving DecidableEq, Repr

structure Report where
  schemaVersion : String
  summary : ReportSummary
  entries : List ReportEntry
  deriving DecidableEq, Repr

namespace Report

/-- The version of the report's layout. -/
def currentSchema : String := "0.1"

def entry (subscription : Subscription) (update : Update) : ReportEntry where
  package := update.package
  version := update.version.version
  service := update.service
  availability := subscription.availability update.service
  site := update.site
  downloadSize := update.version.downloadSize

/-- The report on these packages; its entries are listed service by service. -/
def build (table : OriginTable) (packages : List InstalledPackage) (subscription : Subscription) :
    Report :=
  let partition := table.partition packages
  let updates := table.scan packages
  let pending (service : Bucket) : Nat := (updates.under service).length
  { schemaVersion := currentSchema
    summary :=
      { subscription := subscription
        installed := packages.length
        mainComponent := partition.count .mainComponent
        restrictedComponent := partition.count .restrictedComponent
        universeComponent := partition.count .universeComponent
        multiverseComponent := partition.count .multiverseComponent
        thirdParty := partition.count .thirdParty
        unknown := partition.count .unknown
        esmInfra := partition.count .esmInfra
        esmApps := partition.count .esmApps
        esmInfraUpdates := pending .esmInfra
        esmAppsUpdates := pending .esmApps
        standardUpdates := pending .standardSecurity }
    entries := updates.toList.flatMap fun group => group.2.map (entry subscription) }

/-- What is logged on the way to a report. -/
def buildLog (table : OriginTable) (packages : List InstalledPackage) (subscription : Subscription) :
    List LogEvent :=
  let report := build table packages subscription
  table.partitionLog packages ++ table.scanLog packages ++
    [.reportBuilt packages.length report.entries.length subscription.attached]

end Report

end UpdatePosture
