import UpdatePosture.NameSet
import UpdatePosture.Report

/-!
# Listings

A listing names the installed packages of one group and says which of them have updates. The four groups
share out all buckets but that of standard updates, in which no package is ever placed.
-/

namespace UpdatePosture

inductive ListingKind where
  | thirdParty
  | unknown
  | esmInfra
  | esmApps
  deriving DecidableEq, Repr

namespace ListingKind

def all : List ListingKind := [thirdParty, unknown, esmInfra, esmApps]

def name : ListingKind → String
  | thirdParty => "third-party"
  | unknown => "unknown"
  | esmInfra => "esm-infra"
  | esmApps => "esm-apps"

def ofName? (text : String) : Option ListingKind :=
  all.find? fun kind => kind.name == text

theorem ofName?_name (kind : ListingKind) : ofName? kind.name = some kind := by
  cases kind <;> decide +kernel

/-- The buckets that the listing shows, in its order. -/
def buckets : ListingKind → List Bucket
  | thirdParty => [.thirdParty]
  | unknown => [.unknown]
  | esmInfra => [.esmInfra, .mainComponent, .restrictedComponent]
  | esmApps => [.esmApps, .universeComponent, .multiverseComponent]

/-- The service whose updates the listing points out. -/
def service? : ListingKind → Option Bucket
  | esmInfra => some .esmInfra
  | esmApps => some .esmApps
  | thirdParty | unknown => none

end ListingKind

/-- The counts of the four groups, and of the packages that come from a service with a subscription. -/
structure PackageSummary where
  installed : Nat
  mainRestricted : Nat
  universeMultiverse : Nat
  thirdParty : Nat
  unknown : Nat
  esmInfraInstalled : Nat
  esmAppsInstalled : Nat
  deriving DecidableEq, Repr, Inhabited

namespace PackageSummary

/-- The summary of a partition. -/
def ofPartition (partition : Partition) : PackageSummary :=
  let count (kind : ListingKind) : Nat := kind.buckets.foldr (partition.count · + ·) 0
  { installed := partition.packages.length
    mainRestricted := count .esmInfra
    universeMultiverse := count .esmApps
    thirdParty := partition.count .thirdParty
    unknown := partition.count .unknown
    esmInfraInstalled := partition.count .esmInfra
    esmAppsInstalled := partition.count .esmApps }

/-- The summary that a report's counts add up to. -/
def ofReport (summary : ReportSummary) : PackageSummary where
  installed := summary.installed
  mainRestricted := summary.mainComponent + summary.restrictedComponent + summary.esmInfra
  universeMultiverse := summary.universeComponent + summary.multiverseComponent + summary.esmApps
  thirdParty := summary.thirdParty
  unknown := summary.unknown
  esmInfraInstalled := summary.esmInfra
  esmAppsInstalled := summary.esmApps

end PackageSummary

structure Listing where
  kind : ListingKind
  summary : PackageSummary
  packages : List String
  /-- The listed packages that have updates. -/
  withUpdates : NameSet
  /-- The package to use in an example. -/
  hint : Option String
  deriving DecidableEq, Repr

namespace Listing

/-- The listing of a kind. Only the packages it shows are looked through for updates. -/
def build (table : OriginTable) (kind : ListingKind) (partition : Partition) : Listing :=
  let members := partition.inBuckets kind.buckets
  let names := members.map (·.name)
  { kind := kind
    summary := .ofPartition partition
    packages := names
    withUpdates :=
      match kind.service? with
      | some service => .ofList (((table.scan members).under service).map (·.package))
      | none => ∅
    hint := names.head? }

/-- What is logged on the way to a listing, once there is a partition. -/
def buildLog (table : OriginTable) (kind : ListingKind) (partition : Partition) : List LogEvent :=
  match kind.service? with
  | some _ => table.scanLog (partition.inBuckets kind.buckets)
  | none => []

end Listing

end UpdatePosture
