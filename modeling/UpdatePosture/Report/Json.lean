import UpdatePosture.Json.Reader
import UpdatePosture.Json.Record
import UpdatePosture.Json.Writer
import UpdatePosture.Report

/-!
# Reports as JSON

The layout of a report in JSON, written and read. Sets of services are written in their order without
repetitions and read in any order with or without them.
-/

namespace UpdatePosture

open Json (Field)

namespace BucketSet

def toJson (set : BucketSet) : Json :=
  .ofStrings (set.toList.map Bucket.name)

def ofJson? (json : Json) : Option BucketSet :=
  (json.list? (Json.choice? Bucket.ofName?)).map ofList

end BucketSet

namespace Subscription

def toJson (subscription : Subscription) : Json :=
  .record
    [("attached", .bool subscription.attached),
     ("enabled_services", subscription.enabled.toJson),
     ("entitled_services", subscription.entitled.toJson)]

def fields : List Field :=
  [.required "attached", .required "enabled_services", .required "entitled_services"]

def ofJson? (json : Json) : Option Subscription := do
  let [attached, enabled, entitled] ← json.fields? fields | none
  return ⟨← attached.bool?, ← BucketSet.ofJson? enabled, ← BucketSet.ofJson? entitled⟩

end Subscription

namespace ReportSummary

def toJson (summary : ReportSummary) : Json :=
  .record
    [("ua", summary.subscription.toJson),
     ("num_installed_packages", .ofNat summary.installed),
     ("num_main_packages", .ofNat summary.mainComponent),
     ("num_restricted_packages", .ofNat summary.restrictedComponent),
     ("num_universe_packages", .ofNat summary.universeComponent),
     ("num_multiverse_packages", .ofNat summary.multiverseComponent),
     ("num_third_party_packages", .ofNat summary.thirdParty),
     ("num_unknown_packages", .ofNat summary.unknown),
     ("num_esm_infra_packages", .ofNat summary.esmInfra),
     ("num_esm_apps_packages", .ofNat summary.esmApps),
     ("num_esm_infra_updates", .ofNat summary.esmInfraUpdates),
     ("num_esm_apps_updates", .ofNat summary.esmAppsUpdates),
     ("num_standard_security_updates", .ofNat summary.standardUpdates)]

def fields : List Field :=
  ["ua", "num_installed_packages", "num_main_packages", "num_restricted_packages",
   "num_universe_packages", "num_multiverse_packages", "num_third_party_packages",
   "num_unknown_packages", "num_esm_infra_packages", "num_esm_apps_packages",
   "num_esm_infra_updates", "num_esm_apps_updates", "num_standard_security_updates"].map .required

def ofJson? (json : Json) : Option ReportSummary := do
  let subscription :: counts ← json.fields? fields | none
  let subscription ← Subscription.ofJson? subscription
  let [installed, mainComponent, restrictedComponent, universeComponent, multiverseComponent, thirdParty,
    unknown, esmInfra, esmApps, esmInfraUpdates, esmAppsUpdates, standardUpdates] ←
    counts.mapM Json.word? | none
  return { subscription, installed, mainComponent, restrictedComponent, universeComponent,
           multiverseComponent, thirdParty, unknown, esmInfra, esmApps, esmInfraUpdates, esmAppsUpdates,
           standardUpdates }

end ReportSummary

namespace ReportEntry

def toJson (entry : ReportEntry) : Json :=
  .record
    [("package", .ofString entry.package),
     ("version", .ofString entry.version),
     ("service_name", .ofString entry.service.name),
     ("status", .ofString entry.availability.name),
     ("origin", .ofString entry.site),
     ("download_size", .ofNat entry.downloadSize)]

def fields : List Field :=
  ["package", "version", "service_name", "status", "origin", "download_size"].map .required

def ofJson? (json : Json) : Option ReportEntry := do
  let [package, version, service, availability, site, downloadSize] ← json.fields? fields | none
  return { package := ← package.string?
           version := ← version.string?
           service := ← service.choice? Bucket.ofName?
           availability := ← availability.choice? Availability.ofName?
           site := ← site.string?
           downloadSize := ← downloadSize.word? }

end ReportEntry

namespace Report

def toJson (report : Report) : Json :=
  .record
    [("_schema_version", .ofString report.schemaVersion),
     ("summary", report.summary.toJson),
     ("packages", .array (report.entries.map ReportEntry.toJson))]

def fields : List Field :=
  [.required "_schema_version", .required "summary", .required "packages"]

def ofJson? (json : Json) : Option Report := do
  let [schemaVersion, summary, entries] ← json.fields? fields | none
  return ⟨← schemaVersion.string?, ← ReportSummary.ofJson? summary, ← entries.list? ReportEntry.ofJson?⟩

/-- Reads a report that is written in JSON. -/
def parse? (text : String) : Option Report :=
  (Json.parse? text).bind ofJson?

/-- The report in JSON, on one line without its end. -/
def jsonLine (report : Report) : String :=
  report.toJson.render

end Report

end UpdatePosture
