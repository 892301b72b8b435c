import UpdatePosture.Json.Reader
import UpdatePosture.Json.Record
import UpdatePosture.Json.Writer
import UpdatePosture.Listing

/-!
# Listings as JSON

The layout of a listing in JSON, written and read. An absent hint is written as null; an object may leave it
out.
-/

namespace UpdatePosture

open Json (Field)

namespace PackageSummary

def toJson (summary : PackageSummary) : Json :=
  .record
    [("installed", .ofNat summary.installed),
     ("main_restricted", .ofNat summary.mainRestricted),
     ("universe_multiverse", .ofNat summary.universeMultiverse),
     ("third_party", .ofNat summary.thirdParty),
     ("unknown", .ofNat summary.unknown),
     ("esm_infra_installed", .ofNat summary.esmInfraInstalled),
     ("esm_apps_installed", .ofNat summary.esmAppsInstalled)]

def fields : List Field :=
  ["installed", "main_restricted", "universe_multiverse", "third_party", "unknown",
   "esm_infra_installed", "esm_apps_installed"].map .required

def ofJson? (json : Json) : Option PackageSummary := do
  let [installed, mainRestricted, universeMultiverse, thirdParty, unknown, esmInfraInstalled,
    esmAppsInstalled] ← (← json.fields? fields).mapM Json.word? | none
  return { installed, mainRestricted, universeMultiverse, thirdParty, unknown, esmInfraInstalled,
           esmAppsInstalled }

end PackageSummary

namespace Listing

def toJson (listing : Listing) : Json :=
  .record
    [("kind", .ofString listing.kind.name),
     ("summary", listing.summary.toJson),
     ("packages", .ofStrings listing.packages),
     ("with_updates", .ofStrings listing.withUpdates.toList),
     ("hint_package", listing.hint.elim .null .ofString)]

def fields : List Field :=
  [.required "kind", .required "summary", .required "packages", .required "with_updates",
   .nullable "hint_package"]

def ofJson? (json : Json) : Option Listing := do
  let [kind, summary, packages, withUpdates, hint] ← json.fields? fields | none
  return { kind := ← kind.choice? ListingKind.ofName?
           summary := ← PackageSummary.ofJson? summary
           packages := ← packages.list? Json.string?
           withUpdates := .ofList (← withUpdates.list? Json.string?)
           hint := ← hint.nullable? Json.string? }

/-- Reads a listing that is written in JSON. -/
def parse? (text : String) : Option Listing :=
  (Json.parse? text).bind ofJson?

/-- The listing in JSON, on one line without its end. -/
def jsonLine (listing : Listing) : String :=
  listing.toJson.render

end Listing

end UpdatePosture
