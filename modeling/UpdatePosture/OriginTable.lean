import UpdatePosture.Bucket
import UpdatePosture.Package

/-!
# Origin tables

Which origins of a release publish security updates. Every archive label of a table is the name of the
series, a hyphen and a suffix.
-/

namespace UpdatePosture

/-- The label of the distribution's own archive. -/
def ubuntuLabel : String := "Ubuntu"

/-- The label of the archive of extended maintenance for main and restricted. -/
def esmInfraLabel : String := "UbuntuESM"

/-- The label of the archive of extended maintenance for universe and multiverse. -/
def esmAppsLabel : String := "UbuntuESMApps"

/-- The service that an origin with this label and archive publishes for. -/
structure OriginRule where
  label : String
  archive : String
  service : Bucket
  deriving DecidableEq, Repr

def OriginRule.matches (rule : OriginRule) (origin : Origin) : Bool :=
  rule.label == origin.label && rule.archive == origin.archive

structure OriginTable where
  series : String
  rules : List OriginRule
  deriving DecidableEq, Repr

namespace OriginTable

/-- The table of a release series. -/
def ofSeries (series : String) : OriginTable where
  series := series
  rules :=
    [⟨ubuntuLabel, series ++ "-" ++ "security", .standardSecurity⟩,
     ⟨esmAppsLabel, series ++ "-" ++ "apps-security", .esmApps⟩,
     ⟨esmInfraLabel, series ++ "-" ++ "infra-security", .esmInfra⟩,
     ⟨esmAppsLabel, series ++ "-" ++ "apps-updates", .esmApps⟩,
     ⟨esmInfraLabel, series ++ "-" ++ "infra-updates", .esmInfra⟩]

/-- The service that an origin publishes security updates for. -/
def service? (table : OriginTable) (origin : Origin) : Option Bucket :=
  (table.rules.find? (·.matches origin)).map (·.service)

end OriginTable

end UpdatePosture
