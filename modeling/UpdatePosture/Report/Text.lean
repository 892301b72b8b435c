import UpdatePosture.Listing.Text
import UpdatePosture.Report

/-!
# Reports as text

After the package summary a text report says how many standard updates there are, and then for each of the
two services with a subscription what the machine receives from it or would have to do to receive it.
-/

namespace UpdatePosture

/-- A service with a subscription, as a report tells of it. -/
structure ServiceNews where
  service : Bucket
  /-- The components that the service maintains. -/
  repository : String
  installed : Nat
  updates : Nat

namespace ServiceNews

/-- Says how many updates the service has. -/
def additional (news : ServiceNews) (whence : String) : String :=
  s!"{countOrNo news.updates} additional security update{plural news.updates} " ++
    s!"for Ubuntu {news.repository} {whence}"

def lines (news : ServiceNews) : Availability → List String
  | .upgradeAvailable =>
      [s!"This machine is receiving security patching for Ubuntu {news.repository} via {news.service}.",
       s!"{news.installed} package{plural news.installed} installed from {news.service}, " ++
         s!"{countOrNo news.updates} pending update{plural news.updates}."]
  | .pendingAttach =>
      [news.additional s!"available with {news.service}.",
       "Attach this machine to an Ubuntu Pro subscription to receive them."]
  | .pendingEnable =>
      [news.additional s!"available with {news.service}.",
       s!"Enable {news.service} with: pro enable {news.service}"]
  | .upgradeUnavailable =>
      [news.additional s!"need {news.service},",
       "which this subscription is not entitled to."]

end ServiceNews

namespace ReportSummary

/-- The services with a subscription, in the order in which a report tells of them. -/
def news (summary : ReportSummary) : List ServiceNews :=
  [⟨.esmInfra, "Main/Restricted", summary.esmInfra, summary.esmInfraUpdates⟩,
   ⟨.esmApps, "Universe/Multiverse", summary.esmApps, summary.esmAppsUpdates⟩]

end ReportSummary

namespace Report

def helpLines : List String :=
  ["To get more information about the packages, run",
   "    secstat security-status --help",
   "for a list of available options.",
   ""]

def lines (report : Report) : List String :=
  let summary := report.summary
  (PackageSummary.ofReport summary).lines none ++ helpLines ++
    [s!"{countOrNo summary.standardUpdates} standard security update" ++
       s!"{plural summary.standardUpdates} available.",
     ""] ++
    summary.news.flatMap fun news =>
      news.lines (summary.subscription.availability news.service) ++ [""]

/-- The report as text. -/
def text (report : Report) : String :=
  unlines report.lines

end Report

end UpdatePosture
