import Mathlib
import UpdatePosture.Program
import UpdatePosture.Proofs.Json.Record
import UpdatePosture.Proofs.Json.Value
import UpdatePosture.Proofs.Listing

/-!
# What is read back from the documents

A report or a listing that is written in JSON is one line, and what is read from that line is the report or the
listing itself. The only thing to be careful about are numbers, since readers take 64 bits of them. Main
statement: `parse?_render_json`.
-/

namespace UpdatePosture

open Text

/-! ## Sets -/

theorem BucketSet.ofJson?_toJson (set : BucketSet) : ofJson? set.toJson = some set := by
  have hnames : Json.list? (Json.choice? Bucket.ofName?)
      (.array (set.toList.map fun bucket => .ofString bucket.name)) = some set.toList :=
    Json.list?_array_map fun bucket _ => Bucket.ofName?_name bucket
  rw [ofJson?, toJson, Json.ofStrings, List.map_map]
  exact (congrArg (Option.map ofList) hnames).trans (by rw [Option.map_some, ofList_toList])

theorem NameSet.ofList_toList (set : NameSet) : ofList set.toList = set :=
  eq_of_mem_iff fun _ => mem_ofList

/-! ## Reports -/

theorem Subscription.ofJson?_toJson (subscription : Subscription) :
    ofJson? subscription.toJson = some subscription := by
  rw [ofJson?, toJson, Json.fields?_record (by decide) rfl]
  simp [BucketSet.ofJson?_toJson]

/-- The numbers of a summary. -/
def ReportSummary.counts (summary : ReportSummary) : List Nat :=
  [summary.installed, summary.mainComponent, summary.restrictedComponent, summary.universeComponent,
   summary.multiverseComponent, summary.thirdParty, summary.unknown, summary.esmInfra, summary.esmApps,
   summary.esmInfraUpdates, summary.esmAppsUpdates, summary.standardUpdates]

theorem ReportSummary.ofJson?_toJson {summary : ReportSummary} (h : ∀ count ∈ summary.counts, count < wordBound) :
    ofJson? summary.toJson = some summary := by
  rw [ofJson?, toJson, Json.fields?_record (by decide) rfl]
  have hcounts := Json.mapM_word? h
  simp only [List.map_cons, List.map_nil, counts] at hcounts ⊢
  simp [Subscription.ofJson?_toJson, hcounts]

theorem ReportEntry.ofJson?_toJson {entry : ReportEntry} (h : entry.downloadSize < wordBound) :
    ofJson? entry.toJson = some entry := by
  rw [ofJson?, toJson, Json.fields?_record (by decide) rfl]
  simp [Json.choice?_ofString, Bucket.ofName?_name, Availability.ofName?_name, Json.word?_ofNat h]

/-- The numbers of a report. -/
def Report.numbers (report : Report) : List Nat :=
  report.summary.counts ++ report.entries.map (·.downloadSize)

theorem Report.ofJson?_toJson {report : Report} (h : ∀ number ∈ report.numbers, number < wordBound) :
    ofJson? report.toJson = some report := by
  obtain ⟨hcounts, hsizes⟩ := List.forall_mem_append.mp h
  have hentries : Json.list? ReportEntry.ofJson? (.array (report.entries.map ReportEntry.toJson)) =
      some report.entries :=
    Json.list?_array_map fun entry hentry => ReportEntry.ofJson?_toJson (hsizes _ (List.mem_map_of_mem hentry))
  rw [ofJson?, toJson, Json.fields?_record (by decide) rfl]
  simp [ReportSummary.ofJson?_toJson hcounts, hentries]

/-! ## Listings -/

/-- The numbers of a summary. -/
def PackageSummary.counts (summary : PackageSummary) : List Nat :=
  [summary.installed, summary.mainRestricted, summary.universeMultiverse, summary.thirdParty, summary.unknown,
   summary.esmInfraInstalled, summary.esmAppsInstalled]

theorem PackageSummary.ofJson?_toJson {summary : PackageSummary}
    (h : ∀ count ∈ summary.counts, count < wordBound) : ofJson? summary.toJson = some summary := by
  have hcounts := Json.mapM_word? h
  rw [ofJson?, toJson, Json.fields?_record (by decide) rfl]
  simp only [List.map_cons, List.map_nil, counts] at hcounts ⊢
  simp [hcounts]

theorem Listing.ofJson?_toJson {listing : Listing} (h : ∀ count ∈ listing.summary.counts, count < wordBound) :
    ofJson? listing.toJson = some listing := by
  rw [ofJson?, toJson, Json.fields?_record (by decide) rfl]
  simp [Json.choice?_ofString, ListingKind.ofName?_name, PackageSummary.ofJson?_toJson h, Json.list?_ofStrings,
    NameSet.ofList_toList, Json.nullable?_elim]

/-! ## Documents -/

/-- The text is one line, and the line feed that ends it is its only one. -/
def OneLine (text : String) : Prop :=
  ∃ line : String, text = line ++ "\n" ∧ '\n' ∉ line.toList

theorem oneLine_render (value : Json) : OneLine (value.render ++ "\n") :=
  ⟨value.render, rfl, fun hfeed => absurd (Json.le_toNat_of_mem_render hfeed) (by decide)⟩

theorem parse?_render_line (value : Json) : Json.parse? (value.render ++ "\n") = some value :=
  Json.parse?_render_append value (by simp [Json.isGap])

/-- Every report and every listing with numbers of 64 bits is written on one line in JSON and read back from it.
Whoever else writes or reads these lines is assumed to keep to the grammar as `Json.render` and `Json.parse?` do: text
is escaped and comes back as it was, and whole numbers of 64 bits are exact. -/
theorem parse?_render_json :
    (∀ report : Report, (∀ number ∈ report.numbers, number < wordBound) →
      OneLine (report.render .json) ∧ Report.parse? (report.render .json) = some report) ∧
    (∀ listing : Listing, (∀ count ∈ listing.summary.counts, count < wordBound) →
      OneLine (listing.render .json) ∧ Listing.parse? (listing.render .json) = some listing) := by
  constructor
  · intro report h
    refine ⟨oneLine_render report.toJson, ?_⟩
    rw [Report.parse?, Report.render, Report.jsonLine, parse?_render_line, Option.bind_some,
      Report.ofJson?_toJson h]
  · intro listing h
    refine ⟨oneLine_render listing.toJson, ?_⟩
    rw [Listing.parse?, Listing.render, Listing.jsonLine, parse?_render_line, Option.bind_some,
      Listing.ofJson?_toJson h]

/-- A report with quotes, line feeds, a zero character and the largest number. -/
def awkwardReport : Report where
  schemaVersion := "\"0.1\"\n"
  summary := { (default : ReportSummary) with
    subscription := ⟨false, .ofList [.unknown, .esmInfra], ∅⟩, installed := wordBound - 1 }
  entries := [⟨"lib\\c\x00", "1:2~ü\x7f", .thirdParty, .pendingEnable, "\t𝄞\r\n", wordBound - 1⟩]

/-- A listing with names that have to be escaped, and no hint. -/
def awkwardListing : Listing where
  kind := .esmApps
  summary := { (default : PackageSummary) with thirdParty := wordBound - 1 }
  packages := ["a\nb", "", "\"", "\u2028"]
  withUpdates := .ofList ["\"", "a\nb", "\""]
  hint := none

theorem parse?_render_json_awkward :
    (∀ number ∈ awkwardReport.numbers, number < wordBound) ∧
    Report.parse? (awkwardReport.render .json) = some awkwardReport ∧
    (∀ count ∈ awkwardListing.summary.counts, count < wordBound) ∧
    Listing.parse? (awkwardListing.render .json) = some awkwardListing := by
  have hreport : ∀ number ∈ awkwardReport.numbers, number < wordBound := by decide
  have hlisting : ∀ count ∈ awkwardListing.summary.counts, count < wordBound := by decide
  exact ⟨hreport, (parse?_render_json.1 awkwardReport hreport).2, hlisting,
    (parse?_render_json.2 awkwardListing hlisting).2⟩

end UpdatePosture
