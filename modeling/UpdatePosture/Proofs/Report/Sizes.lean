import Mathlib
import UpdatePosture.Proofs.Listing

/-!
# What download sizes are good for

Sizes are carried along and never looked at. Classification, the search for updates, the counts and the listings
do not change when all sizes are set to 0, and a report changes in the sizes of its entries only. Main statements:
`Report.build_map_unsized` and `Listing.build_map_unsized`.
-/

namespace UpdatePosture

/-! ## Setting sizes to zero -/

def VersionRecord.unsized (record : VersionRecord) : VersionRecord :=
  { record with downloadSize := 0 }

def InstalledPackage.unsized (package : InstalledPackage) : InstalledPackage :=
  { package with
    installed := package.installed.unsized
    available := package.available.map .unsized }

def Update.unsized (update : Update) : Update :=
  { update with version := update.version.unsized }

def ReportEntry.unsized (listed : ReportEntry) : ReportEntry :=
  { listed with downloadSize := 0 }

def Report.unsized (report : Report) : Report :=
  { report with entries := report.entries.map .unsized }

/-! ## Packages -/

namespace InstalledPackage

theorem record?_unsized (package : InstalledPackage) (version : String) :
    package.unsized.record? version = (package.record? version).map .unsized := by
  rw [record?, unsized, List.find?_map]
  rfl

theorem candidateRecord?_unsized (package : InstalledPackage) :
    package.unsized.candidateRecord? = package.candidateRecord?.map .unsized := by
  unfold candidateRecord?
  rw [Option.map_bind]
  show package.candidate.bind _ = _
  congr 1
  funext version
  rw [Function.comp_apply, record?_unsized]
  show (if version = package.installed.version then _ else _) = _
  split <;> rfl

end InstalledPackage

namespace OriginTable

variable (table : OriginTable)

theorem classify_unsized (package : InstalledPackage) :
    table.classify package.unsized = table.classify package := by
  have hexamined : examined? package.unsized = examined? package := by
    unfold examined?
    rw [InstalledPackage.candidateRecord?_unsized, Option.map_map]
    rfl
  rw [classify, hexamined, classify]

theorem update?_unsized (package : InstalledPackage) (record : VersionRecord) :
    table.update? package.unsized record.unsized = (table.update? package record).map .unsized := by
  unfold update?
  show (if Version.compare? record.version package.installed.version = some .gt then _ else _) = _
  split
  · rw [Option.map_map]
    rfl
  · rfl

theorem updates_map_unsized (packages : List InstalledPackage) :
    table.updates (packages.map .unsized) = (table.updates packages).map .unsized := by
  rw [updates, updates, List.flatMap_map, List.map_flatMap]
  refine List.flatMap_congr fun package _ => ?_
  rw [InstalledPackage.unsized, List.filterMap_map, List.map_filterMap]
  exact List.filterMap_congr fun record _ => table.update?_unsized package record

end OriginTable

theorem updatesOf_map_unsized (service : Bucket) (updates : List Update) :
    updatesOf service (updates.map .unsized) = (updatesOf service updates).map .unsized := by
  rw [updatesOf, List.filter_map]
  rfl

/-! ## Reports and listings -/

section Document

variable (table : OriginTable) (packages : List InstalledPackage)

theorem bucket_map_unsized (bucket : Bucket) :
    (table.partition (packages.map .unsized)).bucket bucket =
      ((table.partition packages).bucket bucket).map .unsized := by
  rw [bucket_partition, bucket_partition, List.filter_map]
  congr 1
  exact List.filter_congr fun package _ => by simp only [Function.comp_apply, table.classify_unsized]

theorem count_map_unsized (bucket : Bucket) :
    (table.partition (packages.map .unsized)).count bucket = (table.partition packages).count bucket := by
  rw [count_partition, count_partition, bucket_map_unsized, List.length_map]

theorem inBuckets_map_unsized (buckets : List Bucket) :
    (table.partition (packages.map .unsized)).inBuckets buckets =
      ((table.partition packages).inBuckets buckets).map .unsized := by
  rw [Partition.inBuckets, Partition.inBuckets, List.map_flatMap]
  exact List.flatMap_congr fun bucket _ => bucket_map_unsized table packages bucket

theorem Report.build_map_unsized (subscription : Subscription) :
    Report.build table (packages.map .unsized) subscription =
      (Report.build table packages subscription).unsized := by
  have hentry (updates : List Update) :
      (updates.map .unsized).map (entry subscription) = (updates.map (entry subscription)).map .unsized := by
    rw [List.map_map, List.map_map]
    rfl
  simp only [Report.build, Report.unsized, count_map_unsized, table.toList_scan, table.under_scan,
    table.updates_map_unsized, flatMap_byService, List.map_flatMap, updatesOf_map_unsized, List.length_map, hentry]

theorem Listing.build_map_unsized (kind : ListingKind) :
    Listing.build table kind (table.partition (packages.map .unsized)) =
      Listing.build table kind (table.partition packages) := by
  have hnames (members : List InstalledPackage) :
      (members.map InstalledPackage.unsized).map (·.name) = members.map (·.name) := by
    rw [List.map_map]
    rfl
  have hupdates (service : Bucket) (members : List InstalledPackage) :
      ((table.scan (members.map InstalledPackage.unsized)).under service).map (·.package) =
        ((table.scan members).under service).map (·.package) := by
    rw [table.under_scan, table.under_scan, table.updates_map_unsized, updatesOf_map_unsized, List.map_map]
    rfl
  have hsummary : PackageSummary.ofPartition (table.partition (packages.map .unsized)) =
      .ofPartition (table.partition packages) := by
    simp only [PackageSummary.ofPartition, count_map_unsized]
    simp only [OriginTable.partition, List.length_map]
  simp only [Listing.build, inBuckets_map_unsized, hnames, hupdates, hsummary]

end Document

end UpdatePosture
