import Mathlib
import UpdatePosture.Proofs.Classification
import UpdatePosture.Proofs.Report.Entries

/-!
# Counts of packages and updates

A partition files positions and finds the packages by them. The positions in a bucket, and the packages that are found,
are told by the classification alone (`indices_partition`, `bucket_partition`), and no package is ever classified under
standard updates, so that the other buckets share out all packages (`inBuckets_partition_perm`). Main statement: what a
report counts adds up (`sharesOut_and_balanced`).
-/

namespace UpdatePosture

/-! ## The partition that a table makes -/

section Partition

variable (table : OriginTable) (packages : List InstalledPackage)

/-- The positions in a bucket are those of the packages that are classified in it. -/
theorem indices_partition (bucket : Bucket) :
    (table.partition packages).indices bucket =
      (packages.zipIdx.filter (table.classify ·.1 == bucket)).map (·.2) := by
  have hplaced := ByBucket.under_foldl_push (fun placed => table.classify placed.1) (·.2) packages.zipIdx ∅ bucket
  rw [ByBucket.under_empty, List.nil_append] at hplaced
  exact hplaced

variable {table packages} in
theorem mem_indices_partition {bucket : Bucket} {position : Nat} :
    position ∈ (table.partition packages).indices bucket ↔
      ∃ package, packages[position]? = some package ∧ table.classify package = bucket := by
  rw [indices_partition]
  constructor
  · intro h
    obtain ⟨⟨package, position⟩, hmem, rfl⟩ := List.mem_map.mp h
    obtain ⟨hmem, hbucket⟩ := List.mem_filter.mp hmem
    exact ⟨package, List.mem_zipIdx_iff_getElem?.mp hmem, beq_iff_eq.mp hbucket⟩
  · rintro ⟨package, hposition, rfl⟩
    refine List.mem_map.mpr ⟨(package, position), List.mem_filter.mpr ⟨?_, beq_self_eq_true _⟩, rfl⟩
    exact List.mem_zipIdx_iff_getElem?.mpr hposition

theorem pairwise_indices_partition (bucket : Bucket) :
    ((table.partition packages).indices bucket).Pairwise (· < ·) := by
  have hsublist : ((table.partition packages).indices bucket).Sublist (packages.zipIdx.map (·.2)) := by
    rw [indices_partition]
    exact List.filter_sublist.map _
  refine List.Pairwise.sublist hsublist ?_
  rw [List.zipIdx_map_snd]
  exact List.pairwise_lt_range'

/-- Reading the packages at the positions of a bucket finds those that are classified in it. -/
theorem bucket_partition (bucket : Bucket) :
    (table.partition packages).bucket bucket = packages.filter (table.classify · == bucket) := by
  have hread : ∀ placed ∈ packages.zipIdx.filter (table.classify ·.1 == bucket),
      packages[placed.2]! = placed.1 := by
    intro placed hplaced
    have hposition := List.mem_zipIdx_iff_getElem?.mp (List.mem_filter.mp hplaced).1
    rw [List.getElem!_eq_getElem?_getD, hposition, Option.getD_some]
  have hfirst : packages.zipIdx.map (·.1) = packages := List.zipIdx_map_fst ..
  rw [Partition.bucket, indices_partition, List.map_map]
  refine (List.map_congr_left hread).trans ?_
  conv => rhs; rw [← hfirst]
  rw [List.filter_map]
  rfl

theorem count_partition (bucket : Bucket) :
    (table.partition packages).count bucket = ((table.partition packages).bucket bucket).length :=
  (List.length_map ..).symm

/-- Any buckets that leave out none but that of standard updates share out the packages. -/
theorem inBuckets_partition_perm {buckets : List Bucket} (hnodup : buckets.Nodup)
    (hcover : ∀ bucket, bucket ≠ .standardSecurity → bucket ∈ buckets) :
    ((table.partition packages).inBuckets buckets).Perm packages := by
  have hcovered : ∀ package ∈ packages, table.classify package ∈ buckets := fun package _ =>
    hcover _ (table.classify_ne_standardSecurity package)
  rw [Partition.inBuckets, List.flatMap_congr fun bucket _ => bucket_partition table packages bucket]
  exact flatMap_filter_perm table.classify hnodup hcovered

theorem sum_count_partition {buckets : List Bucket} (hnodup : buckets.Nodup)
    (hcover : ∀ bucket, bucket ≠ .standardSecurity → bucket ∈ buckets) :
    (buckets.map (table.partition packages).count).sum = packages.length := by
  rw [← (inBuckets_partition_perm table packages hnodup hcover).length_eq, Partition.inBuckets,
    List.length_flatMap]
  exact congrArg List.sum (List.map_congr_left fun bucket _ => count_partition table packages bucket)

end Partition

/-! ## What a report counts -/

/-- The buckets of a partition share out the positions of a list of packages: every position stands in one
bucket and no other, in ascending order, and what is read at the positions of a bucket are the packages in
it. -/
structure Partition.SharesOut (partition : Partition) (packages : List InstalledPackage) : Prop where
  once : ∀ position < packages.length, ∃! bucket, position ∈ partition.indices bucket
  within : ∀ bucket, ∀ position ∈ partition.indices bucket, position < packages.length
  ascending : ∀ bucket, (partition.indices bucket).Pairwise (· < ·)
  read : ∀ bucket, (partition.indices bucket).map (packages[·]?) = (partition.bucket bucket).map some
  counted : ∀ bucket, partition.count bucket = (partition.indices bucket).length
  noStandard : partition.indices .standardSecurity = []

/-- The counts of a report add up: those of the buckets to the number of packages, and those of the services,
each of which counts the entries under it, to the number of entries. -/
structure Report.Balanced (report : Report) (packages : List InstalledPackage) : Prop where
  installed : report.summary.installed = packages.length
  buckets : report.summary.mainComponent + report.summary.restrictedComponent +
    report.summary.universeComponent + report.summary.multiverseComponent + report.summary.thirdParty +
    report.summary.unknown + report.summary.esmInfra + report.summary.esmApps = report.summary.installed
  standardUpdates : report.summary.standardUpdates = report.entries.countP (·.service == .standardSecurity)
  esmInfraUpdates : report.summary.esmInfraUpdates = report.entries.countP (·.service == .esmInfra)
  esmAppsUpdates : report.summary.esmAppsUpdates = report.entries.countP (·.service == .esmApps)
  updates : report.summary.standardUpdates + report.summary.esmInfraUpdates + report.summary.esmAppsUpdates =
    report.entries.length

theorem sharesOut_partition (table : OriginTable) (packages : List InstalledPackage) :
    (table.partition packages).SharesOut packages where
  once := by
    intro position hposition
    refine ⟨table.classify packages[position], ?_, ?_⟩
    · exact mem_indices_partition.mpr ⟨_, List.getElem?_eq_getElem hposition, rfl⟩
    · intro bucket hbucket
      obtain ⟨package, hpackage, rfl⟩ := mem_indices_partition.mp hbucket
      rw [List.getElem?_eq_getElem hposition, Option.some_inj] at hpackage
      rw [hpackage]
  within := by
    intro bucket position hposition
    obtain ⟨package, hpackage, -⟩ := mem_indices_partition.mp hposition
    exact (List.getElem?_eq_some_iff.mp hpackage).1
  ascending := pairwise_indices_partition table packages
  read := by
    intro bucket
    rw [Partition.bucket, List.map_map]
    refine List.map_congr_left fun position hposition => ?_
    obtain ⟨package, hpackage, -⟩ := mem_indices_partition.mp hposition
    show packages[position]? = some packages[position]!
    rw [List.getElem!_eq_getElem?_getD, hpackage, Option.getD_some]
  counted := fun _ => rfl
  noStandard := by
    refine List.eq_nil_iff_forall_not_mem.mpr fun position hposition => ?_
    obtain ⟨package, -, hclassify⟩ := mem_indices_partition.mp hposition
    exact table.classify_ne_standardSecurity package hclassify

theorem countP_entries_build (series : String) (packages : List InstalledPackage)
    (subscription : Subscription) (service : Bucket) :
    (Report.build (.ofSeries series) packages subscription).entries.countP (·.service == service) =
      (((OriginTable.ofSeries series).scan packages).under service).length := by
  rw [(entries_build_perm series packages subscription).countP_eq, List.countP_map, OriginTable.under_scan, updatesOf,
    ← List.countP_eq_length_filter]
  rfl

theorem balanced_build (series : String) (packages : List InstalledPackage) (subscription : Subscription) :
    (Report.build (.ofSeries series) packages subscription).Balanced packages where
  installed := rfl
  buckets := by
    have hcover : ∀ bucket, bucket ≠ .standardSecurity → bucket ∈ [Bucket.mainComponent, .restrictedComponent,
        .universeComponent, .multiverseComponent, .thirdParty, .unknown, .esmInfra, .esmApps] := by
      intro bucket h
      cases bucket with
      | standardSecurity => exact absurd rfl h
      | _ => decide
    have hsum := sum_count_partition (.ofSeries series) packages (by decide) hcover
    simpa [Report.build, Nat.add_assoc] using hsum
  standardUpdates := (countP_entries_build series packages subscription _).symm
  esmInfraUpdates := (countP_entries_build series packages subscription _).symm
  esmAppsUpdates := (countP_entries_build series packages subscription _).symm
  updates := by
    rw [entries_build_eq_updatesOf]
    simp [Report.build, Report.services, OriginTable.under_scan, Nat.add_assoc]

/-- Nothing is counted twice or left out, neither among the packages nor among the updates. -/
theorem sharesOut_and_balanced (series : String) (packages : List InstalledPackage)
    (subscription : Subscription) :
    ((OriginTable.ofSeries series).partition packages).SharesOut packages ∧
      (Report.build (.ofSeries series) packages subscription).Balanced packages :=
  ⟨sharesOut_partition _ packages, balanced_build series packages subscription⟩

end UpdatePosture
