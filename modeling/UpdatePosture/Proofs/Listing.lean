import Mathlib
import UpdatePosture.Listing
import UpdatePosture.Proofs.Partition

/-!
# What the listings show

The four listings show every installed package once (`listings_shareOut`). A listing looks for the updates of a
service among the packages that it shows, a report among all packages; what they find agrees where no two packages
have one name (`withUpdates_build_eq`).
-/

namespace UpdatePosture

/-! ## The buckets of the listings -/

theorem ListingKind.nodup_buckets : (ListingKind.all.flatMap ListingKind.buckets).Nodup := by decide

/-- Only the bucket of standard updates is in no listing. -/
theorem ListingKind.mem_buckets {bucket : Bucket} (h : bucket ≠ .standardSecurity) :
    bucket ∈ ListingKind.all.flatMap ListingKind.buckets := by
  cases bucket with
  | standardSecurity => exact absurd rfl h
  | _ => decide

/-! ## One listing -/

section Listing

variable (table : OriginTable) (kind : ListingKind)

theorem packages_build (packages : List InstalledPackage) :
    (Listing.build table kind (table.partition packages)).packages =
      kind.buckets.flatMap fun bucket =>
        (packages.filter (table.classify · == bucket)).map (·.name) := by
  simp only [Listing.build, Partition.inBuckets, List.map_flatMap, bucket_partition]

/-- Only packages that a listing shows are said to have updates. -/
theorem mem_packages_of_mem_withUpdates {partition : Partition} {name : String}
    (h : name ∈ (Listing.build table kind partition).withUpdates) :
    name ∈ (Listing.build table kind partition).packages := by
  unfold Listing.build at h
  split at h
  next service _ =>
    obtain ⟨update, hupdate, rfl⟩ := List.mem_map.mp (NameSet.mem_ofList.mp h)
    obtain ⟨package, hpackage, record, -, hrecord⟩ :=
      OriginTable.exists_of_mem_updates (OriginTable.mem_under_scan.mp hupdate).1
    rw [(OriginTable.update?_eq_some hrecord).2.1]
    exact List.mem_map_of_mem hpackage
  next => exact absurd h NameSet.not_mem_empty

end Listing

/-! ## All listings -/

theorem flatMap_packages_build_perm (table : OriginTable) (packages : List InstalledPackage) :
    (ListingKind.all.flatMap fun kind =>
      (Listing.build table kind (table.partition packages)).packages).Perm (packages.map (·.name)) := by
  have hperm := inBuckets_partition_perm table packages ListingKind.nodup_buckets
    fun _ => ListingKind.mem_buckets
  rw [Partition.inBuckets, List.flatMap_assoc] at hperm
  simpa only [Listing.build, Partition.inBuckets, List.map_flatMap] using hperm.map (·.name)

/-- What a listing shows of the packages of a partition: their names, bucket by bucket, the first of them as a
hint, and among them those that have updates. -/
structure Listing.Shows (listing : Listing) (table : OriginTable) (kind : ListingKind)
    (packages : List InstalledPackage) : Prop where
  ordered : listing.packages = kind.buckets.flatMap fun bucket =>
    (packages.filter (table.classify · == bucket)).map (·.name)
  hint : listing.hint = listing.packages.head?
  noHint : listing.hint = none ↔ listing.packages = []
  withUpdates : ∀ name ∈ listing.withUpdates, name ∈ listing.packages

/-- Together the listings name every package, as often as it is installed, and each of them names the packages
of its buckets in their order. A listing for no service points out no updates. -/
theorem listings_shareOut (series : String) (packages : List InstalledPackage) :
    let table := OriginTable.ofSeries series
    let listing (kind : ListingKind) := Listing.build table kind (table.partition packages)
    ((listing .thirdParty).packages ++ (listing .unknown).packages ++ (listing .esmInfra).packages ++
        (listing .esmApps).packages).Perm (packages.map (·.name)) ∧
      (∀ kind, (listing kind).Shows table kind packages) ∧
      (listing .thirdParty).withUpdates = ∅ ∧ (listing .unknown).withUpdates = ∅ := by
  intro table listing
  refine ⟨?_, fun kind => ?_, rfl, rfl⟩
  · simpa [ListingKind.all, listing] using flatMap_packages_build_perm table packages
  · exact {
      ordered := packages_build table kind packages
      hint := rfl
      noHint := List.head?_eq_none_iff
      withUpdates := fun _ => mem_packages_of_mem_withUpdates table kind }

/-! ## Updates in listings and in reports -/

/-- Sets of the same names are one set. -/
theorem NameSet.eq_of_mem_iff {first second : NameSet} (h : ∀ name, name ∈ first ↔ name ∈ second) :
    first = second := by
  obtain ⟨names, hnames⟩ := first
  obtain ⟨others, hothers⟩ := second
  obtain rfl : names = others := hnames.eq_of_mem_iff hothers fun name => h name
  rfl

/-- One of the available versions of a package is an update that the service publishes. -/
def OriginTable.Offers (table : OriginTable) (service : Bucket) (package : InstalledPackage) : Prop :=
  ∃ record ∈ package.available, ∃ update, table.update? package record = some update ∧
    update.service = service

/-- The names of the packages that a report lists updates of under a service. -/
def Report.namesUnder (report : Report) (service : Bucket) : List String :=
  (report.entries.filter (·.service == service)).map (·.package)

section Updates

variable {table : OriginTable} {service : Bucket} {packages : List InstalledPackage} {name : String}

/-- Whether a package has updates is told from that package, whatever is looked through with it. -/
theorem mem_map_package_updatesOf :
    name ∈ (updatesOf service (table.updates packages)).map (·.package) ↔
      ∃ package ∈ packages, table.Offers service package ∧ package.name = name := by
  constructor
  · intro h
    obtain ⟨update, hupdate, rfl⟩ := List.mem_map.mp h
    obtain ⟨hupdate, hservice⟩ := List.mem_filter.mp hupdate
    obtain ⟨package, hpackage, record, hrecord, hupdate⟩ := OriginTable.exists_of_mem_updates hupdate
    exact ⟨package, hpackage, ⟨record, hrecord, update, hupdate, beq_iff_eq.mp hservice⟩,
      (OriginTable.update?_eq_some hupdate).2.1.symm⟩
  · rintro ⟨package, hpackage, ⟨record, hrecord, update, hupdate, rfl⟩, rfl⟩
    rw [← (OriginTable.update?_eq_some hupdate).2.1]
    refine List.mem_map_of_mem (List.mem_filter.mpr ⟨?_, beq_self_eq_true _⟩)
    exact List.mem_flatMap.mpr ⟨package, hpackage, List.mem_filterMap.mpr ⟨record, hrecord, hupdate⟩⟩

theorem mem_namesUnder_build {series : String} {subscription : Subscription} :
    name ∈ (Report.build (.ofSeries series) packages subscription).namesUnder service ↔
      ∃ package ∈ packages, (OriginTable.ofSeries series).Offers service package ∧ package.name = name := by
  have hperm := ((entries_build_perm series packages subscription).filter (·.service == service)).map
    (·.package)
  rw [List.filter_map, List.map_map] at hperm
  exact hperm.mem_iff.trans mem_map_package_updatesOf

theorem mem_inBuckets_partition {buckets : List Bucket} {package : InstalledPackage} :
    package ∈ (table.partition packages).inBuckets buckets ↔
      package ∈ packages ∧ table.classify package ∈ buckets := by
  simp only [Partition.inBuckets, bucket_partition, List.mem_flatMap, List.mem_filter, beq_iff_eq]
  constructor
  · rintro ⟨bucket, hbucket, hpackage, rfl⟩
    exact ⟨hpackage, hbucket⟩
  · rintro ⟨hpackage, hbucket⟩
    exact ⟨_, hbucket, hpackage, rfl⟩

theorem mem_withUpdates_build {kind : ListingKind} (hservice : kind.service? = some service) :
    name ∈ (Listing.build table kind (table.partition packages)).withUpdates ↔
      ∃ package ∈ packages, table.classify package ∈ kind.buckets ∧ table.Offers service package ∧
        package.name = name := by
  simp only [Listing.build, hservice, NameSet.mem_ofList, OriginTable.under_scan, mem_map_package_updatesOf,
    mem_inBuckets_partition, and_assoc]

/-- Where no two packages have one name, a listing for a service points out those of its packages that the
report lists updates of under this service, although it looks through no other packages. -/
theorem withUpdates_build_eq (series : String) (hnames : (packages.map (·.name)).Nodup)
    (subscription : Subscription) {kind : ListingKind} (hservice : kind.service? = some service) :
    let table := OriginTable.ofSeries series
    let listing := Listing.build table kind (table.partition packages)
    let report := Report.build table packages subscription
    listing.withUpdates = .ofList ((report.namesUnder service).filter (· ∈ listing.packages)) := by
  intro table listing report
  refine NameSet.eq_of_mem_iff fun name => ?_
  rw [NameSet.mem_ofList, List.mem_filter, decide_eq_true_iff, mem_namesUnder_build,
    mem_withUpdates_build hservice]
  constructor
  · rintro ⟨package, hpackage, hbucket, hoffers, rfl⟩
    refine ⟨⟨package, hpackage, hoffers, rfl⟩, List.mem_map_of_mem ?_⟩
    exact mem_inBuckets_partition.mpr ⟨hpackage, hbucket⟩
  · rintro ⟨⟨package, hpackage, hoffers, rfl⟩, hlisted⟩
    obtain ⟨other, hother, hname⟩ := List.mem_map.mp hlisted
    obtain ⟨hother, hbucket⟩ := mem_inBuckets_partition.mp hother
    -- the listing shows a package of this name, and there is but one
    obtain rfl : other = package := List.inj_on_of_nodup_map hnames hother hpackage hname
    exact ⟨other, hpackage, hbucket, hoffers, rfl⟩

end Updates

/-- An installed package of a component, with an update that is published for main and restricted. -/
def sampleUpgradable (name component : String) : InstalledPackage where
  name := name
  installed := ⟨"1.0", 0, [⟨"Ubuntu", "jammy", component, "archive"⟩, .localInstall]⟩
  available :=
    [⟨"1.1", 7, [⟨"UbuntuESM", "jammy-infra-security", "main", "esm"⟩]⟩,
     ⟨"1.0", 0, [⟨"Ubuntu", "jammy", component, "archive"⟩, .localInstall]⟩]
  candidate := some "1.1"

/-- The first of these packages is in the report only. -/
def samplePackages : List InstalledPackage :=
  [sampleUpgradable "curl" "universe", sampleUpgradable "bash" "main"]

theorem updates_samplePackages :
    (OriginTable.ofSeries "jammy").updates samplePackages =
      ["curl", "bash"].map fun name =>
        ⟨name, ⟨"1.1", 7, [⟨"UbuntuESM", "jammy-infra-security", "main", "esm"⟩]⟩, .esmInfra, "esm"⟩ := by
  have hgt : Version.compare? "1.1" "1.0" = some .gt := by cbv
  have heq : Version.compare? "1.0" "1.0" = some .eq := by cbv
  simp only [OriginTable.updates, samplePackages, sampleUpgradable, List.flatMap_cons, List.filterMap_cons,
    OriginTable.update?, hgt, heq]
  rfl

theorem withUpdates_build_samplePackages :
    let table := OriginTable.ofSeries "jammy"
    (samplePackages.map (·.name)).Nodup ∧ ListingKind.esmInfra.service? = some .esmInfra ∧
      (Report.build table samplePackages .unattached).namesUnder .esmInfra = ["curl", "bash"] ∧
      (Listing.build table .esmInfra (table.partition samplePackages)).withUpdates = .ofList ["bash"] := by
  intro table
  have hnames : (samplePackages.map (·.name)).Nodup := by decide
  have hservice : ListingKind.esmInfra.service? = some .esmInfra := rfl
  have hunder : (Report.build table samplePackages .unattached).namesUnder .esmInfra = ["curl", "bash"] := by
    rw [Report.namesUnder, entries_build_eq_updatesOf, updates_samplePackages]
    decide +kernel
  have hlisted : (Listing.build table .esmInfra (table.partition samplePackages)).packages = ["bash"] := by
    decide +kernel
  refine ⟨hnames, hservice, hunder, ?_⟩
  rw [withUpdates_build_eq "jammy" hnames .unattached hservice, hunder, hlisted]
  rfl

end UpdatePosture
