import Mathlib
import UpdatePosture.Proofs.ByBucket
import UpdatePosture.Proofs.Version.Order
import UpdatePosture.Update

/-!
# Pending updates

What an update tells of the package, the version and the origin that it comes from (`update?_eq_some`), what is
filed under a service when packages are looked through for updates (`under_scan`, `toList_scan`), and what becomes of
pending updates when packages are upgraded. An upgrade may settle some, but it never adds one, and it changes nothing
about those that are still pending: what is higher than the version that is installed now was higher than the one
before. Main statement: `under_scan_sublist_of_raised`.
-/

namespace UpdatePosture

/-! ## What an update is -/

namespace OriginTable

theorem publisher?_eq (table : OriginTable) (origins : List Origin) :
    table.publisher? origins =
      (origins.find? fun origin => (table.service? origin).isSome).bind fun origin =>
        (table.service? origin).map (·, origin) := by
  induction origins with
  | nil => rfl
  | cons origin origins ih =>
    cases h : table.service? origin with
    | none => simpa [publisher?, h] using ih
    | some service => simp [publisher?, h]

/-- An update is an available version that is higher than the installed one, with an origin that publishes
for the service. -/
theorem update?_eq_some {table : OriginTable} {package : InstalledPackage} {record : VersionRecord}
    {update : Update} (h : table.update? package record = some update) :
    Version.compare? record.version package.installed.version = some .gt ∧
    update.package = package.name ∧ update.version = record ∧
    ∃ origin ∈ record.origins, table.service? origin = some update.service ∧ update.site = origin.site := by
  unfold update? at h
  split at h
  next hgt =>
    obtain ⟨⟨service, origin⟩, hpublisher, rfl⟩ := Option.map_eq_some_iff.mp h
    rw [publisher?_eq] at hpublisher
    obtain ⟨first, hfirst, hservice⟩ := Option.bind_eq_some_iff.mp hpublisher
    obtain ⟨service', hservice', hpair⟩ := Option.map_eq_some_iff.mp hservice
    cases hpair
    exact ⟨hgt, rfl, rfl, origin, List.mem_of_find?_eq_some hfirst, hservice', rfl⟩
  · cases h

/-- The updates of all packages, package by package and version by version. -/
def updates (table : OriginTable) (packages : List InstalledPackage) : List Update :=
  packages.flatMap fun package => package.available.filterMap (table.update? package)

theorem exists_of_mem_updates {table : OriginTable} {packages : List InstalledPackage} {update : Update}
    (h : update ∈ table.updates packages) :
    ∃ package ∈ packages, ∃ record ∈ package.available, table.update? package record = some update := by
  obtain ⟨package, hpackage, hmem⟩ := List.mem_flatMap.mp h
  obtain ⟨record, hrecord, hupdate⟩ := List.mem_filterMap.mp hmem
  exact ⟨package, hpackage, record, hrecord, hupdate⟩

theorem exists_publisher_of_mem_updates {table : OriginTable} {packages : List InstalledPackage}
    {update : Update} (h : update ∈ table.updates packages) :
    ∃ origin ∈ update.version.origins, table.service? origin = some update.service := by
  obtain ⟨package, -, record, -, hupdate⟩ := exists_of_mem_updates h
  obtain ⟨-, -, rfl, origin, horigin, hservice, -⟩ := update?_eq_some hupdate
  exact ⟨origin, horigin, hservice⟩

end OriginTable

/-! ## What is filed under a service -/

/-- The updates that a service publishes. -/
def updatesOf (service : Bucket) (updates : List Update) : List Update :=
  updates.filter (·.service == service)

/-- The services that publish any of the updates, each with its updates, in the order of `Bucket.all`. -/
def byService (updates : List Update) : List (Bucket × List Update) :=
  (Bucket.all.map fun service => (service, updatesOf service updates)).filter fun group => !group.2.isEmpty

theorem byService_nil : byService [] = [] := rfl

namespace OriginTable

variable (table : OriginTable) (packages : List InstalledPackage)

theorem foldl_file (package : InstalledPackage) (records : List VersionRecord) (filed : ByBucket Update) :
    records.foldl (table.file package) filed =
      (records.filterMap (table.update? package)).foldl
        (fun filed update => filed.push update.service update) filed := by
  induction records generalizing filed with
  | nil => rfl
  | cons record records ih =>
    rw [List.foldl_cons, ih, List.filterMap_cons, file]
    cases table.update? package record <;> rfl

/-- Looking for updates files them one after the other. -/
theorem scan_eq_foldl :
    table.scan packages =
      (table.updates packages).foldl (fun filed update => filed.push update.service update) ∅ := by
  rw [scan, updates, List.foldl_flatMap]
  simp only [foldl_file]

theorem under_scan (service : Bucket) :
    (table.scan packages).under service = updatesOf service (table.updates packages) := by
  rw [scan_eq_foldl, updatesOf]
  simpa using ByBucket.under_foldl_push Update.service id (table.updates packages) ∅ service

/-- The entries that are filed are the updates of each service that has any, in the order of the services. -/
theorem toList_scan : (table.scan packages).toList = byService (table.updates packages) := by
  have hfilled : (table.scan packages).Filled := by
    rw [scan_eq_foldl]
    exact ByBucket.filled_foldl_push Update.service id _ ByBucket.filled_empty
  simp only [ByBucket.toList_eq_of_filled hfilled, under_scan, byService]

variable {table packages} {service : Bucket} {update : Update}

theorem mem_under_scan :
    update ∈ (table.scan packages).under service ↔ update ∈ table.updates packages ∧ update.service = service := by
  rw [under_scan, updatesOf, List.mem_filter, beq_iff_eq]

end OriginTable

/-! ## After an upgrade -/

/-- The package with another version installed. -/
def InstalledPackage.installing (package : InstalledPackage) (version : String) : InstalledPackage :=
  { package with installed := { package.installed with version := version } }

/-- What becomes of a package when it is upgraded, or left as it is: the versions that are available stay, and the
one that is installed is not lowered. -/
structure Raised (before after : InstalledPackage) : Prop where
  name : after.name = before.name
  available : after.available = before.available
  installed : after.installed.version = before.installed.version ∨
    ∃ ordering, Version.compare? before.installed.version after.installed.version = some ordering ∧
      ordering.isLE

theorem raised_installing (package : InstalledPackage) {low high : String} {ordering : Ordering}
    (h : Version.compare? low high = some ordering) (hle : ordering.isLE) :
    Raised (package.installing low) (package.installing high) where
  name := rfl
  available := rfl
  installed := .inr ⟨ordering, h, hle⟩

/-- What is higher than a version is higher than those below it. -/
theorem Raised.compare?_eq_gt {before after : InstalledPackage} (h : Raised before after) {version : String}
    (hgt : Version.compare? version after.installed.version = some .gt) :
    Version.compare? version before.installed.version = some .gt := by
  rcases h.installed with hsame | ⟨ordering, hordering, hle⟩
  · rwa [← hsame]
  · have hlt : Version.compare? after.installed.version version = some .lt := by
      rw [Version.compare?_swap, hgt]
      rfl
    obtain ⟨whole, hwhole, -, hstrict⟩ := Version.compare?_trans hordering hlt hle rfl
    rw [Version.compare?_swap, hwhole, hstrict (.inr rfl)]
    rfl

namespace OriginTable

variable {table : OriginTable}

/-- The update that a version of a package is, provided it is higher than the one that is installed. -/
def offer? (table : OriginTable) (name : String) (record : VersionRecord) : Option Update :=
  (table.publisher? record.origins).map fun (service, origin) => ⟨name, record, service, origin.site⟩

/-- The installed version decides which of the available versions are looked at, and nothing else. -/
theorem filterMap_update? (package : InstalledPackage) :
    package.available.filterMap (table.update? package) =
      (package.available.filter fun record =>
        Version.compare? record.version package.installed.version = some .gt).filterMap
        (table.offer? package.name) := by
  rw [List.filterMap_filter]
  refine List.filterMap_congr fun record _ => ?_
  simp only [update?, offer?, decide_eq_true_eq]

theorem filterMap_update?_sublist {before after : InstalledPackage} (h : Raised before after) :
    (after.available.filterMap (table.update? after)).Sublist
      (before.available.filterMap (table.update? before)) := by
  rw [filterMap_update?, filterMap_update?, h.name, h.available]
  refine List.Sublist.filterMap _ (List.monotone_filter_right _ fun record hrecord => ?_)
  rw [decide_eq_true_eq] at hrecord ⊢
  exact h.compare?_eq_gt hrecord

theorem updates_sublist {before after : List InstalledPackage} (h : List.Forall₂ Raised before after) :
    (table.updates after).Sublist (table.updates before) := by
  induction h with
  | nil => exact List.Sublist.refl _
  | cons hpackage _ ih =>
    rw [updates, updates, List.flatMap_cons, List.flatMap_cons]
    exact (filterMap_update?_sublist hpackage).append ih

theorem under_scan_sublist {before after : List InstalledPackage} (h : List.Forall₂ Raised before after)
    (service : Bucket) :
    ((table.scan after).under service).Sublist ((table.scan before).under service) := by
  rw [under_scan, under_scan]
  exact (updates_sublist h).filter _

/-- Versions that are raised and might as well be lowered again are equal in the order. -/
theorem under_scan_eq {before after : List InstalledPackage} (h : List.Forall₂ Raised before after)
    (hback : List.Forall₂ Raised after before) (service : Bucket) :
    (table.scan after).under service = (table.scan before).under service :=
  (under_scan_sublist h service).antisymm (under_scan_sublist hback service)

end OriginTable

open OriginTable

/-- If versions are raised, the updates of a service that are still pending are among those that were pending before,
in the same order. If they are raised to versions that are equal in the order, all of them are still pending. -/
theorem under_scan_sublist_of_raised (table : OriginTable) (service : Bucket) :
    (∀ (package : InstalledPackage) (low high : String) (ordering : Ordering),
      Version.compare? low high = some ordering → ordering.isLE →
        ((table.scan [package.installing high]).under service).Sublist
            ((table.scan [package.installing low]).under service) ∧
          (ordering = .eq → (table.scan [package.installing high]).under service =
            (table.scan [package.installing low]).under service)) ∧
      ∀ before after, List.Forall₂ Raised before after →
        ((table.scan after).under service).Sublist ((table.scan before).under service) ∧
          (List.Forall₂ Raised after before →
            (table.scan after).under service = (table.scan before).under service) := by
  refine ⟨fun package low high ordering h hle => ?_, fun before after h => ?_⟩
  · have hraised : List.Forall₂ Raised [package.installing low] [package.installing high] :=
      .cons (raised_installing package h hle) .nil
    refine ⟨under_scan_sublist hraised service, ?_⟩
    rintro rfl
    have hequal : Version.compare? high low = some .eq := by
      rw [Version.compare?_swap, h]
      rfl
    exact under_scan_eq hraised (.cons (raised_installing package hequal rfl) .nil) service
  · exact ⟨under_scan_sublist h service, fun hback => under_scan_eq h hback service⟩

/-- A package with two updates, between which there is a version that cannot be read. -/
def sampleOutdated : InstalledPackage where
  name := "vim"
  installed := ⟨"1.0", 0, [.localInstall]⟩
  available := ["1.5", "", "2.0"].map fun version =>
    ⟨version, 7, [⟨"Ubuntu", "jammy-security", "main", "archive"⟩]⟩
  candidate := some "2.0"

theorem under_scan_sampleOutdated :
    ((ofSeries "jammy").scan [sampleOutdated.installing "1.0"]).under .standardSecurity =
      ["1.5", "2.0"].map fun version =>
        ⟨"vim", ⟨version, 7, [⟨"Ubuntu", "jammy-security", "main", "archive"⟩]⟩, .standardSecurity, "archive"⟩ := by
  have hgt : Version.compare? "1.5" "1.0" = some .gt ∧ Version.compare? "2.0" "1.0" = some .gt :=
    ⟨by cbv, by cbv⟩
  have hnone : Version.compare? "" "1.0" = none :=
    Version.compare?_eq_none_iff.mpr (.inl (by decide +kernel))
  rw [under_scan]
  simp only [updates, sampleOutdated, InstalledPackage.installing, List.flatMap_cons, List.map_cons,
    List.filterMap_cons, update?, hgt, hnone]
  decide +kernel

/-- Another spelling of the installed version settles no update, and an upgrade may settle one. -/
theorem under_scan_sublist_sampleOutdated :
    let pending (version : String) :=
      ((ofSeries "jammy").scan [sampleOutdated.installing version]).under .standardSecurity
    Version.compare? "1.0" "1.00" = some .eq ∧
      (pending "1.00").map (·.version.version) = ["1.5", "2.0"] ∧
      Version.compare? "1.0" "1.5" = some .lt ∧
      ((pending "1.5").map (·.version.version)).Sublist ["1.5", "2.0"] := by
  intro pending
  have heq : Version.compare? "1.0" "1.00" = some .eq := by cbv
  have hlt : Version.compare? "1.0" "1.5" = some .lt := by cbv
  have hbefore : (pending "1.0").map (·.version.version) = ["1.5", "2.0"] :=
    congrArg (List.map (·.version.version)) under_scan_sampleOutdated
  obtain ⟨hsingle, -⟩ := under_scan_sublist_of_raised (ofSeries "jammy") .standardSecurity
  refine ⟨heq, ?_, hlt, ?_⟩
  · rw [← hbefore]
    exact congrArg _ ((hsingle sampleOutdated "1.0" "1.00" .eq heq rfl).2 rfl)
  · rw [← hbefore]
    exact (hsingle sampleOutdated "1.0" "1.5" .lt hlt rfl).1.map _

end UpdatePosture
