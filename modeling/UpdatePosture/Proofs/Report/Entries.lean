import Mathlib
import UpdatePosture.Proofs.OriginTable
import UpdatePosture.Report

/-!
# The entries of a report

A report lists its entries service by service. This module says of every available version of every package
under which service it is listed, if it is listed at all (`listed?`), and shows that the entries of a report
are these and no others, in the order of the services, then of the packages, then of the versions. Main
statement: `entries_build_ofSeries`.
-/

namespace UpdatePosture

namespace Report

/-- The services that publish security updates, in the order that a report lists them in. -/
def services : List Bucket :=
  [.standardSecurity, .esmInfra, .esmApps]

/-- The entry under `service` for an available version of a package. There is one if the version is higher
than the installed one and the first of its origins that publishes for any service publishes for this one. -/
def listed? (table : OriginTable) (subscription : Subscription) (service : Bucket)
    (package : InstalledPackage) (record : VersionRecord) : Option ReportEntry :=
  match record.origins.find? fun origin => (table.service? origin).isSome with
  | none => none
  | some origin =>
      if Version.compare? record.version package.installed.version = some .gt ∧
          table.service? origin = some service then
        some
          { package := package.name
            version := record.version
            service := service
            availability := subscription.availability service
            site := origin.site
            downloadSize := record.downloadSize }
      else none

/-- The package with only those available versions that can be compared with the installed one. -/
def comparable (package : InstalledPackage) : InstalledPackage :=
  { package with
    available := package.available.filter fun record =>
      (Version.compare? record.version package.installed.version).isSome }

end Report

open Report

/-! ## One available version -/

namespace OriginTable

/-- The table of a series knows of no other services. -/
theorem mem_services_of_service? {series : String} {origin : Origin} {service : Bucket}
    (h : (ofSeries series).service? origin = some service) : service ∈ services := by
  have hpockets : ∀ pocket ∈ pockets, pocket.service ∈ services := by decide
  obtain ⟨pocket, hpocket, -, rfl⟩ := exists_pocket_of_service? h
  exact hpockets pocket hpocket

theorem service_mem_of_mem_updates {series : String} {packages : List InstalledPackage} {update : Update}
    (h : update ∈ (ofSeries series).updates packages) : update.service ∈ services := by
  obtain ⟨origin, -, hservice⟩ := exists_publisher_of_mem_updates h
  exact mem_services_of_service? hservice

end OriginTable

theorem map_entry_update? (table : OriginTable) (subscription : Subscription) (service : Bucket)
    (package : InstalledPackage) (record : VersionRecord) :
    ((table.update? package record).filter (·.service == service)).map (entry subscription) =
      listed? table subscription service package record := by
  unfold OriginTable.update? listed?
  rw [OriginTable.publisher?_eq]
  cases hfind : record.origins.find? fun origin => (table.service? origin).isSome with
  | none => simp
  | some origin =>
    have hsome : (table.service? origin).isSome := by simpa using List.find?_some hfind
    obtain ⟨publishes, hpublishes⟩ := Option.isSome_iff_exists.mp hsome
    by_cases hgt : Version.compare? record.version package.installed.version = some .gt
    · by_cases hservice : publishes = service
      · subst hservice
        simp [hgt, hpublishes, entry]
      · simp [hgt, hpublishes, hservice]
    · simp [hgt]

/-- A version is listed under at most one service, which is that of the update it is. -/
theorem findSome?_listed? (series : String) (subscription : Subscription) (package : InstalledPackage)
    (record : VersionRecord) :
    (services.findSome? fun service => listed? (.ofSeries series) subscription service package record) =
      ((OriginTable.ofSeries series).update? package record).map (entry subscription) := by
  simp only [← map_entry_update?]
  cases h : (OriginTable.ofSeries series).update? package record with
  | none => simp [services]
  | some update =>
    obtain ⟨_, _, _, _, _, hservice, _⟩ := OriginTable.update?_eq_some h
    have hmem := OriginTable.mem_services_of_service? hservice
    simp only [services, List.mem_cons, List.not_mem_nil, or_false] at hmem
    rcases hmem with hmem | hmem | hmem <;> simp [services, Option.filter, hmem]

theorem listed?_eq_none {table : OriginTable} {subscription : Subscription} {service : Bucket}
    {package : InstalledPackage} {record : VersionRecord}
    (h : Version.compare? record.version package.installed.version = none) :
    listed? table subscription service package record = none := by
  simp [← map_entry_update?, OriginTable.update?, h]

/-! ## All entries -/

/-- Grouping by distinct keys that cover all items keeps every item, as often as it occurs. -/
theorem flatMap_filter_perm {α κ : Type} [BEq κ] [LawfulBEq κ] {keys : List κ} {items : List α}
    (key : α → κ) (hnodup : keys.Nodup) (hcover : ∀ item ∈ items, key item ∈ keys) :
    (keys.flatMap fun k => items.filter fun item => key item == k).Perm items := by
  induction keys generalizing items with
  | nil =>
    obtain rfl : items = [] := List.eq_nil_iff_forall_not_mem.mpr fun item h =>
      List.not_mem_nil (hcover item h)
    exact .nil
  | cons k keys ih =>
    obtain ⟨hk, hnodup⟩ := List.nodup_cons.mp hnodup
    -- the first key takes its items out, and the other keys find theirs among what is left
    let others := items.filter fun item => !(key item == k)
    have hcover' : ∀ item ∈ others, key item ∈ keys := by
      intro item hitem
      obtain ⟨hitem, hne⟩ := List.mem_filter.mp hitem
      exact (List.mem_cons.mp (hcover item hitem)).resolve_left (by simpa using hne)
    have hothers : ∀ k' ∈ keys, (items.filter fun item => key item == k') =
        others.filter fun item => key item == k' := by
      intro k' hk'
      have hne : k' ≠ k := fun h => hk (h ▸ hk')
      rw [List.filter_filter]
      refine List.filter_congr fun item _ => ?_
      by_cases h : key item = k' <;> simp [h, hne]
    rw [List.flatMap_cons, List.flatMap_congr hothers]
    exact ((ih hnodup hcover').append_left _).trans (List.filter_append_perm _ _)

/-- A service without updates adds nothing, whether it is a group or not. -/
theorem flatMap_byService {α : Type} (updates : List Update) (image : Update → α) :
    ((byService updates).flatMap fun group => group.2.map image) =
      Bucket.all.flatMap fun service => (updatesOf service updates).map image := by
  unfold byService
  induction Bucket.all with
  | nil => rfl
  | cons service services ih =>
    rw [List.map_cons, List.filter_cons, List.flatMap_cons, ← ih]
    cases h : updatesOf service updates with
    | nil => simp
    | cons update updates => simp

theorem map_entry_updatesOf (table : OriginTable) (subscription : Subscription) (service : Bucket)
    (packages : List InstalledPackage) :
    (updatesOf service (table.updates packages)).map (entry subscription) =
      packages.flatMap fun package =>
        package.available.filterMap (listed? table subscription service package) := by
  simp only [updatesOf, OriginTable.updates, List.filter_flatMap, List.map_flatMap, List.filter_filterMap,
    List.map_filterMap, map_entry_update?]

theorem updatesOf_eq_nil {series : String} {packages : List InstalledPackage} {service : Bucket}
    (h : service ∉ services) : updatesOf service ((OriginTable.ofSeries series).updates packages) = [] := by
  refine List.filter_eq_nil_iff.mpr fun update hupdate heq => h ?_
  obtain rfl : update.service = service := by simpa using heq
  exact OriginTable.service_mem_of_mem_updates hupdate

theorem entries_build_eq_updatesOf (series : String) (packages : List InstalledPackage)
    (subscription : Subscription) :
    (build (.ofSeries series) packages subscription).entries =
      services.flatMap fun service =>
        (updatesOf service ((OriginTable.ofSeries series).updates packages)).map (entry subscription) := by
  have hall : Bucket.all = services ++ Bucket.all.drop 3 := rfl
  have hrest : ∀ service ∈ Bucket.all.drop 3, service ∉ services := by decide
  have hnone : ((Bucket.all.drop 3).flatMap fun service =>
      (updatesOf service ((OriginTable.ofSeries series).updates packages)).map (entry subscription)) = [] := by
    refine List.flatMap_eq_nil_iff.mpr fun service hservice => ?_
    rw [updatesOf_eq_nil (hrest service hservice), List.map_nil]
  simp only [build, OriginTable.toList_scan, flatMap_byService]
  rw [hall, List.flatMap_append, hnone, List.append_nil]

theorem entries_build (series : String) (packages : List InstalledPackage) (subscription : Subscription) :
    (build (.ofSeries series) packages subscription).entries =
      services.flatMap fun service => packages.flatMap fun package =>
        package.available.filterMap (listed? (.ofSeries series) subscription service package) := by
  simp only [entries_build_eq_updatesOf, map_entry_updatesOf]

/-- Up to their order, the entries are the pending updates. -/
theorem entries_build_perm (series : String) (packages : List InstalledPackage)
    (subscription : Subscription) :
    (build (.ofSeries series) packages subscription).entries.Perm
      (((OriginTable.ofSeries series).updates packages).map (entry subscription)) := by
  rw [entries_build_eq_updatesOf, ← List.map_flatMap]
  refine (flatMap_filter_perm Update.service ?_ ?_).map _
  · decide
  · exact fun update hupdate => OriginTable.service_mem_of_mem_updates hupdate

theorem filterMap_listed?_comparable (table : OriginTable) (subscription : Subscription) (service : Bucket)
    (package : InstalledPackage) :
    (comparable package).available.filterMap (listed? table subscription service (comparable package)) =
      package.available.filterMap (listed? table subscription service package) := by
  unfold comparable
  rw [List.filterMap_filter]
  refine List.filterMap_congr fun record _ => ?_
  cases h : Version.compare? record.version package.installed.version with
  | none => simp [listed?_eq_none h]
  | some ordering => simp [listed?]

/-- The entries of a report, in their order, are those of `listed?` for each service, package and version in
turn. Up to the order, each version of each package has at most one, whatever the number of services that its
origins publish for. A version that cannot be compared might as well not be there, and no entry is under
another service. -/
theorem entries_build_ofSeries (series : String) (packages : List InstalledPackage)
    (subscription : Subscription) :
    (build (.ofSeries series) packages subscription).entries =
      ([.standardSecurity, .esmInfra, .esmApps].flatMap fun service => packages.flatMap fun package =>
        package.available.filterMap (listed? (.ofSeries series) subscription service package)) ∧
    (build (.ofSeries series) packages subscription).entries.Perm
      (packages.flatMap fun package => package.available.filterMap fun record =>
        [.standardSecurity, .esmInfra, .esmApps].findSome? fun service =>
          listed? (.ofSeries series) subscription service package record) ∧
    (build (.ofSeries series) (packages.map comparable) subscription).entries =
      (build (.ofSeries series) packages subscription).entries ∧
    ∀ listed ∈ (build (.ofSeries series) packages subscription).entries,
      listed.service ∈ [Bucket.standardSecurity, .esmInfra, .esmApps] := by
  have hsingle := fun package record => findSome?_listed? series subscription package record
  refine ⟨entries_build series packages subscription, ?_, ?_, ?_⟩
  · have hperm := entries_build_perm series packages subscription
    simp only [services] at hsingle
    simpa only [hsingle, OriginTable.updates, List.map_flatMap, List.map_filterMap] using hperm
  · rw [entries_build, entries_build, List.flatMap_congr]
    intro service _
    rw [List.flatMap_map]
    exact List.flatMap_congr fun package _ => filterMap_listed?_comparable _ _ _ package
  · intro listed hlisted
    obtain ⟨update, hupdate, rfl⟩ :=
      List.mem_map.mp ((entries_build_perm series packages subscription).mem_iff.mp hlisted)
    exact OriginTable.service_mem_of_mem_updates hupdate

end UpdatePosture
