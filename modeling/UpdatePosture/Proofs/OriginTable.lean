import Mathlib
import UpdatePosture.Proofs.Update

/-!
# What origin tables tell apart

The archives of a table are the name of the series with one of five endings. Names of series may end in such an
ending too: `jammy-apps-security` is an archive of the series `jammy` and of a series `jammy-apps`. It is the label
that tells the two apart, for under one label no ending is the end of another (`eq_of_suffix_ending`). Main
statement: `service?_ofSeries_apart`.
-/

namespace UpdatePosture

namespace OriginTable

/-! ## What the tables of all series have in common -/

/-- A rule without the series that its archive is named after. -/
structure Pocket where
  label : String
  ending : String
  service : Bucket
  deriving DecidableEq, Repr

/-- The pockets of every series, in the order of the rules. -/
def pockets : List Pocket :=
  [⟨ubuntuLabel, "security", .standardSecurity⟩,
   ⟨esmAppsLabel, "apps-security", .esmApps⟩,
   ⟨esmInfraLabel, "infra-security", .esmInfra⟩,
   ⟨esmAppsLabel, "apps-updates", .esmApps⟩,
   ⟨esmInfraLabel, "infra-updates", .esmInfra⟩]

/-- The rule for a pocket of a series. -/
def Pocket.rule (series : String) (pocket : Pocket) : OriginRule :=
  ⟨pocket.label, series ++ "-" ++ pocket.ending, pocket.service⟩

theorem mem_rules_ofSeries {series : String} {rule : OriginRule} :
    rule ∈ (ofSeries series).rules ↔ ∃ pocket ∈ pockets, pocket.rule series = rule := by
  have hrules : (ofSeries series).rules = pockets.map (Pocket.rule series) := rfl
  rw [hrules, List.mem_map]

/-- Under one label, no ending is the end of another. -/
theorem eq_of_suffix_ending : ∀ pocket ∈ pockets, ∀ other ∈ pockets, pocket.label = other.label →
    pocket.ending.toList <:+ other.ending.toList → pocket = other := by
  decide +kernel

/-! ## One rule for an origin -/

theorem matches_iff {rule : OriginRule} {origin : Origin} :
    rule.matches origin ↔ rule.label = origin.label ∧ rule.archive = origin.archive := by
  simp [OriginRule.matches]

/-- Whatever the series, at most one rule speaks of an origin. -/
theorem eq_of_matches {series other : String} {rule rule' : OriginRule} {origin : Origin}
    (hrule : rule ∈ (ofSeries series).rules) (hrule' : rule' ∈ (ofSeries other).rules)
    (hmatches : rule.matches origin) (hmatches' : rule'.matches origin) : series = other ∧ rule = rule' := by
  obtain ⟨pocket, hpocket, rfl⟩ := mem_rules_ofSeries.mp hrule
  obtain ⟨pocket', hpocket', rfl⟩ := mem_rules_ofSeries.mp hrule'
  obtain ⟨hlabel, harchive⟩ := matches_iff.mp hmatches
  obtain ⟨hlabel', harchive'⟩ := matches_iff.mp hmatches'
  have hlabels : pocket.label = pocket'.label := hlabel.trans hlabel'.symm
  have harchives : series ++ "-" ++ pocket.ending = other ++ "-" ++ pocket'.ending :=
    harchive.trans harchive'.symm
  obtain rfl : pocket = pocket' := by
    have hend : pocket.ending.toList <:+ origin.archive.toList :=
      ⟨(series ++ "-").toList, by rw [← String.toList_append, ← harchive, Pocket.rule]⟩
    have hend' : pocket'.ending.toList <:+ origin.archive.toList :=
      ⟨(other ++ "-").toList, by rw [← String.toList_append, ← harchive', Pocket.rule]⟩
    rcases List.suffix_or_suffix_of_suffix hend hend' with hsuffix | hsuffix
    · exact eq_of_suffix_ending _ hpocket _ hpocket' hlabels hsuffix
    · exact (eq_of_suffix_ending _ hpocket' _ hpocket hlabels.symm hsuffix).symm
  obtain rfl : series = other := by
    rw [String.append_left_inj, String.append_left_inj] at harchives
    exact harchives
  exact ⟨rfl, rfl⟩

theorem mem_and_matches_of_find? {table : OriginTable} {rule : OriginRule} {origin : Origin}
    (h : table.rules.find? (·.matches origin) = some rule) : rule ∈ table.rules ∧ rule.matches origin :=
  ⟨List.mem_of_find?_eq_some h, by simpa using List.find?_some h⟩

/-- Since one rule at most speaks of an origin, it does not matter which is looked at first. -/
theorem service?_eq_some_iff {series : String} {table : OriginTable}
    (h : table.rules.Perm (ofSeries series).rules) {origin : Origin} {service : Bucket} :
    table.service? origin = some service ↔
      ∃ rule ∈ (ofSeries series).rules, rule.matches origin ∧ rule.service = service := by
  constructor
  · intro hservice
    obtain ⟨rule, hfind, rfl⟩ := Option.map_eq_some_iff.mp hservice
    obtain ⟨hrule, hmatches⟩ := mem_and_matches_of_find? hfind
    exact ⟨rule, h.mem_iff.mp hrule, hmatches, rfl⟩
  · rintro ⟨rule, hrule, hmatches, rfl⟩
    cases hfind : table.rules.find? (·.matches origin) with
    | none => exact absurd hmatches (List.find?_eq_none.mp hfind rule (h.mem_iff.mpr hrule))
    | some found =>
      obtain ⟨hfound, hmatchesFound⟩ := mem_and_matches_of_find? hfind
      obtain ⟨-, rfl⟩ := eq_of_matches (h.mem_iff.mp hfound) hrule hmatchesFound hmatches
      rw [service?, hfind, Option.map_some]

theorem service?_ofSeries_eq_some_iff {series : String} {origin : Origin} {service : Bucket} :
    (ofSeries series).service? origin = some service ↔
      ∃ rule ∈ (ofSeries series).rules, rule.matches origin ∧ rule.service = service :=
  service?_eq_some_iff (List.Perm.refl _)

/-- The label of an origin that publishes for a service is that of a pocket. -/
theorem exists_pocket_of_service? {series : String} {origin : Origin} {service : Bucket}
    (h : (ofSeries series).service? origin = some service) :
    ∃ pocket ∈ pockets, pocket.label = origin.label ∧ pocket.service = service := by
  obtain ⟨rule, hrule, hmatches, rfl⟩ := service?_ofSeries_eq_some_iff.mp h
  obtain ⟨pocket, hpocket, rfl⟩ := mem_rules_ofSeries.mp hrule
  exact ⟨pocket, hpocket, (matches_iff.mp hmatches).1, rfl⟩

theorem service?_eq_of_perm {series : String} {table : OriginTable}
    (h : table.rules.Perm (ofSeries series).rules) (origin : Origin) :
    table.service? origin = (ofSeries series).service? origin :=
  Option.ext fun _ => (service?_eq_some_iff h).trans service?_ofSeries_eq_some_iff.symm

/-! ## One series for an origin -/

theorem eq_of_service?_eq_some {series other : String} {origin : Origin} {service service' : Bucket}
    (h : (ofSeries series).service? origin = some service)
    (h' : (ofSeries other).service? origin = some service') : series = other := by
  obtain ⟨rule, hrule, hmatches, -⟩ := service?_ofSeries_eq_some_iff.mp h
  obtain ⟨rule', hrule', hmatches', -⟩ := service?_ofSeries_eq_some_iff.mp h'
  exact (eq_of_matches hrule hrule' hmatches hmatches').1

/-- No origin publishes for two series, and which rule of a table comes first is of no account. A version that is
an update for each of two series is one by two origins. -/
theorem service?_ofSeries_apart :
    (∀ series other : String, series ≠ other → ∀ origin,
      ¬(((ofSeries series).service? origin).isSome ∧ ((ofSeries other).service? origin).isSome)) ∧
    (∀ (series : String) (table : OriginTable), table.rules.Perm (ofSeries series).rules →
      ∀ origin, table.service? origin = (ofSeries series).service? origin) ∧
    ∀ series other : String, series ≠ other → ∀ packages others service service',
      ∀ update ∈ ((ofSeries series).scan packages).under service,
        ∀ update' ∈ ((ofSeries other).scan others).under service', update.version = update'.version →
          ∃ origin ∈ update.version.origins, ∃ origin' ∈ update.version.origins, origin ≠ origin' ∧
            (ofSeries series).service? origin = some service ∧ (ofSeries other).service? origin' = some service' := by
  refine ⟨?_, fun series table h origin => service?_eq_of_perm h origin, ?_⟩
  · rintro series other hne origin ⟨hsome, hsome'⟩
    obtain ⟨service, hservice⟩ := Option.isSome_iff_exists.mp hsome
    obtain ⟨service', hservice'⟩ := Option.isSome_iff_exists.mp hsome'
    exact hne (eq_of_service?_eq_some hservice hservice')
  · intro series other hne packages others service service' update hupdate update' hupdate' hversion
    obtain ⟨hfound, rfl⟩ := mem_under_scan.mp hupdate
    obtain ⟨hfound', rfl⟩ := mem_under_scan.mp hupdate'
    obtain ⟨origin, horigin, hservice⟩ := exists_publisher_of_mem_updates hfound
    obtain ⟨origin', horigin', hservice'⟩ := exists_publisher_of_mem_updates hfound'
    refine ⟨origin, horigin, origin', hversion ▸ horigin', ?_, hservice, hservice'⟩
    rintro rfl
    exact hne (eq_of_service?_eq_some hservice hservice')

/-- A version in two archives of one name, each of which publishes for another series. -/
def sampleShared : VersionRecord where
  version := "1.1"
  downloadSize := 7
  origins := [⟨"Ubuntu", "jammy-apps-security", "main", "archive"⟩,
    ⟨"UbuntuESMApps", "jammy-apps-security", "universe", "esm"⟩]

def sampleSharing : InstalledPackage where
  name := "bash"
  installed := ⟨"1.0", 0, [.localInstall]⟩
  available := [sampleShared]
  candidate := some "1.1"

theorem updates_sampleSharing :
    (ofSeries "jammy").updates [sampleSharing] = [⟨"bash", sampleShared, .esmApps, "esm"⟩] ∧
      (ofSeries "jammy-apps").updates [sampleSharing] =
        [⟨"bash", sampleShared, .standardSecurity, "archive"⟩] := by
  have hgt : Version.compare? "1.1" "1.0" = some .gt := by cbv
  constructor
  all_goals
    simp only [updates, sampleSharing, sampleShared, List.flatMap_cons, List.filterMap_cons, update?, hgt]
    decide +kernel

theorem service?_apart_sampleShared :
    "jammy" ≠ "jammy-apps" ∧
      ∃ origin ∈ sampleShared.origins, ∃ origin' ∈ sampleShared.origins, origin ≠ origin' ∧
        (ofSeries "jammy").service? origin = some .esmApps ∧
        (ofSeries "jammy-apps").service? origin' = some .standardSecurity := by
  have hne : "jammy" ≠ "jammy-apps" := by decide
  obtain ⟨hjammy, happs⟩ := updates_sampleSharing
  have hupdate : ⟨"bash", sampleShared, .esmApps, "esm"⟩ ∈
      ((ofSeries "jammy").scan [sampleSharing]).under .esmApps :=
    mem_under_scan.mpr ⟨hjammy ▸ List.mem_singleton_self _, rfl⟩
  have hupdate' : ⟨"bash", sampleShared, .standardSecurity, "archive"⟩ ∈
      ((ofSeries "jammy-apps").scan [sampleSharing]).under .standardSecurity :=
    mem_under_scan.mpr ⟨happs ▸ List.mem_singleton_self _, rfl⟩
  exact ⟨hne, service?_ofSeries_apart.2.2 _ _ hne _ _ _ _ _ hupdate _ hupdate' rfl⟩

end OriginTable

end UpdatePosture
