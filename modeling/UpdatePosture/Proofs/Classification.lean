import Mathlib
import UpdatePosture.Classification
import UpdatePosture.Proofs.OriginTable

/-!
# The origin that decides

The bucket of a package is that of the first decisive origin among those that are examined. What stands after it,
and origins of other archives wherever they stand, make no difference (`Enlarged`). Main statement:
`classify_firstDecides`.
-/

namespace UpdatePosture

namespace OriginTable

/-! ## The decision of one origin -/

/-- No origin decides on standard updates, nor on the bucket for want of a decision. -/
theorem ne_of_decision?_eq_some {table : OriginTable} {origin : Origin} {bucket : Bucket}
    (h : table.decision? origin = some bucket) : bucket ≠ .standardSecurity ∧ bucket ≠ .thirdParty := by
  unfold decision? at h
  split at h
  next service hservice =>
    have hesm : service.isEsm := (Option.filter_eq_some_iff.mp hservice).2
    obtain rfl := Option.some.inj h
    constructor <;> (rintro rfl; exact absurd hesm (by decide))
  next =>
    obtain ⟨-, hbucket⟩ := Option.ite_none_right_eq_some.mp h
    obtain rfl := Option.some.inj hbucket
    cases hcomponent : Bucket.ofComponent? origin.component with
    | none => decide
    | some component =>
      have hmem := List.mem_of_find?_eq_some hcomponent
      constructor <;> (rintro rfl; simp at hmem)

/-- An origin that tells where a package belongs: the table of the series knows it for a service with a
subscription, or it is of the distribution's own archive. -/
def Decisive (series : String) (origin : Origin) : Prop :=
  (∃ rule ∈ (ofSeries series).rules, rule.service.isEsm ∧ rule.matches origin) ∨ origin.label = ubuntuLabel

/-- The bucket that an origin decides on. -/
inductive Decides (series : String) (origin : Origin) : Bucket → Prop
  | service {rule : OriginRule} : rule ∈ (ofSeries series).rules → rule.service.isEsm → rule.matches origin →
      Decides series origin rule.service
  | component {bucket : Bucket} : origin.label = ubuntuLabel →
      Bucket.ofComponent? origin.component = some bucket → Decides series origin bucket
  | otherComponent : origin.label = ubuntuLabel → Bucket.ofComponent? origin.component = none →
      Decides series origin .unknown

section Decision

variable {series : String} {origin : Origin}

theorem isEsm_of_label : ∀ pocket ∈ pockets, pocket.label = ubuntuLabel → pocket.service.isEsm = false := by
  decide

/-- The services with a subscription have archives of their own. -/
theorem decision?_of_label (h : origin.label = ubuntuLabel) :
    (ofSeries series).decision? origin = some ((Bucket.ofComponent? origin.component).getD .unknown) := by
  have hnone : ((ofSeries series).service? origin).filter (·.isEsm) = none := by
    refine Option.filter_eq_none_iff.mpr fun service hservice => ?_
    obtain ⟨pocket, hpocket, hlabel, rfl⟩ := exists_pocket_of_service? hservice
    rw [isEsm_of_label pocket hpocket (hlabel.trans h)]
    exact Bool.false_ne_true
  rw [decision?, hnone]
  exact if_pos h

theorem decision?_eq_some_iff {bucket : Bucket} :
    (ofSeries series).decision? origin = some bucket ↔ Decides series origin bucket := by
  constructor
  · intro h
    unfold decision? at h
    split at h
    next service hfilter =>
      obtain ⟨hservice, hesm⟩ := Option.filter_eq_some_iff.mp hfilter
      obtain ⟨rule, hrule, hmatches, rfl⟩ := service?_ofSeries_eq_some_iff.mp hservice
      obtain rfl := Option.some.inj h
      exact .service hrule hesm hmatches
    next =>
      obtain ⟨hlabel, hbucket⟩ := Option.ite_none_right_eq_some.mp h
      obtain rfl := Option.some.inj hbucket
      cases hcomponent : Bucket.ofComponent? origin.component with
      | none => exact .otherComponent hlabel hcomponent
      | some bucket => exact .component hlabel hcomponent
  · intro h
    cases h with
    | service hrule hesm hmatches =>
      rw [decision?, service?_ofSeries_eq_some_iff.mpr ⟨_, hrule, hmatches, rfl⟩, Option.filter_some, if_pos hesm]
    | component hlabel hcomponent => rw [decision?_of_label hlabel, hcomponent, Option.getD_some]
    | otherComponent hlabel hcomponent => rw [decision?_of_label hlabel, hcomponent, Option.getD_none]

theorem decisive_iff : Decisive series origin ↔ ∃ bucket, Decides series origin bucket := by
  constructor
  · rintro (⟨rule, hrule, hesm, hmatches⟩ | hlabel)
    · exact ⟨rule.service, .service hrule hesm hmatches⟩
    · exact ⟨_, decision?_eq_some_iff.mp (decision?_of_label hlabel)⟩
  · rintro ⟨bucket, hdecides⟩
    cases hdecides with
    | service hrule hesm hmatches => exact .inl ⟨_, hrule, hesm, hmatches⟩
    | component hlabel _ => exact .inr hlabel
    | otherComponent hlabel _ => exact .inr hlabel

theorem exists_decision?_of_decisive (h : Decisive series origin) :
    ∃ bucket, (ofSeries series).decision? origin = some bucket := by
  obtain ⟨bucket, hdecides⟩ := decisive_iff.mp h
  exact ⟨bucket, decision?_eq_some_iff.mpr hdecides⟩

theorem decision?_eq_none_iff : (ofSeries series).decision? origin = none ↔ ¬Decisive series origin := by
  rw [decisive_iff, Option.eq_none_iff_forall_ne_some, not_exists]
  exact forall_congr' fun bucket => not_congr decision?_eq_some_iff

end Decision

/-! ## The origins that are examined -/

/-- The record is that of a candidate which would change the installed version. -/
def IsUpgrade (package : InstalledPackage) (record : VersionRecord) : Prop :=
  ∃ version, package.candidate = some version ∧ version ≠ package.installed.version ∧
    package.record? version = some record

/-- The origins that speak for a package. If the installed version has one only, the candidate takes its place. -/
inductive Examined (package : InstalledPackage) : List Origin → Prop
  | installed : package.installed.origins.length ≠ 1 → Examined package package.installed.origins
  | upgrade {record : VersionRecord} : package.installed.origins.length = 1 → IsUpgrade package record →
      Examined package record.origins

section Package

variable {package : InstalledPackage}

theorem isUpgrade_iff {record : VersionRecord} :
    IsUpgrade package record ↔
      package.candidateIsInstalled = false ∧ package.candidateRecord? = some record := by
  rw [IsUpgrade, InstalledPackage.candidateIsInstalled, InstalledPackage.candidateRecord?]
  cases package.candidate with
  | none => simp
  | some version => by_cases hsame : version = package.installed.version <;> simp [hsame]

theorem examined?_eq_some_iff {origins : List Origin} :
    examined? package = some origins ↔ Examined package origins := by
  rw [examined?]
  split
  next hone =>
    rw [Option.ite_none_left_eq_some, Option.map_eq_some_iff, Bool.not_eq_true]
    constructor
    · rintro ⟨hcandidate, record, hrecord, rfl⟩
      exact .upgrade hone (isUpgrade_iff.mpr ⟨hcandidate, hrecord⟩)
    · intro h
      cases h with
      | installed hne => exact absurd hone hne
      | upgrade _ hupgrade =>
        obtain ⟨hcandidate, hrecord⟩ := isUpgrade_iff.mp hupgrade
        exact ⟨hcandidate, _, hrecord, rfl⟩
  next hne =>
    constructor
    · intro h
      obtain rfl := Option.some.inj h
      exact .installed hne
    · intro h
      cases h with
      | installed _ => rfl
      | upgrade hone _ => exact absurd hone hne

/-- Nothing is examined if the only origin of the installed version is all there is. -/
theorem examined?_eq_none (hone : package.installed.origins.length = 1)
    (hcandidate : ∀ record, ¬IsUpgrade package record) : examined? package = none := by
  refine Option.eq_none_iff_forall_ne_some.mpr fun origins h => ?_
  cases examined?_eq_some_iff.mp h with
  | installed hne => exact hne hone
  | upgrade _ hupgrade => exact hcandidate _ hupgrade

end Package

/-! ## The first origin that decides -/

/-- How the bucket of a package follows from the origins that speak for it. -/
structure FirstDecides (series : String) (package : InstalledPackage) (bucket : Bucket) : Prop where
  unexamined : package.installed.origins.length = 1 → (∀ record, ¬IsUpgrade package record) → bucket = .unknown
  first : ∀ before origin after, Examined package (before ++ origin :: after) →
    (∀ earlier ∈ before, ¬Decisive series earlier) → Decisive series origin → Decides series origin bucket
  thirdParty : ∀ origins, Examined package origins →
    (bucket = .thirdParty ↔ ∀ origin ∈ origins, ¬Decisive series origin)

section Classify

variable {series : String} {package : InstalledPackage}

theorem classify_of_examined {table : OriginTable} {origins : List Origin} (h : Examined package origins) :
    table.classify package = (origins.findSome? table.decision?).getD .thirdParty := by
  rw [classify, examined?_eq_some_iff.mpr h]

theorem findSome?_decision?_eq_none_iff {origins : List Origin} :
    origins.findSome? (ofSeries series).decision? = none ↔ ∀ origin ∈ origins, ¬Decisive series origin := by
  rw [List.findSome?_eq_none_iff]
  exact forall₂_congr fun _ _ => decision?_eq_none_iff

theorem firstDecides_classify (series : String) (package : InstalledPackage) :
    FirstDecides series package ((ofSeries series).classify package) where
  unexamined := by
    intro hone hcandidate
    rw [classify, examined?_eq_none hone hcandidate]
  first := by
    intro before origin after hexamined hbefore hdecisive
    obtain ⟨bucket, hbucket⟩ := exists_decision?_of_decisive hdecisive
    have hfirst : (before ++ origin :: after).findSome? (ofSeries series).decision? = some bucket :=
      List.findSome?_eq_some_iff.mpr
        ⟨before, origin, after, rfl, hbucket, fun earlier h => decision?_eq_none_iff.mpr (hbefore earlier h)⟩
    rw [classify_of_examined hexamined, hfirst]
    exact decision?_eq_some_iff.mp hbucket
  thirdParty := by
    intro origins hexamined
    rw [classify_of_examined hexamined, ← findSome?_decision?_eq_none_iff]
    cases hfound : origins.findSome? (ofSeries series).decision? with
    | none => simp
    | some bucket =>
      obtain ⟨origin, -, horigin⟩ := List.exists_of_findSome?_eq_some hfound
      simp [(ne_of_decision?_eq_some horigin).2]

/-- No package is placed among the standard updates, whatever the table. -/
theorem classify_ne_standardSecurity (table : OriginTable) (package : InstalledPackage) :
    table.classify package ≠ .standardSecurity := by
  unfold classify
  split
  · decide
  next origins _ =>
    cases hdecision : origins.findSome? table.decision? with
    | none => simp
    | some bucket =>
      obtain ⟨origin, -, horigin⟩ := List.exists_of_findSome?_eq_some hdecision
      exact (ne_of_decision?_eq_some horigin).1

end Classify

/-! ## Origins that make no difference -/

/-- The second list of origins is the first one with some more put in: anywhere those that are not decisive, and
after a decisive one any. -/
inductive Enlarged (series : String) : List Origin → List Origin → Prop
  | nil : Enlarged series [] []
  | keep {origins more : List Origin} (origin : Origin) : Enlarged series origins more →
      Enlarged series (origin :: origins) (origin :: more)
  | foreign {origins more : List Origin} {origin : Origin} : ¬Decisive series origin →
      Enlarged series origins more → Enlarged series origins (origin :: more)
  | settled {origins more : List Origin} {origin : Origin} : Decisive series origin → origins.Sublist more →
      Enlarged series (origin :: origins) (origin :: more)

section Enlarged

variable {series : String} {origins more : List Origin}

theorem Enlarged.sublist (h : Enlarged series origins more) : origins.Sublist more := by
  induction h with
  | nil => exact .slnil
  | keep origin _ ih => exact ih.cons_cons origin
  | foreign _ _ ih => exact ih.cons _
  | settled _ hsublist => exact hsublist.cons_cons _

theorem Enlarged.findSome?_eq (h : Enlarged series origins more) :
    more.findSome? (ofSeries series).decision? = origins.findSome? (ofSeries series).decision? := by
  induction h with
  | nil => rfl
  | keep origin _ ih => rw [List.findSome?_cons, List.findSome?_cons, ih]
  | foreign hforeign _ ih => rw [List.findSome?_cons, decision?_eq_none_iff.mpr hforeign, ih]
  | settled hdecisive _ =>
    obtain ⟨bucket, hbucket⟩ := exists_decision?_of_decisive hdecisive
    rw [List.findSome?_cons, List.findSome?_cons, hbucket]

theorem classify_enlarged {package : InstalledPackage} (hlength : 2 ≤ package.installed.origins.length)
    (h : Enlarged series package.installed.origins origins) :
    (ofSeries series).classify { package with installed := { package.installed with origins := origins } } =
      (ofSeries series).classify package := by
  have hmore : origins.length ≠ 1 := by
    have hle := h.sublist.length_le
    omega
  have hone : package.installed.origins.length ≠ 1 := by omega
  rw [classify_of_examined (.installed hmore), classify_of_examined (.installed hone), h.findSome?_eq]

end Enlarged

/-- The first decisive origin that is examined gives the bucket of a package, and a package that has none is of a
third party. So neither origins after a decisive one nor origins that are not decisive make any difference, if the
installed version has two origins without them. No package is placed among the standard updates. -/
theorem classify_firstDecides (series : String) (package : InstalledPackage) :
    FirstDecides series package ((ofSeries series).classify package) ∧
      (2 ≤ package.installed.origins.length → ∀ origins,
        Enlarged series package.installed.origins origins →
        (ofSeries series).classify { package with installed := { package.installed with origins := origins } } =
          (ofSeries series).classify package) ∧
      (ofSeries series).classify package ≠ .standardSecurity :=
  ⟨firstDecides_classify series package, fun hlength _ h => classify_enlarged hlength h,
    classify_ne_standardSecurity _ package⟩

/-- A package of the archive that another publisher has as well. -/
def sampleMixed : InstalledPackage where
  name := "chromium"
  installed := ⟨"1.0", 7, [⟨"Google LLC", "stable", "main", "dl"⟩, ⟨"Ubuntu", "jammy", "universe", "archive"⟩]⟩
  available := []
  candidate := none

/-- Neither an archive of another series nor one for maintenance that comes later takes the package over. -/
theorem classify_firstDecides_sampleMixed :
    let origins := [⟨"UbuntuESMApps", "focal-apps-security", "main", "esm"⟩,
      ⟨"Google LLC", "stable", "main", "dl"⟩, ⟨"Ubuntu", "jammy", "universe", "archive"⟩,
      ⟨"UbuntuESMApps", "jammy-apps-security", "main", "esm"⟩]
    2 ≤ sampleMixed.installed.origins.length ∧ Enlarged "jammy" sampleMixed.installed.origins origins ∧
      (ofSeries "jammy").classify
          { sampleMixed with installed := { sampleMixed.installed with origins := origins } } =
        .universeComponent := by
  intro origins
  have hlength : 2 ≤ sampleMixed.installed.origins.length := by decide
  have hforeign : ¬Decisive "jammy" ⟨"UbuntuESMApps", "focal-apps-security", "main", "esm"⟩ :=
    decision?_eq_none_iff.mp (by decide +kernel)
  have henlarged : Enlarged "jammy" sampleMixed.installed.origins origins :=
    .foreign hforeign (.keep _ (.settled (.inr rfl) (List.nil_sublist _)))
  have hbucket : (ofSeries "jammy").classify sampleMixed = .universeComponent := by decide +kernel
  exact ⟨hlength, henlarged,
    ((classify_firstDecides "jammy" sampleMixed).2.1 hlength origins henlarged).trans hbucket⟩

end OriginTable

end UpdatePosture
