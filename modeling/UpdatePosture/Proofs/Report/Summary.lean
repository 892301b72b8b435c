import Mathlib
import UpdatePosture.Proofs.Listing
import UpdatePosture.Proofs.Text.Numeral
import UpdatePosture.Report.Text

/-!
# Package summaries

The summary of a report is added up from the counts of the report, that of a listing from the buckets of the
partition. Main statement: they are one summary, its groups make up all packages, and so do the numbers that
are read off a text report, in which some of the groups may have no line (`summary_build`).
-/

namespace UpdatePosture

open Text

/-! ## What is added up -/

/-- Adding the counts up from the left goes past the bound at no point. -/
def SumsWithin (bound : Nat) (counts : List Nat) : Prop :=
  ∀ first, first <+: counts → first.sum ≤ bound

theorem sumsWithin_of_sum_le {bound : Nat} {counts : List Nat} (h : counts.sum ≤ bound) :
    SumsWithin bound counts := by
  rintro first ⟨rest, rfl⟩
  rw [List.sum_append] at h
  exact (Nat.le_add_right _ _).trans h

namespace PackageSummary

theorem group_ofPartition (partition : Partition) (kind : ListingKind) :
    (ofPartition partition).group kind = (kind.buckets.map partition.count).sum := by
  cases kind with
  | _ => simp [ofPartition, group, ListingKind.buckets]

section Partition

variable (table : OriginTable) (packages : List InstalledPackage)

theorem sum_group_ofPartition :
    (ListingKind.all.map (ofPartition (table.partition packages)).group).sum = packages.length := by
  have hsum := sum_count_partition table packages ListingKind.nodup_buckets fun _ => ListingKind.mem_buckets
  rw [List.map_flatMap, List.flatMap_def, List.sum_flatten, List.map_map] at hsum
  rw [← hsum]
  exact congrArg List.sum (List.map_congr_left fun kind _ => group_ofPartition _ kind)

theorem group_ofPartition_le (kind : ListingKind) :
    (ofPartition (table.partition packages)).group kind ≤ packages.length := by
  have hkind : kind ∈ ListingKind.all := by cases kind <;> decide
  rw [← sum_group_ofPartition table packages]
  exact List.single_le_sum (fun _ _ => Nat.zero_le _) _ (List.mem_map_of_mem hkind)

/-- The counts of a report are those of its partition, which a listing adds up in another order. -/
theorem ofReport_build (subscription : Subscription) :
    ofReport (Report.build table packages subscription).summary = ofPartition (table.partition packages) := by
  simp only [ofReport, Report.build, ofPartition, ListingKind.buckets, List.foldr_cons, List.foldr_nil, mk.injEq,
    and_true]
  refine ⟨rfl, ?_, ?_⟩
  · omega
  · omega

end Partition

/-! ## What is read off a text -/

/-- The number that a line starts with after its indentation, and what the line says of it. -/
def counted? (line : List Char) : Option (Nat × List Char) :=
  let text := trimStart line
  (digits? (text.takeWhile Char.isDigit)).map (·, text.dropWhile Char.isDigit)

/-- The lines up to the first empty one, as they are read. -/
def countedLines (text : String) : List (Option (Nat × List Char)) :=
  ((Text.lines text.toList).takeWhile fun line => !line.isEmpty).map counted?

/-- What a line says of a number of packages. -/
def said (count : Nat) (whence : String) : List Char :=
  s!" package{plural count} {whence}".toList

/-- A line on a number of packages. -/
def countLine (indent count : Nat) (whence : String) : List Char :=
  List.replicate indent ' ' ++ (Nat.toDigits 10 count ++ said count whence)

theorem lines_toList (summary : PackageSummary) :
    (summary.lines none).map String.toList =
      countLine 0 summary.installed "installed:" ::
        ((summary.shown none).map fun kind =>
          countLine ((toString summary.installed).length + 1) (summary.group kind) kind.whence) ++
        [[]] := by
  simp [PackageSummary.lines, countLine, groupLine, said, toString, Function.comp_def]

theorem said_eq_cons (count : Nat) (whence : String) :
    said count whence = ' ' :: ("package".toList ++ (plural count).toList ++ ' ' :: whence.toList) := by
  simp [said, toString]

theorem isLine_said (count : Nat) {whence : String} (h : IsLine whence.toList) :
    IsLine (said count whence) := by
  have hplural : '\n' ∉ (plural count).toList := by
    unfold plural
    split <;> decide
  rw [said_eq_cons]
  refine ((h.cons (by decide)).append ?_).cons (by decide)
  exact fun hmem => (List.mem_append.mp hmem).elim (by decide) hplural

theorem isLine_countLine (indent count : Nat) {whence : String} (h : IsLine whence.toList) :
    IsLine (countLine indent count whence) := by
  refine ((isLine_said count h).append ?_).append ?_
  · intro hmem
    exact absurd (Nat.isDigit_of_mem_toDigits (by decide) (by decide) hmem) (by decide)
  · exact fun hmem => absurd (List.eq_of_mem_replicate hmem) (by decide)

theorem counted?_countLine (indent count : Nat) (whence : String) :
    counted? (countLine indent count whence) = some (count, said count whence) := by
  have hblank : ∀ c ∈ List.replicate indent ' ', isBlank c := fun c hc => by
    rw [List.eq_of_mem_replicate hc]
    decide
  have hstart : trimStart (countLine indent count whence) = Nat.toDigits 10 count ++ said count whence := by
    rw [countLine, trimStart_append hblank]
    refine trimStart_eq_self fun c hc => isBlank_of_isDigit ?_
    rw [List.head?_append_of_ne_nil _ Nat.toDigits_ne_nil] at hc
    exact Nat.isDigit_of_mem_toDigits (by decide) (by decide) (List.mem_of_mem_head? hc)
  have hsaid : ∀ c ∈ (said count whence).head?, c.isDigit = false := by
    rw [said_eq_cons]
    rintro c ⟨⟩
    decide
  obtain ⟨hnumber, hafter⟩ := span_isDigit_toDigits count hsaid
  simp only [counted?, hstart, hnumber, hafter, digits?_toDigits, Option.map_some]

/-- What is read off the summary that a text opens with. -/
def readings (summary : PackageSummary) (told : List ListingKind) : List (Nat × List Char) :=
  (summary.installed, said summary.installed "installed:") ::
    told.map fun kind => (summary.group kind, said (summary.group kind) kind.whence)

theorem isLine_whence (kind : ListingKind) : IsLine kind.whence.toList := by
  cases kind <;> decide

/-- The lines that a summary consists of, before the empty one. -/
theorem exists_lines_eq (summary : PackageSummary) :
    ∃ counts, (summary.lines none).map String.toList = counts ++ [[]] ∧ (∀ line ∈ counts, IsLine line) ∧
      counts.map counted? = (summary.readings (summary.shown none)).map some := by
  refine ⟨_, lines_toList summary, ?_, ?_⟩
  · refine List.forall_mem_cons.mpr ⟨isLine_countLine 0 _ (by decide), fun line hline => ?_⟩
    obtain ⟨kind, -, rfl⟩ := List.mem_map.mp hline
    exact isLine_countLine _ _ (isLine_whence kind)
  · simp only [readings, List.map_cons, List.map_map, Function.comp_def, counted?_countLine]

/-- Whatever follows the summary, its counts end at the empty line. -/
theorem countedLines_unlines (summary : PackageSummary) (more : List String) :
    countedLines (unlines (summary.lines none ++ more)) =
      (summary.readings (summary.shown none)).map some := by
  obtain ⟨counts, hlines, hcounts, hread⟩ := exists_lines_eq summary
  have htext : (unlines (summary.lines none ++ more)).toList =
      ((counts ++ [[]]).flatMap fun line => line ++ ['\n']) ++ (unlines more).toList := by
    rw [← hlines]
    simp [unlines, List.flatMap_map]
  have hline : ∀ line ∈ counts ++ [[]], line = [] ∨ IsLine line := by
    intro line hmem
    exact (List.mem_append.mp hmem).elim (fun h => .inr (hcounts line h)) fun h => .inl (List.mem_singleton.mp h)
  have hfeed : ∀ line ∈ counts ++ [[]], '\n' ∉ line := by
    intro line hmem
    rcases hline line hmem with rfl | h
    · exact List.not_mem_nil
    · exact h.no_feed
  have hreturn : ∀ line ∈ counts ++ [[]], line.getLast? ≠ some '\r' := by
    intro line hmem
    rcases hline line hmem with rfl | h
    · exact nofun
    · exact h.getLast?_ne_return
  have hended : ∀ c ∈ ((counts ++ [[]]).flatMap fun line => line ++ ['\n']).getLast?, c = '\n' := by
    simp
  have hfull : ∀ line ∈ counts, !line.isEmpty := fun line hmem => by
    simp [(hcounts line hmem).ne_nil]
  rw [countedLines, htext, lines_append hended, lines_flatMap hfeed hreturn, List.append_assoc,
    List.takeWhile_append_of_pos hfull, ← hread]
  simp

/-- A text opens with a summary that adds up: the number of all packages, and below it the number of each
group that is told of, in their order. Only groups without packages may be passed over, and not the first. -/
structure ToldBy (summary : PackageSummary) (text : String) (told : List ListingKind) : Prop where
  read : countedLines text = (summary.readings told).map some
  ordered : told.Sublist [.esmInfra, .esmApps, .thirdParty, .unknown]
  omitted : ∀ kind ∉ told, kind ≠ .esmInfra ∧ summary.group kind = 0
  total : (told.map summary.group).sum = summary.installed

theorem toldBy_unlines {summary : PackageSummary}
    (h : (ListingKind.all.map summary.group).sum = summary.installed) (more : List String) :
    summary.ToldBy (unlines (summary.lines none ++ more)) (summary.shown none) where
  read := countedLines_unlines summary more
  ordered := List.filter_sublist
  omitted := by
    intro kind hkind
    have horder : kind ∈ ListingKind.summaryOrder := by cases kind <;> decide
    simpa [shown, horder] using hkind
  total := by
    have hperm : ListingKind.summaryOrder.Perm ListingKind.all := by decide
    have hrest : ((ListingKind.summaryOrder.filter fun kind => ¬(kind = .esmInfra ∨ 0 < summary.group kind)).map
        summary.group).sum = 0 := by
      refine List.sum_eq_zero fun count hcount => ?_
      obtain ⟨kind, hkind, rfl⟩ := List.mem_map.mp hcount
      have hempty := (List.mem_filter.mp hkind).2
      simp only [decide_eq_true_eq, not_or] at hempty
      omega
    have hsplit := List.sum_map_filter_add_sum_map_filter_not
      (fun kind => kind = .esmInfra ∨ 0 < summary.group kind) summary.group ListingKind.summaryOrder
    rw [hrest, Nat.add_zero] at hsplit
    rw [← h, ← (hperm.map _).sum_eq, ← hsplit]
    rfl

end PackageSummary

/-- The additions that lead to the summary of a report and to that of its partition, none of which goes past
the bound. -/
structure Report.FitsWithin (bound : Nat) (report : Report) (partition : Partition) : Prop where
  mainRestricted : SumsWithin bound
    [report.summary.mainComponent, report.summary.restrictedComponent, report.summary.esmInfra]
  universeMultiverse : SumsWithin bound
    [report.summary.universeComponent, report.summary.multiverseComponent, report.summary.esmApps]
  buckets : ∀ kind : ListingKind, SumsWithin bound (kind.buckets.map partition.count)

theorem fitsWithin_build (table : OriginTable) (packages : List InstalledPackage) (subscription : Subscription) :
    (Report.build table packages subscription).FitsWithin packages.length (table.partition packages) := by
  have hgroup := PackageSummary.group_ofPartition_le table packages
  have hreport := PackageSummary.ofReport_build table packages subscription
  refine ⟨sumsWithin_of_sum_le ?_, sumsWithin_of_sum_le ?_, fun kind => sumsWithin_of_sum_le ?_⟩
  · have h := hgroup .esmInfra
    rw [← hreport] at h
    simpa [PackageSummary.group, PackageSummary.ofReport, Nat.add_assoc] using h
  · have h := hgroup .esmApps
    rw [← hreport] at h
    simpa [PackageSummary.group, PackageSummary.ofReport, Nat.add_assoc] using h
  · rw [← PackageSummary.group_ofPartition]
    exact hgroup kind

/-- A report and its partition have one summary. The four groups of it make up all packages, so that no
addition goes past their number, and the numbers in a text of the report make them up too, whether or not a
group without packages has a line. -/
theorem summary_build (series : String) (packages : List InstalledPackage) (subscription : Subscription) :
    let partition := (OriginTable.ofSeries series).partition packages
    let report := Report.build (.ofSeries series) packages subscription
    let summary := PackageSummary.ofReport report.summary
    summary = .ofPartition partition ∧
      summary.installed = packages.length ∧
      summary.mainRestricted + summary.universeMultiverse + summary.thirdParty + summary.unknown =
        summary.installed ∧
      report.FitsWithin summary.installed partition ∧
      ∃ told, summary.ToldBy report.text told := by
  intro partition report summary
  have hsummary : summary = .ofPartition partition := PackageSummary.ofReport_build _ packages subscription
  have hgroups : (ListingKind.all.map summary.group).sum = summary.installed := by
    rw [hsummary]
    exact PackageSummary.sum_group_ofPartition _ packages
  refine ⟨hsummary, rfl, ?_, fitsWithin_build _ packages subscription, summary.shown none, ?_⟩
  · simp only [ListingKind.all, List.map_cons, List.map_nil, List.sum_cons, List.sum_nil,
      PackageSummary.group] at hgroups
    omega
  · rw [Report.text, Report.lines, List.append_assoc, List.append_assoc]
    exact PackageSummary.toldBy_unlines hgroups _

end UpdatePosture
