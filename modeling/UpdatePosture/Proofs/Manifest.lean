import Mathlib
import UpdatePosture.Manifest
import UpdatePosture.Proofs.Apt.Index
import UpdatePosture.Proofs.Rows

/-!
# What can be read off a manifest

A manifest is plain text without any quoting. It can be taken apart again all the same, because neither of the
lists that it is made of lets a tab, a line feed or an empty field through (`isField_of_mem_installedRows`,
`isField_of_mem_read`). Main statement: every manifest gives back the rows that stand in both lists, and there is a
manifest unless a list is missing that it needs (`ends_ask`).
-/

namespace UpdatePosture

open Text Dialogue

/-! ## Taking a manifest apart -/

namespace Manifest

/-- The lines of a manifest; the piece behind the last line feed is none. -/
def lines (manifest : Manifest) : List (List Char) :=
  (manifest.data.toList.splitOn '\n').dropLast

/-- The name and the version on a line, which the first tab separates. -/
def row? (line : List Char) : Option (String × String) :=
  (cutFirst? (· == '\t') line).map fun (name, version) => (String.ofList name, String.ofList version)

/-- The rows stand in the manifest, one a line, and nothing else does. -/
structure Lists (manifest : Manifest) (rows : List (String × String)) : Prop where
  ended : (manifest.data.toList.splitOn '\n').getLast? = some []
  read : manifest.lines.map row? = rows.map some
  oneTab : ∀ line ∈ manifest.lines, line.count '\t' = 1
  filled : ∀ row ∈ rows, row.1 ≠ "" ∧ row.2 ≠ ""

end Manifest

/-- A text that can be a field of a manifest. -/
structure IsField (text : String) : Prop where
  ne_empty : text ≠ ""
  no_tab : '\t' ∉ text.toList
  no_feed : '\n' ∉ text.toList

theorem Text.IsWord.isField {text : String} (h : IsWord text) : IsField text where
  ne_empty := h.ne_empty
  no_tab := fun htab => absurd (h.no_blank _ htab) (by decide)
  no_feed := feed_notMem_of_no_blank h.no_blank

namespace Manifest

/-- A row as a line. -/
def rowLine (row : String × String) : List Char :=
  row.1.toList ++ '\t' :: row.2.toList

theorem row?_rowLine {row : String × String} (h : IsField row.1) : row? (rowLine row) = some row := by
  have hcut : cutFirst? (· == '\t') (rowLine row) = some (row.1.toList, row.2.toList) := by
    have hname : ∀ c ∈ row.1.toList, (c == '\t') = false := fun c hc =>
      beq_eq_false_iff_ne.mpr (ne_of_mem_of_not_mem hc h.no_tab)
    exact cutFirst?_append hname (by decide) row.2.toList
  rw [row?, hcut, Option.map_some]
  simp

theorem count_tab_rowLine {row : String × String} (hname : IsField row.1) (hversion : IsField row.2) :
    (rowLine row).count '\t' = 1 := by
  rw [rowLine, List.count_append, List.count_cons_self, List.count_eq_zero_of_not_mem hname.no_tab,
    List.count_eq_zero_of_not_mem hversion.no_tab]

theorem feed_notMem_rowLine {row : String × String} (hname : IsField row.1) (hversion : IsField row.2) :
    '\n' ∉ rowLine row := by
  simp [rowLine, hname.no_feed, hversion.no_feed]

/-- Fields that were each written on one line with another are found there again. -/
theorem lists_of_isField {manifest : Manifest} {rows : List (String × String)}
    (hdata : manifest.data.toList = (rows.map rowLine).flatMap fun line => line ++ ['\n'])
    (h : ∀ row ∈ rows, IsField row.1 ∧ IsField row.2) : manifest.Lists rows := by
  have hpieces : manifest.data.toList.splitOn '\n' = rows.map rowLine ++ [[]] := by
    rw [hdata, splitOn_flatMap_ended]
    exact List.forall_mem_map.mpr fun row hrow => feed_notMem_rowLine (h row hrow).1 (h row hrow).2
  have hlines : manifest.lines = rows.map rowLine := by
    rw [lines, hpieces, List.dropLast_concat]
  refine ⟨?_, ?_, ?_, fun row hrow => ⟨(h row hrow).1.ne_empty, (h row hrow).2.ne_empty⟩⟩
  · rw [hpieces, List.getLast?_concat]
  · rw [hlines, List.map_map]
    exact List.map_congr_left fun row hrow => row?_rowLine (h row hrow).1
  · rw [hlines]
    exact List.forall_mem_map.mpr fun row hrow => count_tab_rowLine (h row hrow).1 (h row hrow).2

end Manifest

/-! ## The lists that a manifest is made of -/

namespace Apt

theorem isField_of_mem_splitOn {line column : List Char} (hline : '\n' ∉ line)
    (hcolumn : column ∈ line.splitOn '\t') (hne : trim column ≠ []) : IsField (String.ofList (trim column)) where
  ne_empty := fun hempty => hne (String.ofList_eq_empty_iff.mp hempty)
  no_tab := by
    rw [String.toList_ofList]
    exact fun htab => notMem_of_mem_splitOn hcolumn (trim_subset column htab)
  no_feed := by
    rw [String.toList_ofList]
    exact fun hfeed => hline (subset_of_mem_splitOn hcolumn (trim_subset column hfeed))

theorem isField_of_mem_installedRows {text : String} {row : InstalledRow} (h : row ∈ installedRows text) :
    IsField row.name ∧ IsField row.version := by
  obtain ⟨line, hline, state, name, version, rest, hcolumns, -, hname, hversion, rfl⟩ :=
    exists_of_mem_installedRows h
  have hfeed := feed_notMem_of_mem_lines hline
  exact ⟨isField_of_mem_splitOn hfeed (by simp [hcolumns]) hname,
    isField_of_mem_splitOn hfeed (by simp [hcolumns]) hversion⟩

end Apt

theorem Snap.isField_of_mem_read {text : String} {container : ContainerPackage}
    (h : container ∈ Snap.read text) : IsField container.name ∧ IsField container.version := by
  obtain ⟨line, -, hrow⟩ := List.mem_filterMap.mp h
  unfold Snap.row? at hrow
  split at hrow
  next name version rest hwords =>
    cases hrow
    have hname : name ∈ words line := by simp [hwords]
    have hversion : version ∈ words line := by simp [hwords]
    exact ⟨(isWord_of_mem_words hname).isField, (isWord_of_mem_words hversion).isField⟩
  · cases hrow

/-! ## Manifests -/

namespace Manifest

theorem toList_data_build (rows : List Apt.InstalledRow) (containers : List ContainerPackage) :
    (build (rows.map (·.manifestLine)) containers).data.toList =
      ((rows.map (·.pair) ++ containers.map (·.pair)).map rowLine).flatMap fun line => line ++ ['\n'] := by
  have hrow (row : Apt.InstalledRow) : row.manifestLine.toList = rowLine row.pair := by
    simp [Apt.InstalledRow.manifestLine, Apt.InstalledRow.pair, rowLine]
  have hcontainer (container : ContainerPackage) :
      (container.name ++ "\t" ++ container.version).toList = rowLine container.pair := by
    simp [ContainerPackage.pair, rowLine]
  simp only [build, String.toList_join, List.map_append, List.map_map, List.flatMap_append, List.flatMap_map,
    Function.comp_apply, String.toList_append, ← hrow, ← hcontainer]
  rfl

theorem lists_build (text : String) {containers : List ContainerPackage}
    (h : ∀ container ∈ containers, IsField container.name ∧ IsField container.version) :
    (build ((Apt.installedRows text).map (·.manifestLine)) containers).Lists
      ((Apt.installedRows text).map (·.pair) ++ containers.map (·.pair)) := by
  refine lists_of_isField (toList_data_build _ _) fun row hrow => ?_
  rcases List.mem_append.mp hrow with hrow | hrow
  · obtain ⟨installed, hinstalled, rfl⟩ := List.mem_map.mp hrow
    exact Apt.isField_of_mem_installedRows hinstalled
  · obtain ⟨container, hcontainer, rfl⟩ := List.mem_map.mp hrow
    exact h container hcontainer

/-- How a manifest ends, by what becomes of the list of installed packages and of that of container packages.
It needs the first, and does without the second on a machine that has no container packages. -/
inductive Ends (installed containers : Except Failure String) : Except Failure Manifest → Prop
  | both {text list : String} {rows containerRows : List (String × String)} {manifest : Manifest} :
      installed = .ok text → containers = .ok list →
      RowsOf Apt.InstalledLine (Text.lines text.toList) rows →
      RowsOf Snap.ContainerLine ((Text.lines list.toList).drop 1) containerRows →
      manifest.Lists (rows ++ containerRows) → Ends installed containers (.ok manifest)
  | noContainers {text : String} {failure : Failure} {rows : List (String × String)} {manifest : Manifest} :
      installed = .ok text → containers = .error failure → failure.kind = .unavailable →
      RowsOf Apt.InstalledLine (Text.lines text.toList) rows → manifest.Lists rows →
      Ends installed containers (.ok manifest)
  | containersFailed {text : String} {failure : Failure} :
      installed = .ok text → containers = .error failure → failure.kind ≠ .unavailable →
      Ends installed containers (.error failure)
  | installedFailed {failure : Failure} :
      installed = .error failure → Ends installed containers (.error failure)

end Manifest

section Run

variable {Q : Type}

theorem runFrom_manifestLines (tools : Apt.Tools Q) (asked : List Q) :
    runFrom (Apt.manifestLines tools) asked =
      ((runFrom (tools .installed) asked).1.map fun text => (Apt.installedRows text).map (·.manifestLine),
        (runFrom (tools .installed) asked).2) := by
  rw [← runFrom_map, map_eq_pure_bind]
  rfl

/-- The container packages, from what becomes of their list. -/
theorem runFrom_snapPackages (list : Dialogue Q String) (asked : List Q) :
    runFrom (Snap.packages list) asked =
      (match (runFrom list asked).1 with
        | .ok text => .ok (Snap.read text)
        | .error failure => if failure.kind = .unavailable then .ok [] else .error failure,
        (runFrom list asked).2) := by
  rw [Snap.packages, runFrom_tryCatch, runFrom_map]
  cases (runFrom list asked).1 with
  | ok text => rfl
  | error failure => by_cases hkind : failure.kind = .unavailable <;> simp [Except.map, hkind]

/-- Asked of any tools, a manifest ends as it should: it lists the rows that stand in both lists, in their order and
as often, or the failure of a list that it needs is passed on. -/
theorem ends_ask (tools : Apt.Tools Q) (list : Dialogue Q String) (asked : List Q) :
    Manifest.Ends (runFrom (tools .installed) asked).1 (runFrom list (runFrom (tools .installed) asked).2).1
      (runFrom (Manifest.ask (Apt.manifestLines tools) (Snap.packages list)) asked).1 := by
  rw [Manifest.ask, runFrom_bind, runFrom_manifestLines]
  cases hinstalled : (runFrom (tools .installed) asked).1 with
  | error failure => exact .installedFailed rfl
  | ok text =>
    have hrows := Apt.rowsOf_iff.mpr (Eq.refl ((Apt.installedRows text).map (·.pair)))
    simp only [Except.map, runFrom_bind, runFrom_snapPackages]
    cases hcontainers : (runFrom list (runFrom (tools .installed) asked).2).1 with
    | ok containers =>
      exact .both rfl rfl hrows (Snap.rowsOf_iff.mpr rfl)
        (Manifest.lists_build text fun container => Snap.isField_of_mem_read)
    | error failure =>
      by_cases hkind : failure.kind = .unavailable
      · have hlists := Manifest.lists_build text (List.forall_mem_nil _)
        rw [List.map_nil, List.append_nil] at hlists
        simp only [hkind, if_true]
        exact .noContainers rfl rfl hkind hrows hlists
      · simp only [hkind, if_false]
        exact .containersFailed rfl rfl hkind

end Run

/-! A list of packages with one that is removed and one that stands there twice, and a list of container packages. -/

def Apt.sampleList : String :=
  "ii \tadduser\t3.137\nrc \tftp\t0.17\nii \tlinux\t6.8.0\t-\nii \tlinux\t6.8.0\n"

def Snap.sampleList : String :=
  "Name    Version  Rev\ncore22  2024     1122\n"

theorem rowsOf_sampleList :
    RowsOf Apt.InstalledLine (lines Apt.sampleList.toList)
        [("adduser", "3.137"), ("linux", "6.8.0"), ("linux", "6.8.0")] ∧
      RowsOf Snap.ContainerLine ((lines Snap.sampleList.toList).drop 1) [("core22", "2024")] :=
  ⟨Apt.rowsOf_iff.mpr (by cbv), Snap.rowsOf_iff.mpr (by decide)⟩

/-- The manifest of the sample packages, with container packages from some list. -/
def Manifest.askSample (list : Dialogue Unit String) : Dialogue Unit Manifest :=
  Manifest.ask (Apt.manifestLines fun _ => pure Apt.sampleList) (Snap.packages list)

/-- The manifest of both lists, and the one of a machine without container packages. -/
theorem ends_ask_sampleList :
    (∃ manifest : Manifest, (runFrom (Manifest.askSample (pure Snap.sampleList)) []).1 = .ok manifest ∧
      manifest.data = "adduser\t3.137\nlinux\t6.8.0\nlinux\t6.8.0\ncore22\t2024\n" ∧
      manifest.Lists [("adduser", "3.137"), ("linux", "6.8.0"), ("linux", "6.8.0"), ("core22", "2024")]) ∧
    ∃ failure : Failure, failure.kind = .unavailable ∧ ∃ manifest : Manifest,
      (runFrom (Manifest.askSample (throw failure)) []).1 = .ok manifest ∧
      manifest.data = "adduser\t3.137\nlinux\t6.8.0\nlinux\t6.8.0\n" ∧
      manifest.Lists [("adduser", "3.137"), ("linux", "6.8.0"), ("linux", "6.8.0")] := by
  obtain ⟨hinstalled, hcontainers⟩ := rowsOf_sampleList
  constructor
  · have hrun : (runFrom (Manifest.askSample (pure Snap.sampleList)) []).1 =
        .ok ⟨"adduser\t3.137\nlinux\t6.8.0\nlinux\t6.8.0\ncore22\t2024\n"⟩ := by cbv
    have hend := ends_ask (Q := Unit) (fun _ => pure Apt.sampleList) (pure Snap.sampleList) []
    rw [← Manifest.askSample, hrun] at hend
    refine ⟨_, hrun, rfl, ?_⟩
    cases hend with
    | both htext hlist hrows hrows' hlists =>
      cases htext
      cases hlist
      rwa [Apt.rowsOf_iff.mp hrows, Snap.rowsOf_iff.mp hrows', ← Apt.rowsOf_iff.mp hinstalled,
        ← Snap.rowsOf_iff.mp hcontainers] at hlists
    | noContainers _ hlist _ _ _ => cases hlist
  · let failure := Snap.request.failure (.notStarted "snap" ⟨true, "no such file"⟩)
    have hrun : (runFrom (Manifest.askSample (throw failure)) []).1 =
        .ok ⟨"adduser\t3.137\nlinux\t6.8.0\nlinux\t6.8.0\n"⟩ := by cbv
    have hend := ends_ask (Q := Unit) (fun _ => pure Apt.sampleList) (throw failure) []
    rw [← Manifest.askSample, hrun] at hend
    refine ⟨failure, rfl, _, hrun, rfl, ?_⟩
    cases hend with
    | both _ hlist _ _ _ => cases hlist
    | noContainers htext _ _ hrows hlists =>
      cases htext
      rwa [Apt.rowsOf_iff.mp hrows, ← Apt.rowsOf_iff.mp hinstalled] at hlists

end UpdatePosture
