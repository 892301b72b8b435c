import Mathlib
import UpdatePosture.Apt.Installed
import UpdatePosture.Proofs.Text.Cut
import UpdatePosture.Snap

/-!
# The rows of a list

What the lists of installed packages and of container packages say, told from their text alone: which lines hold
a row (`Apt.InstalledLine`, `Snap.ContainerLine`), and that the rows of a text are those of its lines, in their
order, each as often as it stands there and none left out (`RowsOf`). Main statements: the rows of either list are
what its reader finds, and no others (`Apt.rowsOf_iff`, `Snap.rowsOf_iff`).
-/

namespace UpdatePosture

open Text

/-! ## Rows of lines -/

/-- The rows of some lines, where `Holds` says which row a line holds. -/
inductive RowsOf {ρ : Type} (Holds : List Char → ρ → Prop) : List (List Char) → List ρ → Prop
  | nil : RowsOf Holds [] []
  | row {line : List Char} {row : ρ} {lines : List (List Char)} {rows : List ρ} :
      Holds line row → RowsOf Holds lines rows → RowsOf Holds (line :: lines) (row :: rows)
  /-- A line that holds no row is passed over. -/
  | other {line : List Char} {lines : List (List Char)} {rows : List ρ} :
      (∀ row, ¬ Holds line row) → RowsOf Holds lines rows → RowsOf Holds (line :: lines) rows

/-- The rows of lines are what a reader finds that finds in each line the row that it holds. -/
theorem rowsOf_iff_of_read? {ρ : Type} {Holds : List Char → ρ → Prop} {read? : List Char → Option ρ}
    (h : ∀ line row, read? line = some row ↔ Holds line row) {lines : List (List Char)} {rows : List ρ} :
    RowsOf Holds lines rows ↔ rows = lines.filterMap read? := by
  constructor
  · intro hrows
    induction hrows with
    | nil => rfl
    | row hrow _ ih => rw [List.filterMap_cons_some ((h _ _).mpr hrow), ih]
    | other hnone _ ih =>
      have hread := Option.eq_none_iff_forall_ne_some.mpr fun row hread => hnone row ((h _ row).mp hread)
      rw [List.filterMap_cons_none hread, ih]
  · rintro rfl
    induction lines with
    | nil => exact .nil
    | cons line lines ih =>
      cases hread : read? line with
      | none =>
        rw [List.filterMap_cons_none hread]
        refine .other (fun row hrow => ?_) ih
        rw [(h line row).mpr hrow] at hread
        cases hread
      | some row =>
        rw [List.filterMap_cons_some hread]
        exact .row ((h line row).mp hread) ih

/-! ## Columns -/

/-- A line is made of these columns, with a tab between each two. -/
structure TabColumns (line : List Char) (columns : List (List Char)) : Prop where
  joined : line = ['\t'].intercalate columns
  ne_nil : columns ≠ []
  no_tab : ∀ column ∈ columns, '\t' ∉ column

theorem splitOn_tab_eq_iff {line : List Char} {columns : List (List Char)} :
    line.splitOn '\t' = columns ↔ TabColumns line columns := by
  constructor
  · rintro rfl
    exact ⟨(List.intercalate_splitOn '\t').symm, List.splitOn_ne_nil _ _, fun _ => notMem_of_mem_splitOn⟩
  · rintro ⟨rfl, hne, htab⟩
    exact List.splitOn_intercalate '\t' htab hne

/-! ## Installed packages -/

namespace Apt

/-- The line of a package that is installed and meant to be: its first column says `ii`, its second and its third
are the name and the version. -/
inductive InstalledLine (line : List Char) : String × String → Prop
  | columns {state name version : List Char} {more : List (List Char)} :
      TabColumns line (state :: name :: version :: more) →
      trim state = "ii".toList → trim name ≠ [] → trim version ≠ [] →
      InstalledLine line (String.ofList (trim name), String.ofList (trim version))

def InstalledRow.pair (row : InstalledRow) : String × String :=
  (row.name, row.version)

theorem installedRow?_pair_iff (line : List Char) (row : String × String) :
    (installedRow? line).map (·.pair) = some row ↔ InstalledLine line row := by
  constructor
  · intro h
    obtain ⟨installed, hread, rfl⟩ := Option.map_eq_some_iff.mp h
    unfold installedRow? at hread
    split at hread
    next state name version more hcolumns =>
      split at hread
      next hfilled =>
        cases hread
        exact .columns (splitOn_tab_eq_iff.mp hcolumns) hfilled.1 hfilled.2.1 hfilled.2.2
      next => cases hread
    next => cases hread
  · rintro ⟨hcolumns, hstate, hname, hversion⟩
    rw [installedRow?, splitOn_tab_eq_iff.mpr hcolumns]
    simp only [hstate, hname, hversion, ne_eq, not_false_eq_true, and_self, if_true, Option.map_some]
    rfl

/-- The rows of the list of installed packages are what its reader finds, all of them, in their order. -/
theorem rowsOf_iff {text : String} {rows : List (String × String)} :
    RowsOf InstalledLine (lines text.toList) rows ↔ rows = (installedRows text).map (·.pair) := by
  rw [rowsOf_iff_of_read? installedRow?_pair_iff, installedRows, List.map_filterMap]

end Apt

/-! ## Words -/

section Words

variable {word after : List Char}

theorem words_cons_of_isBlank {c : Char} (h : isBlank c) (text : List Char) : words (c :: text) = words text := by
  rw [words, List.splitOnP_cons_eq_if_modifyHead, if_pos h]
  rfl

theorem words_append_of_forall_isBlank {blanks : List Char} (h : ∀ c ∈ blanks, isBlank c) (text : List Char) :
    words (blanks ++ text) = words text := by
  induction blanks with
  | nil => rfl
  | cons c blanks ih =>
    obtain ⟨hc, hblanks⟩ := List.forall_mem_cons.mp h
    rw [List.cons_append, words_cons_of_isBlank hc, ih hblanks]

/-- A word ends at the end of the text or at white space. -/
theorem words_word_append (hword : IsWord (String.ofList word)) (hafter : ∀ c ∈ after.head?, isBlank c) :
    words (word ++ after) = word :: words after := by
  have hblank : ∀ c ∈ word, isBlank c = false := by simpa using hword.no_blank
  have hkept : (!word.isEmpty) = true := by simpa using hword.toList_ne_nil
  have hcut : words (word ++ after) = (word :: after.splitOnP isBlank).filter fun word => !word.isEmpty := by
    cases after with
    | nil =>
      rw [List.append_nil, words, List.splitOnP_eq_singleton hblank, List.splitOnP_nil]
      rfl
    | cons c after =>
      rw [words, List.splitOnP_append_cons _ _ (hafter c rfl), List.splitOnP_eq_singleton hblank,
        List.splitOnP_cons_eq_if_modifyHead, if_pos (hafter c rfl)]
      rfl
  rw [hcut, words]
  exact List.filter_cons_of_pos hkept

/-- A text with something else than white space in it starts with white space and a word. -/
theorem exists_word_of_ne_nil {text : List Char} (h : words text ≠ []) :
    ∃ before word after, text = before ++ word ++ after ∧ (∀ c ∈ before, isBlank c) ∧
      IsWord (String.ofList word) ∧ ∀ c ∈ after.head?, isBlank c := by
  let rest := text.dropWhile isBlank
  have htext : text.takeWhile isBlank ++ rest = text := List.takeWhile_append_dropWhile
  have hrest : rest.takeWhile (!isBlank ·) ++ rest.dropWhile (!isBlank ·) = rest := List.takeWhile_append_dropWhile
  have hbefore : ∀ c ∈ text.takeWhile isBlank, isBlank c := fun c hc => List.mem_takeWhile_imp hc
  have hafter : ∀ c ∈ (rest.dropWhile (!isBlank ·)).head?, isBlank c := fun c hc => by
    have hnot := List.head?_dropWhile_not (!isBlank ·) rest
    rw [hc] at hnot
    simpa using hnot
  refine ⟨_, _, _, by rw [List.append_assoc, hrest, htext], hbefore, ⟨fun hempty => h ?_, fun c hc => ?_⟩, hafter⟩
  · -- what is behind the white space would start with white space
    have hnil : rest.takeWhile (!isBlank ·) = [] := String.ofList_eq_empty_iff.mp hempty
    rw [← htext, words_append_of_forall_isBlank hbefore]
    cases hcut : rest with
    | nil => rfl
    | cons c others =>
      have hc : isBlank c = false := isBlank_of_head?_trimStart (congrArg List.head? hcut)
      simp [hcut, hc] at hnil
  · rw [String.toList_ofList] at hc
    simpa using List.mem_takeWhile_imp hc

/-- The first word of a text stands behind white space and before the other words. -/
theorem words_eq_cons_iff {text : List Char} {more : List (List Char)} :
    words text = word :: more ↔ ∃ before after, text = before ++ word ++ after ∧ (∀ c ∈ before, isBlank c) ∧
      IsWord (String.ofList word) ∧ (∀ c ∈ after.head?, isBlank c) ∧ words after = more := by
  constructor
  · intro h
    obtain ⟨before, first, after, rfl, hbefore, hword, hafter⟩ := exists_word_of_ne_nil (by rw [h]; simp)
    rw [List.append_assoc, words_append_of_forall_isBlank hbefore, words_word_append hword hafter] at h
    obtain ⟨rfl, rfl⟩ := List.cons.inj h
    exact ⟨before, after, rfl, hbefore, hword, hafter, rfl⟩
  · rintro ⟨before, after, rfl, hbefore, hword, hafter, rfl⟩
    rw [List.append_assoc, words_append_of_forall_isBlank hbefore, words_word_append hword hafter]

end Words

/-! ## Container packages -/

def ContainerPackage.pair (container : ContainerPackage) : String × String :=
  (container.name, container.version)

namespace Snap

/-- The line of a container package: its first word is the name, its second the version. -/
inductive ContainerLine : List Char → String × String → Prop
  | words {before between after : List Char} {name version : String} :
      (∀ c ∈ before, isBlank c) → IsWord name → between ≠ [] → (∀ c ∈ between, isBlank c) → IsWord version →
      (∀ c ∈ after.head?, isBlank c) →
      ContainerLine (before ++ name.toList ++ between ++ version.toList ++ after) (name, version)

theorem row?_pair_iff (line : List Char) (row : String × String) :
    (row? line).map (·.pair) = some row ↔ ContainerLine line row := by
  constructor
  · intro h
    obtain ⟨container, hread, rfl⟩ := Option.map_eq_some_iff.mp h
    unfold row? at hread
    split at hread
    next name version more hwords =>
      cases hread
      obtain ⟨before, rest, rfl, hbefore, hname, hrest, hmore⟩ := words_eq_cons_iff.mp hwords
      obtain ⟨between, after, rfl, hbetween, hversion, hafter, -⟩ := words_eq_cons_iff.mp hmore
      have hne : between ≠ [] := by
        rintro rfl
        obtain ⟨c, version, rfl⟩ := List.exists_cons_of_ne_nil (l := version) (by simpa using hversion.toList_ne_nil)
        have hc : isBlank c = false := hversion.no_blank c (by simp)
        rw [hrest c rfl] at hc
        cases hc
      have hline := ContainerLine.words hbefore hname hne hbetween hversion hafter
      rwa [String.toList_ofList, String.toList_ofList, List.append_assoc _ between,
        List.append_assoc _ (between ++ _)] at hline
    next => cases hread
  · rintro @⟨before, between, after, name, version, hbefore, hname, hne, hbetween, hversion, hafter⟩
    have hrest : ∀ c ∈ (between ++ version.toList ++ after).head?, isBlank c := by
      obtain ⟨c, between, rfl⟩ := List.exists_cons_of_ne_nil hne
      rintro _ ⟨⟩
      exact hbetween c List.mem_cons_self
    have hmore : Text.words (between ++ version.toList ++ after) = version.toList :: Text.words after :=
      words_eq_cons_iff.mpr ⟨between, after, rfl, hbetween, by simpa using hversion, hafter, rfl⟩
    have hwords : Text.words (before ++ name.toList ++ between ++ version.toList ++ after) =
        name.toList :: version.toList :: Text.words after :=
      words_eq_cons_iff.mpr ⟨before, between ++ version.toList ++ after, by simp only [List.append_assoc], hbefore,
        by simpa using hname, hrest, hmore⟩
    rw [row?, hwords, Option.map_some]
    simp [ContainerPackage.pair]

/-- The rows of the list of container packages, which starts with a line of titles, are what its reader finds. -/
theorem rowsOf_iff {text : String} {rows : List (String × String)} :
    RowsOf ContainerLine ((lines text.toList).drop 1) rows ↔ rows = (read text).map (·.pair) := by
  rw [rowsOf_iff_of_read? row?_pair_iff, read, List.map_filterMap]

end Snap

end UpdatePosture
