import Mathlib
import UpdatePosture.Apt.Policy
import UpdatePosture.Proofs.Sections
import UpdatePosture.Proofs.Text.Cut

/-!
# Blocks of version tables

A reply is cut into blocks at its headers, and the table of a block into rows at its versions. Main statements:
`readPolicy` reads every block on its own (`readPolicy_eq`), and in a block every version has the package
files that stand below its own row (`PolicyEntry.ofBlock`); so replies that were written one after the other
are read one by one (`readPolicy_join`).
-/

namespace UpdatePosture.Apt

open Text

/-! ## What a line says -/

namespace PolicyLine

def header? : PolicyLine → Option String
  | header name => some name
  | _ => none

def installed? : PolicyLine → Option (Option String)
  | installed value => some value
  | _ => none

def candidate? : PolicyLine → Option (Option String)
  | candidate value => some value
  | _ => none

def version? : PolicyLine → Option String
  | version found => some found
  | _ => none

def file? : PolicyLine → Option String
  | file location => some location
  | _ => none

end PolicyLine

/-- Whether a row below a header starts with a label, be it that of the table. -/
def isLabelled (row : List Char) : Bool :=
  startsWith "Installed:" row || startsWith "Candidate:" row || startsWith "Version table:" row

namespace PolicyLine

/-- What stands below a header without a label is a row of the table or of a package file, or nothing. -/
theorem read_of_isLabelled_eq_false {line : List Char} (hblank : line.head?.any isBlank)
    (h : isLabelled (trim line) = false) :
    read line = (versionRow? line).elim ((location? (trim line)).elim other file) version := by
  simp only [isLabelled, startsWith, Bool.or_eq_false_iff, Option.isSome_eq_false_iff,
    Option.isNone_iff_eq_none] at h
  obtain ⟨⟨hinstalled, hcandidate⟩, htable⟩ := h
  simp only [read, hblank, hinstalled, hcandidate, startsWith, htable]
  cases versionRow? line <;> rfl

/-- A labelled line below a header is no row. -/
theorem read_of_isLabelled {line : List Char} (hblank : line.head?.any isBlank)
    (h : isLabelled (trim line)) :
    (read line).header? = none ∧ (read line).version? = none ∧ (read line).file? = none := by
  simp only [read, hblank, if_true]
  split
  · exact ⟨rfl, rfl, rfl⟩
  next hinstalled =>
    split
    · exact ⟨rfl, rfl, rfl⟩
    next hcandidate =>
      have htable : startsWith "Version table:" (trim line) := by
        simpa [isLabelled, startsWith, hinstalled, hcandidate] using h
      rw [if_pos htable]
      exact ⟨rfl, rfl, rfl⟩

theorem read_of_installed {line value : List Char} (hblank : line.head?.any isBlank)
    (h : after? "Installed:" (trim line) = some value) : read line = installed (labelledVersion? value) := by
  simp only [read, hblank, h, if_true]

theorem read_of_candidate {line value : List Char} (hblank : line.head?.any isBlank)
    (hinstalled : after? "Installed:" (trim line) = none) (h : after? "Candidate:" (trim line) = some value) :
    read line = candidate (labelledVersion? value) := by
  simp only [read, hblank, hinstalled, h, if_true]

theorem read_of_not_isBlank {line : List Char} (h : line.head?.any isBlank = false) :
    read line = header (String.ofList (dropTrailing ':' (trim line))) := by
  simp [read, h]

theorem header?_read_eq_some_iff {line : List Char} {name : String} :
    (read line).header? = some name ↔
      line.head?.any isBlank = false ∧ String.ofList (dropTrailing ':' (trim line)) = name := by
  cases hblank : line.head?.any isBlank with
  | false => simp [read_of_not_isBlank hblank, header?]
  | true =>
    cases hlabelled : isLabelled (trim line) with
    | true => simp [read_of_isLabelled hblank hlabelled]
    | false =>
      rw [read_of_isLabelled_eq_false hblank hlabelled]
      cases versionRow? line <;> cases location? (trim line) <;> simp [header?]

/-- Every line that starts with white space belongs to the block above it. -/
theorem header?_read_eq_none_iff {line : List Char} :
    (read line).header? = none ↔ line.head?.any isBlank = true := by
  rw [Option.eq_none_iff_forall_ne_some]
  cases hblank : line.head?.any isBlank with
  | true => simp [header?_read_eq_some_iff, hblank]
  | false => simp [header?_read_eq_some_iff, hblank]

theorem version?_read_eq_some_iff {line : List Char} {found : String} :
    (read line).version? = some found ↔
      line.head?.any isBlank ∧ isLabelled (trim line) = false ∧ versionRow? line = some found := by
  cases hblank : line.head?.any isBlank with
  | false => simp [read_of_not_isBlank hblank, version?]
  | true =>
    cases hlabelled : isLabelled (trim line) with
    | true => simp [read_of_isLabelled hblank hlabelled]
    | false =>
      rw [read_of_isLabelled_eq_false hblank hlabelled]
      cases versionRow? line <;> cases location? (trim line) <;> simp [version?]

theorem file?_read_eq_some_iff {line : List Char} {location : String} :
    (read line).file? = some location ↔
      line.head?.any isBlank ∧ isLabelled (trim line) = false ∧ versionRow? line = none ∧
        location? (trim line) = some location := by
  cases hblank : line.head?.any isBlank with
  | false => simp [read_of_not_isBlank hblank, file?]
  | true =>
    cases hlabelled : isLabelled (trim line) with
    | true => simp [read_of_isLabelled hblank hlabelled]
    | false =>
      rw [read_of_isLabelled_eq_false hblank hlabelled]
      cases versionRow? line <;> cases location? (trim line) <;> simp [file?]

end PolicyLine

/-! ## What a block says -/

/-- The block of a package: the last line with a label counts, and the rows below a version are its own. -/
def PolicyEntry.ofBlock (files : PackageFiles) (name : String) (body : List PolicyLine) : PolicyEntry where
  name := name
  installed := (body.filterMap PolicyLine.installed?).getLast?.getD none
  candidate := (body.filterMap PolicyLine.candidate?).getLast?.getD none
  versions := (sections PolicyLine.version? body).map fun found =>
    ⟨found.1, (found.2.filterMap PolicyLine.file?).filterMap files.resolve?⟩

/-- Takes a row below a version into it. -/
def PolicyVersion.add (files : PackageFiles) (found : PolicyVersion) (line : PolicyLine) : PolicyVersion :=
  { found with origins := found.origins ++ (line.file?.bind files.resolve?).toList }

namespace PolicyEntry

variable {files : PackageFiles}

theorem modifyHead_add {line : PolicyLine} (h : line.file? = none) (versions : List PolicyVersion) :
    (versions.modifyHead fun found => found.add files line) = versions := by
  cases versions with
  | nil => rfl
  | cons found versions => simp [PolicyVersion.add, h]

theorem add_versions (entry : PolicyEntry) (line : PolicyLine) :
    (entry.add files line).versions =
      grow PolicyLine.version? (fun found => ⟨found, []⟩) (PolicyVersion.add files) entry.versions line := by
  cases line with
  | version found => rfl
  | file location =>
    cases hresolve : files.resolve? location <;> cases hversions : entry.versions <;>
      simp [add, grow, addOrigin, PolicyLine.version?, PolicyVersion.add, PolicyLine.file?, hresolve, hversions]
  | header _ | installed _ | candidate _ | other => exact (modifyHead_add rfl _).symm

theorem foldl_add_versions (body : List PolicyLine) (entry : PolicyEntry) :
    (body.foldl (add files) entry).versions =
      body.foldl (grow PolicyLine.version? (fun found => ⟨found, []⟩) (PolicyVersion.add files))
        entry.versions :=
  (List.foldl_hom PolicyEntry.versions fun entry line => (add_versions entry line).symm).symm

theorem add_name (entry : PolicyEntry) (line : PolicyLine) : (add files entry line).name = entry.name := by
  cases line with
  | file location => cases h : files.resolve? location <;> simp [add, h]
  | _ => rfl

theorem add_installed (entry : PolicyEntry) (line : PolicyLine) :
    (add files entry line).installed = line.installed?.getD entry.installed := by
  cases line with
  | file location => cases h : files.resolve? location <;> simp [add, h, PolicyLine.installed?]
  | _ => rfl

theorem add_candidate (entry : PolicyEntry) (line : PolicyLine) :
    (add files entry line).candidate = line.candidate?.getD entry.candidate := by
  cases line with
  | file location => cases h : files.resolve? location <;> simp [add, h, PolicyLine.candidate?]
  | _ => rfl

end PolicyEntry

theorem PolicyVersion.foldl_add {files : PackageFiles} (rows : List PolicyLine) (found : PolicyVersion) :
    rows.foldl (PolicyVersion.add files) found =
      { found with
        origins := found.origins ++ (rows.filterMap PolicyLine.file?).filterMap files.resolve? } := by
  induction rows generalizing found with
  | nil => simp
  | cons line rows ih =>
    rw [List.foldl_cons, ih]
    cases hfile : line.file? with
    | none => simp [PolicyVersion.add, hfile]
    | some location =>
      cases hresolve : files.resolve? location <;> simp [PolicyVersion.add, hfile, hresolve]

/-- The lines below a header, taken in one after the other, make up the block. -/
theorem PolicyEntry.finished_foldl_add (files : PackageFiles) (name : String) (body : List PolicyLine) :
    (body.foldl (add files) (opened name)).finished = ofBlock files name body := by
  have hname : (body.foldl (add files) (opened name)).name = name := by
    have hkeep : ∀ entry line, (add files entry line).name = (none : Option String).getD entry.name := add_name
    rw [foldl_field hkeep, List.filterMap_none]
    rfl
  have hinstalled : (body.foldl (add files) (opened name)).installed = (ofBlock files name body).installed :=
    foldl_field add_installed body _
  have hcandidate : (body.foldl (add files) (opened name)).candidate = (ofBlock files name body).candidate :=
    foldl_field add_candidate body _
  have hversions : (body.foldl (add files) (opened name)).versions.reverse =
      (ofBlock files name body).versions := by
    rw [foldl_add_versions, opened, foldl_grow, List.reverse_reverse]
    simp only [PolicyVersion.foldl_add, List.nil_append, ofBlock]
  rw [finished, hversions, hinstalled, hcandidate, hname]
  rfl

/-- A reply is read block by block. -/
theorem readPolicy_eq (files : PackageFiles) (text : String) :
    readPolicy files text =
      (sections PolicyLine.header? (policyLines text)).map fun found => .ofBlock files found.1 found.2 := by
  have hgrow : addPolicyLine files = grow PolicyLine.header? .opened (PolicyEntry.add files) := by
    funext entries line
    cases line <;> cases entries <;> rfl
  calc readPolicy files text
      = (((policyLines text).foldl (addPolicyLine files) []).map .finished).reverse := rfl
    _ = _ := by
        rw [hgrow, foldl_grow, List.map_reverse, List.reverse_reverse, List.map_map]
        exact List.map_congr_left fun found _ => PolicyEntry.finished_foldl_add files found.1 found.2

/-! ## Replies one after the other -/

/-- A text that is empty, or starts with a line at the margin and ends with a line feed. -/
def IsBlockText (text : String) : Prop :=
  text = "" ∨ text.toList.head?.any isBlank = false ∧ text.toList.getLast? = some '\n'

instance (text : String) : Decidable (IsBlockText text) :=
  inferInstanceAs (Decidable (_ ∨ _))

namespace IsBlockText

variable {text : String}

theorem ended (h : IsBlockText text) : ∀ c ∈ text.toList.getLast?, c = '\n' :=
  eq_lineFeed_of_getLast? (h.imp_right And.right)

theorem header_head? (h : IsBlockText text) : ∀ line ∈ (policyLines text).head?, line.header?.isSome := by
  rcases h with rfl | ⟨hmargin, hlast⟩
  · rintro line ⟨⟩
  · cases htext : text.toList with
    | nil => simp [htext] at hlast
    | cons c rest =>
      have hc : isBlank c = false := by simpa [htext] using hmargin
      obtain ⟨first, more, hlines⟩ := exists_lines_eq_cons hc rest
      rw [policyLines, textLines, htext, hlines, List.filter_cons_of_pos (by simp [isBlankText, hc]),
        List.map_cons]
      rintro line ⟨⟩
      rw [PolicyLine.read_of_not_isBlank (by simpa using hc)]
      rfl

end IsBlockText

theorem policyLines_join {texts : List String} (h : ∀ text ∈ texts, IsBlockText text) :
    policyLines (String.join texts) = texts.flatMap policyLines := by
  rw [policyLines, textLines, String.toList_join, lines_flatMap_of_ended fun text htext => (h text htext).ended,
    List.filter_flatMap, List.map_flatMap]
  rfl

/-- No block runs over from one text into the next. -/
theorem readPolicy_join {files : PackageFiles} {texts : List String} (h : ∀ text ∈ texts, IsBlockText text) :
    readPolicy files (String.join texts) = texts.flatMap (readPolicy files) := by
  rw [readPolicy_eq, policyLines_join h,
    sections_flatMap_of_head fun text htext => (h text htext).header_head?, List.map_flatMap]
  exact List.flatMap_congr fun text _ => (readPolicy_eq files text).symm

end UpdatePosture.Apt
