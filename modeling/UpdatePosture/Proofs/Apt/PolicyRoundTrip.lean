import Mathlib
import UpdatePosture.Proofs.Apt.PackageFiles
import UpdatePosture.Proofs.Apt.Policy
import UpdatePosture.Proofs.Apt.PolicyFormat

/-!
# Reading version tables back

Every line of a version table is read as what it was written for. The kinds of lines are told apart by how
they start: a header at the margin, a row with a version at a small indent or behind three stars, a row with a
package file at a wide indent. Main statement: `readPolicy` reads back the blocks that were written
(`readPolicy_render`).
-/

namespace UpdatePosture.Apt

open Text

/-! ## Rows -/

/-- A row without white space around it that starts with a number. -/
structure IsPlainRow (row : List Char) : Prop where
  isLine : IsLine row
  start : ∃ c rest, row = c :: rest ∧ (c.isDigit ∨ c = '-')

namespace IsPlainRow

variable {row : List Char}

theorem head?_ne (h : IsPlainRow row) {c : Char} (hc : c ∈ ['*', 'I', 'C', 'V']) : row.head? ≠ some c := by
  obtain ⟨d, rest, rfl, hd⟩ := h.start
  rintro ⟨⟩
  rcases hd with hdigit | rfl
  · simp only [List.mem_cons, List.not_mem_nil, or_false] at hc
    rcases hc with rfl | rfl | rfl | rfl <;> exact absurd hdigit (by decide)
  · exact absurd hc (by decide)

theorem isBlank_head (h : IsPlainRow row) : ∀ c ∈ row.head?, isBlank c = false := by
  obtain ⟨c, rest, rfl, hc⟩ := h.start
  rintro d ⟨⟩
  rcases hc with hdigit | rfl
  · exact isBlank_of_isDigit hdigit
  · decide

theorem trim_eq (h : IsPlainRow row) : trim row = row :=
  trim_eq_self_iff.mpr ⟨h.isBlank_head, h.isLine.last⟩

end IsPlainRow

theorem isLabelled_eq_false {row : List Char} (h : ∀ c ∈ ['I', 'C', 'V'], row.head? ≠ some c) :
    isLabelled row = false := by
  have hnot {start : String} {c : Char} (hstart : start.toList.head? = some c) (hc : c ∈ ['I', 'C', 'V']) :
      startsWith start row = false := by
    have hne : start.toList ≠ [] := by
      rintro hnil
      simp [hnil] at hstart
    have hnone : after? start row = none := by
      refine after?_eq_none hne ?_
      rw [hstart]
      exact (h c hc).symm
    rw [startsWith, hnone, Option.isSome_none]
  rw [isLabelled, hnot rfl (by decide), hnot rfl (by decide), hnot rfl (by decide)]
  rfl

theorem versionInRow?_of_remark {row version rest priority remark : List Char}
    (hrow : cutFirst? isBlank row = some (version, rest))
    (hrest : cutFirst? isBlank (trimStart rest) = some (priority, remark))
    (hpriority : (priority? priority).isSome) (hremark : isRemark (trim remark)) :
    versionInRow? row = some (String.ofList version) := by
  obtain ⟨number, hnumber⟩ := Option.isSome_iff_exists.mp hpriority
  simp only [versionInRow?, hrow, hrest, hnumber, hremark, Option.bind_eq_bind, Option.bind_some, if_true]

theorem versionInRow?_of_no_remark {row version rest : List Char}
    (hrow : cutFirst? isBlank row = some (version, rest))
    (hrest : cutFirst? isBlank (trimStart rest) = none) (hpriority : (priority? (trim rest)).isSome) :
    versionInRow? row = some (String.ofList version) := by
  obtain ⟨number, hnumber⟩ := Option.isSome_iff_exists.mp hpriority
  have hremark : isRemark [] = true := rfl
  simp only [versionInRow?, hrow, hrest, hnumber, hremark, Option.bind_eq_bind, Option.bind_some, if_true]

theorem indent_append {blanks rest : List Char} (hblanks : ∀ c ∈ blanks, isBlank c)
    (hrest : ∀ c ∈ rest.head?, isBlank c = false) :
    indent (blanks ++ rest) = (String.ofList blanks).utf8ByteSize := by
  have hnil : rest.takeWhile isBlank = [] := by
    cases rest with
    | nil => rfl
    | cons c rest => exact List.takeWhile_cons_of_neg (by simp [hrest c rfl])
  rw [indent, List.takeWhile_append_of_pos hblanks, hnil, List.append_nil]

/-- How a row is read that stands behind nothing but white space. -/
theorem read_indented {blanks row : List Char} (h : IsPlainRow row) (hblanks : ∀ c ∈ blanks, isBlank c)
    (hne : blanks ≠ []) :
    PolicyLine.read (blanks ++ row) =
      (if (String.ofList blanks).utf8ByteSize ≤ maxIndent then versionInRow? row else none).elim
        ((location? row).elim .other .file) .version := by
  have hhead : (blanks ++ row).head?.any isBlank := by
    cases blanks with
    | nil => exact absurd rfl hne
    | cons c blanks => exact hblanks c List.mem_cons_self
  have htrim : trim (blanks ++ row) = row := (trim_append hblanks row).trans h.trim_eq
  have hlabelled : isLabelled (trim (blanks ++ row)) = false := by
    rw [htrim]
    exact isLabelled_eq_false fun c hc => h.head?_ne (List.mem_cons_of_mem _ hc)
  -- without stars the indent alone decides whether the row can have a version
  have hstars : after? "***" row = none :=
    after?_eq_none (by decide) fun heq => h.head?_ne List.mem_cons_self heq.symm
  have hrow : versionRow? (blanks ++ row) =
      if (String.ofList blanks).utf8ByteSize ≤ maxIndent then versionInRow? row else none := by
    rw [versionRow?, htrim, hstars, ← indent_append hblanks h.isBlank_head]
  rw [PolicyLine.read_of_isLabelled_eq_false hhead hlabelled, hrow, htrim]

/-- How a flagged row is read, however wide its indent. -/
theorem read_flagged {row : List Char} (h : IsPlainRow row) {version : String}
    (hversion : versionInRow? row = some version) :
    PolicyLine.read (" *** ".toList ++ row) = .version version := by
  have hspace : ∀ c ∈ [' '], isBlank c := List.all_eq_true.mp rfl
  have htrim : trim (" *** ".toList ++ row) = "***".toList ++ ([' '] ++ row) := by
    have hline : IsLine ("*** ".toList ++ row) := h.isLine.append (by decide)
    have hstars : trim ("*** ".toList ++ row) = "*** ".toList ++ row := by
      refine trim_eq_self_iff.mpr ⟨?_, hline.last⟩
      rintro c ⟨⟩
      decide
    exact (trim_append hspace _).trans hstars
  have hlabelled : isLabelled (trim (" *** ".toList ++ row)) = false := by
    rw [htrim]
    refine isLabelled_eq_false ?_
    rintro c hc ⟨⟩
    exact absurd hc (by decide)
  have hrow : versionRow? (" *** ".toList ++ row) = some version := by
    rw [versionRow?, htrim, after?_append]
    -- the stars kept the blank behind them from being trimmed
    show versionInRow? (trimStart ([' '] ++ row)) = _
    rw [trimStart_append hspace, trimStart_eq_self h.isBlank_head, hversion]
  rw [PolicyLine.read_of_isLabelled_eq_false rfl hlabelled, hrow, Option.elim_some]

/-! ## The rows of a table -/

theorem trimStart_integerChars_append (n : Int) (rest : List Char) :
    trimStart (integerChars n ++ rest) = integerChars n ++ rest := by
  refine trimStart_eq_self fun c hc => ?_
  rw [List.head?_append_of_ne_nil _ (integerChars_ne_nil _)] at hc
  exact isBlank_of_mem_integerChars (List.mem_of_mem_head? hc)

theorem feed_notMem_integerChars (n : Int) : '\n' ∉ integerChars n :=
  feed_notMem_of_no_blank fun _ hc => isBlank_of_mem_integerChars hc

namespace TableRow

variable {row : TableRow}

/-- What a heading says from the priority on. -/
def details (row : TableRow) : List Char :=
  integerChars row.priority.toInt ++ (remarkText row.remark).toList

/-- What a heading says from the version on. -/
def text (row : TableRow) : List Char :=
  row.version.toList ++ ' ' :: row.details

theorem heading_toList (row : TableRow) :
    row.heading.toList = (if row.flagged then " *** ".toList else "     ".toList) ++ row.text := by
  rw [heading, text, details]
  cases row.flagged <;> simp [integerChars]

theorem details_of_eq_none (h : row.remark = none) : row.details = integerChars row.priority.toInt := by
  rw [details, h]
  exact List.append_nil _

theorem details_of_eq_some {remark : String} (h : row.remark = some remark) :
    row.details = integerChars row.priority.toInt ++ ' ' :: '(' :: (remark.toList ++ [')']) := by
  simp [details, h, remarkText]

theorem getLast?_parenthesized (remark : List Char) : ('(' :: (remark ++ [')'])).getLast? = some ')' := by
  rw [← List.cons_append, List.getLast?_concat]

theorem trim_parenthesized (remark : List Char) :
    trim ('(' :: (remark ++ [')'])) = '(' :: (remark ++ [')']) := by
  refine trim_eq_self_iff.mpr ⟨?_, ?_⟩
  · rintro c ⟨⟩
    decide
  · intro c hc
    cases (getLast?_parenthesized remark).symm.trans hc
    decide

theorem isLine_details (h : row.WellFormed) : IsLine row.details := by
  cases hremark : row.remark with
  | none =>
    rw [details_of_eq_none hremark]
    exact {
      ne_nil := integerChars_ne_nil _
      no_feed := feed_notMem_integerChars _
      last := fun c hc => isBlank_of_mem_integerChars (List.mem_of_mem_getLast? hc) }
  | some remark =>
    have hclose : IsLine [')'] := ⟨by decide, by decide, by rintro c ⟨⟩; decide⟩
    rw [details_of_eq_some hremark]
    refine IsLine.append (IsLine.cons (IsLine.cons (hclose.append ?_) (by decide)) (by decide)) ?_
    · exact h.remark_line remark hremark
    · exact feed_notMem_integerChars _

/-- The version ends at the first blank and the priority at the second, if there is one; whatever the remark is,
the parentheses keep it from being trimmed. -/
theorem versionInRow?_text (h : row.WellFormed) : versionInRow? row.text = some row.version := by
  have hpriority : ∀ c ∈ integerChars row.priority.toInt, isBlank c = false := fun c hc =>
    isBlank_of_mem_integerChars hc
  have hrow : cutFirst? isBlank row.text = some (row.version.toList, row.details) :=
    cutFirst?_append h.version_word.no_blank (by decide) _
  have hstart : trimStart row.details = row.details := trimStart_integerChars_append _ _
  have hversion : String.ofList row.version.toList = row.version := String.ofList_toList
  cases hremark : row.remark with
  | none =>
    have hdetails := details_of_eq_none hremark
    have hrest : cutFirst? isBlank (trimStart row.details) = none := by
      rw [hstart, hdetails, cutFirst?_eq_none hpriority]
    rw [versionInRow?_of_no_remark hrow hrest, hversion]
    rw [hdetails, trim_eq_self_of_forall hpriority, priority?_integerChars, Option.isSome_some]
  | some remark =>
    have hrest : cutFirst? isBlank (trimStart row.details) =
        some (integerChars row.priority.toInt, '(' :: (remark.toList ++ [')'])) := by
      rw [hstart, details_of_eq_some hremark, cutFirst?_append hpriority (by decide)]
    rw [versionInRow?_of_remark hrow hrest, hversion]
    · rw [priority?_integerChars, Option.isSome_some]
    · simp [trim_parenthesized, isRemark, getLast?_parenthesized]

theorem isPlainRow_text (h : row.WellFormed) : IsPlainRow row.text where
  isLine := ((isLine_details h).cons (by decide)).append h.version_word.isLine.no_feed
  start := by
    have hdigit := h.version_digit
    rw [text]
    cases hversion : row.version.toList with
    | nil => exact absurd hversion h.version_word.toList_ne_nil
    | cons c rest =>
      rw [hversion] at hdigit
      exact ⟨c, rest ++ ' ' :: row.details, rfl, .inl hdigit⟩

theorem isLine_heading (h : row.WellFormed) : IsLine row.heading.toList := by
  rw [heading_toList]
  cases row.flagged <;> exact (isPlainRow_text h).isLine.append (by decide)

theorem read_heading (h : row.WellFormed) : PolicyLine.read row.heading.toList = .version row.version := by
  rw [heading_toList]
  cases row.flagged with
  | true => exact read_flagged (isPlainRow_text h) (versionInRow?_text h)
  | false =>
    have hblanks : ∀ c ∈ "     ".toList, isBlank c := List.all_eq_true.mp rfl
    have hindent : (String.ofList "     ".toList).utf8ByteSize ≤ maxIndent := by decide
    rw [if_neg Bool.false_ne_true, read_indented (isPlainRow_text h) hblanks (by decide), if_pos hindent,
      versionInRow?_text h, Option.elim_some]

/-- What the line of a package file says, without its indent. -/
def fileText (file : Int32 × String) : List Char :=
  integerChars file.1.toInt ++ ' ' :: file.2.toList

theorem fileLine_toList (file : Int32 × String) :
    (fileLine file).toList = "        ".toList ++ fileText file := by
  simp [fileLine, fileText, integerChars]

section File

variable {file : Int32 × String} (h : row.WellFormed) (hfile : file ∈ row.files)
include h hfile

theorem isLine_location : IsLine file.2.toList where
  ne_nil := fun hnil => h.location_ne file hfile (String.toList_eq_nil_iff.mp hnil)
  no_feed := h.location_line file hfile
  last := (trim_eq_self_iff.mp (h.location_trimmed file hfile)).2

theorem location?_fileText : location? (fileText file) = some file.2 := by
  rw [fileText, location?_integerChars _ (isLine_location h hfile).ne_nil (h.location_trimmed file hfile),
    String.ofList_toList]

theorem isPlainRow_fileText : IsPlainRow (fileText file) where
  isLine := ((isLine_location h hfile).cons (by decide)).append (feed_notMem_integerChars _)
  start := by
    rw [fileText]
    cases hchars : integerChars file.1.toInt with
    | nil => exact absurd hchars (integerChars_ne_nil _)
    | cons c rest =>
      exact ⟨c, rest ++ ' ' :: file.2.toList, rfl,
        isDigit_or_eq_of_mem_integerChars (hchars ▸ List.mem_cons_self)⟩

theorem isLine_fileLine : IsLine (fileLine file).toList := by
  rw [fileLine_toList]
  exact (isPlainRow_fileText h hfile).isLine.append (by decide)

theorem read_fileLine : PolicyLine.read (fileLine file).toList = .file file.2 := by
  have hblanks : ∀ c ∈ "        ".toList, isBlank c := List.all_eq_true.mp rfl
  have hindent : ¬(String.ofList "        ".toList).utf8ByteSize ≤ maxIndent := by decide
  rw [fileLine_toList, read_indented (isPlainRow_fileText h hfile) hblanks (by decide), if_neg hindent,
    location?_fileText h hfile, Option.elim_none, Option.elim_some]

end File

end TableRow

/-! ## The blocks -/

namespace PolicyBlock

variable {block : PolicyBlock}

theorem isWord_versionText {version : Option String}
    (h : ∀ text ∈ version, IsWord text ∧ text ≠ "(none)") : IsWord (versionText version) := by
  cases version with
  | none =>
    refine ⟨by decide, fun c hc => ?_⟩
    rw [← Bool.not_eq_true']
    exact List.all_eq_true.mp (show ("(none)".toList.all fun c => !isBlank c) = true from rfl) c hc
  | some text => exact (h text rfl).1

theorem labelledVersion?_versionText {version : Option String}
    (h : ∀ text ∈ version, IsWord text ∧ text ≠ "(none)") :
    labelledVersion? (' ' :: (versionText version).toList) = version := by
  have hword := isWord_versionText h
  have htrim : trim (' ' :: (versionText version).toList) = (versionText version).toList := by
    show trim ([' '] ++ (versionText version).toList) = _
    rw [trim_append (List.all_eq_true.mp rfl), hword.trim_toList]
  have hempty : (versionText version).toList.isEmpty = false := List.isEmpty_eq_false_iff.mpr hword.toList_ne_nil
  rw [labelledVersion?, htrim]
  cases version with
  | none => rfl
  | some text =>
    have hnone : text.toList ≠ "(none)".toList := fun heq => (h text rfl).2 (String.toList_inj.mp heq)
    have hdone :
        ¬((versionText (some text)).toList.isEmpty ∨ (versionText (some text)).toList = "(none)".toList) := by
      rw [hempty]
      rintro (hfalse | heq)
      · exact Bool.false_ne_true hfalse
      · exact hnone heq
    rw [if_neg hdone]
    exact congrArg some String.ofList_toList

/-- A line with a label, once it is trimmed. -/
theorem trim_labelled {label text : String} {c : Char} (hlabel : label.toList.head? = some c)
    (hc : isBlank c = false) (h : IsWord text) :
    trim ("  ".toList ++ (label.toList ++ ' ' :: text.toList)) = label.toList ++ ' ' :: text.toList := by
  have hne : label.toList ≠ [] := by
    rintro hnil
    simp [hnil] at hlabel
  rw [trim_append (List.all_eq_true.mp rfl)]
  refine trim_eq_self_iff.mpr ⟨?_, ?_⟩
  · rw [List.head?_append_of_ne_nil _ hne, hlabel]
    rintro d ⟨⟩
    exact hc
  · intro d hd
    rw [List.getLast?_append_of_ne_nil _ (by simp), List.getLast?_cons_of_ne_nil h.toList_ne_nil] at hd
    exact h.isLine.last d hd

theorem read_installed (h : block.WellFormed) :
    PolicyLine.read ("  Installed: " ++ versionText block.installed).toList = .installed block.installed := by
  have hline : ("  Installed: " ++ versionText block.installed).toList =
      "  ".toList ++ ("Installed:".toList ++ ' ' :: (versionText block.installed).toList) := by simp
  have hvalue : after? "Installed:" (trim ("  Installed: " ++ versionText block.installed).toList) =
      some (' ' :: (versionText block.installed).toList) := by
    rw [hline, trim_labelled rfl (by decide) (isWord_versionText h.installed_word), after?_append]
  rw [PolicyLine.read_of_installed (by rw [hline]; rfl) hvalue, labelledVersion?_versionText h.installed_word]

theorem read_candidate (h : block.WellFormed) :
    PolicyLine.read ("  Candidate: " ++ versionText block.candidate).toList = .candidate block.candidate := by
  have hline : ("  Candidate: " ++ versionText block.candidate).toList =
      "  ".toList ++ ("Candidate:".toList ++ ' ' :: (versionText block.candidate).toList) := by simp
  have htrim : trim ("  Candidate: " ++ versionText block.candidate).toList =
      "Candidate:".toList ++ ' ' :: (versionText block.candidate).toList := by
    rw [hline, trim_labelled rfl (by decide) (isWord_versionText h.candidate_word)]
  have hinstalled :
      after? "Installed:" (trim ("  Candidate: " ++ versionText block.candidate).toList) = none := by
    rw [htrim]
    exact after?_eq_none (by decide) (by simp)
  have hvalue : after? "Candidate:" (trim ("  Candidate: " ++ versionText block.candidate).toList) =
      some (' ' :: (versionText block.candidate).toList) := by
    rw [htrim, after?_append]
  rw [PolicyLine.read_of_candidate (by rw [hline]; rfl) hinstalled hvalue,
    labelledVersion?_versionText h.candidate_word]

theorem read_header (h : block.WellFormed) :
    PolicyLine.read (block.name ++ ":").toList = .header block.name := by
  have hcolon : ∀ c ∈ (block.name ++ ":").toList, isBlank c = false := by
    intro c hc
    rw [String.toList_append, List.mem_append] at hc
    rcases hc with hname | hcolon
    · exact h.name_word.no_blank c hname
    · cases List.mem_singleton.mp hcolon
      decide
  have hhead : (block.name ++ ":").toList.head?.any isBlank = false := by
    cases hhead : (block.name ++ ":").toList.head? with
    | none => rfl
    | some c => exact hcolon c (List.mem_of_mem_head? hhead)
  rw [PolicyLine.read_of_not_isBlank hhead, trim_eq_self_of_forall hcolon, String.toList_append]
  show PolicyLine.header (String.ofList (dropTrailing ':' (block.name.toList ++ [':']))) = _
  rw [dropTrailing_append h.name_colon, String.ofList_toList]

theorem isLine_of_mem_lines (h : block.WellFormed) {line : String} (hline : line ∈ block.lines) :
    IsLine line.toList := by
  rcases List.mem_cons.mp hline with rfl | hbody
  · rw [String.toList_append]
    exact IsLine.append ⟨by decide, by decide, by rintro c ⟨⟩; decide⟩ h.name_word.isLine.no_feed
  · rcases List.mem_append.mp hbody with hlabelled | hrows
    · have hcases : line = "  Installed: " ++ versionText block.installed ∨
          line = "  Candidate: " ++ versionText block.candidate ∨ line = "  Version table:" := by
        simpa using hlabelled
      rcases hcases with rfl | rfl | rfl
      · rw [String.toList_append]
        exact (isWord_versionText h.installed_word).isLine.append (by decide)
      · rw [String.toList_append]
        exact (isWord_versionText h.candidate_word).isLine.append (by decide)
      · exact ⟨by decide, by decide, by rintro c ⟨⟩; decide⟩
    · obtain ⟨row, hrow, hmem⟩ := List.mem_flatMap.mp hrows
      rcases List.mem_cons.mp hmem with rfl | hfile
      · exact TableRow.isLine_heading (h.rows row hrow)
      · obtain ⟨file, hfile', rfl⟩ := List.mem_map.mp hfile
        exact TableRow.isLine_fileLine (h.rows row hrow) hfile'

/-- What the lines of a row say. -/
def rowLines (row : TableRow) : List PolicyLine :=
  .version row.version :: row.files.map fun file => .file file.2

/-- What the lines above the rows say. -/
def labelLines (block : PolicyBlock) : List PolicyLine :=
  [.installed block.installed, .candidate block.candidate, .other]

/-- What the lines below a header say. -/
def bodyLines (block : PolicyBlock) : List PolicyLine :=
  labelLines block ++ block.rows.flatMap rowLines

theorem map_read_lines_row {row : TableRow} (h : row.WellFormed) :
    row.lines.map (fun line => PolicyLine.read line.toList) = rowLines row := by
  rw [TableRow.lines, List.map_cons, TableRow.read_heading h, List.map_map, rowLines]
  have hfiles : ∀ file ∈ row.files, PolicyLine.read (TableRow.fileLine file).toList = .file file.2 :=
    fun _ hfile => TableRow.read_fileLine h hfile
  exact congrArg _ (List.map_congr_left hfiles)

theorem map_read_lines (h : block.WellFormed) :
    block.lines.map (fun line => PolicyLine.read line.toList) = .header block.name :: bodyLines block := by
  have hrows : (block.rows.flatMap TableRow.lines).map (fun line => PolicyLine.read line.toList) =
      block.rows.flatMap rowLines := by
    rw [List.map_flatMap]
    exact List.flatMap_congr fun row hrow => map_read_lines_row (h.rows row hrow)
  have htable : PolicyLine.read "  Version table:".toList = .other := by decide
  rw [lines, body, List.map_cons, List.map_append, hrows, read_header h, bodyLines, labelLines]
  simp only [List.map_cons, List.map_nil, read_installed h, read_candidate h, htable]

theorem render_toList (blocks : List PolicyBlock) :
    (render blocks).toList =
      ((blocks.flatMap lines).map String.toList).flatMap fun line => line ++ ['\n'] :=
  toList_join_ended _

theorem policyLines_render {blocks : List PolicyBlock} (h : ∀ block ∈ blocks, block.WellFormed) :
    policyLines (render blocks) = blocks.flatMap fun block => .header block.name :: bodyLines block := by
  have hline : ∀ line ∈ (blocks.flatMap lines).map String.toList, IsLine line := by
    intro line hmem
    obtain ⟨text, htext, rfl⟩ := List.mem_map.mp hmem
    obtain ⟨block, hblock, htext⟩ := List.mem_flatMap.mp htext
    exact isLine_of_mem_lines (h block hblock) htext
  rw [policyLines, textLines, render_toList,
    lines_flatMap (fun line hmem => (hline line hmem).no_feed)
      fun line hmem => (hline line hmem).getLast?_ne_return,
    List.filter_eq_self.mpr, List.map_map, List.map_flatMap]
  · exact List.flatMap_congr fun block hblock => map_read_lines (h block hblock)
  · intro line hmem
    rw [(hline line hmem).isBlankText_eq_false, Bool.not_false]

theorem eq_version_or_file {line : PolicyLine} (h : line ∈ block.rows.flatMap rowLines) :
    (∃ found, line = .version found) ∨ ∃ location, line = .file location := by
  obtain ⟨row, _, hline⟩ := List.mem_flatMap.mp h
  rcases List.mem_cons.mp hline with rfl | hfile
  · exact .inl ⟨_, rfl⟩
  · obtain ⟨file, _, rfl⟩ := List.mem_map.mp hfile
    exact .inr ⟨_, rfl⟩

theorem header?_eq_none_of_mem_bodyLines {line : PolicyLine} (h : line ∈ bodyLines block) :
    line.header? = none := by
  rcases List.mem_append.mp h with hlabelled | hrows
  · have hcases : line = .installed block.installed ∨ line = .candidate block.candidate ∨ line = .other := by
      simpa [labelLines] using hlabelled
    rcases hcases with rfl | rfl | rfl <;> rfl
  · rcases eq_version_or_file hrows with ⟨_, rfl⟩ | ⟨_, rfl⟩ <;> rfl

/-- No row of a version table sets the installed version or the candidate. -/
theorem filterMap_rows_eq_nil {β : Type} {tells? : PolicyLine → Option β}
    (hversion : ∀ found, tells? (.version found) = none) (hfile : ∀ location, tells? (.file location) = none) :
    (block.rows.flatMap rowLines).filterMap tells? = [] := by
  refine List.filterMap_eq_nil_iff.mpr fun line hline => ?_
  rcases eq_version_or_file hline with ⟨found, rfl⟩ | ⟨location, rfl⟩
  · exact hversion found
  · exact hfile location

theorem sections_version?_bodyLines (block : PolicyBlock) :
    sections PolicyLine.version? (bodyLines block) =
      block.rows.map fun row => (row.version, row.files.map fun file => .file file.2) := by
  have hfiles : ∀ row ∈ block.rows, ∀ line ∈ row.files.map fun file => PolicyLine.file file.2,
      line.version? = none := by
    intro row _ line hline
    obtain ⟨file, _, rfl⟩ := List.mem_map.mp hline
    rfl
  have hfirst : ∀ row ∈ block.rows, (PolicyLine.version row.version).version? = some row.version :=
    fun _ _ => rfl
  have hlabels : ∀ line ∈ labelLines block, line.version? = none := by simp [labelLines, PolicyLine.version?]
  have hrows : ∀ line ∈ (block.rows.flatMap rowLines).head?, line.version?.isSome := by
    cases block.rows with
    | nil => rintro line ⟨⟩
    | cons row rows =>
      rintro line ⟨⟩
      rfl
  rw [bodyLines, sections_append hrows, sections_eq_nil hlabels, List.nil_append]
  exact sections_flatMap hfirst hfiles

theorem ofBlock_bodyLines (files : PackageFiles) (block : PolicyBlock) :
    .ofBlock files block.name (bodyLines block) = block.entry files := by
  have hinstalled : (bodyLines block).filterMap PolicyLine.installed? = [block.installed] := by
    rw [bodyLines, List.filterMap_append, filterMap_rows_eq_nil (fun _ => rfl) fun _ => rfl]
    rfl
  have hcandidate : (bodyLines block).filterMap PolicyLine.candidate? = [block.candidate] := by
    rw [bodyLines, List.filterMap_append, filterMap_rows_eq_nil (fun _ => rfl) fun _ => rfl]
    rfl
  have hlocations (row : TableRow) :
      (row.files.map fun file => PolicyLine.file file.2).filterMap PolicyLine.file? = row.files.map (·.2) := by
    rw [List.filterMap_map, ← List.filterMap_eq_map]
    rfl
  rw [PolicyEntry.ofBlock, hinstalled, hcandidate, sections_version?_bodyLines, List.map_map, entry]
  congr 1
  refine List.map_congr_left fun row _ => ?_
  show PolicyVersion.mk row.version _ = _
  rw [hlocations, List.filterMap_map]
  rfl

end PolicyBlock

/-- Reading the tables that were written gives each package its own rows, and each version in them the origins
of its own package files. -/
theorem readPolicy_render (files : PackageFiles) {blocks : List PolicyBlock}
    (h : ∀ block ∈ blocks, block.WellFormed) :
    readPolicy files (PolicyBlock.render blocks) = blocks.map (PolicyBlock.entry files) := by
  have hheader : ∀ block ∈ blocks, (PolicyLine.header block.name).header? = some block.name := fun _ _ => rfl
  have hbody : ∀ block ∈ blocks, ∀ line ∈ PolicyBlock.bodyLines block, line.header? = none :=
    fun _ _ _ hline => PolicyBlock.header?_eq_none_of_mem_bodyLines hline
  rw [readPolicy_eq, PolicyBlock.policyLines_render h, sections_flatMap hheader hbody, List.map_map]
  exact List.map_congr_left fun block _ => PolicyBlock.ofBlock_bodyLines files block

/-- Two packages, one of them with a phased row, a row at a negative priority, and a location that nothing is
known about. -/
def phasedTables : List PolicyBlock :=
  [{  name := "libc6:amd64"
      installed := some "2.39-0ubuntu8.1"
      candidate := some "2.39-0ubuntu8.3"
      rows := [
        ⟨"2.39-0ubuntu8.3", false, 500, some "phased 20%", [(500, "http://archive updates/main Packages")]⟩,
        ⟨"2.39-0ubuntu8.1", true, 100, none, [(100, "/var/lib/dpkg/status"), (500, "http://elsewhere main")]⟩,
        ⟨"1:0", false, -10, some "", [(-10, "http://archive updates/main Packages")]⟩] },
    { name := "zlib1g", installed := none, candidate := none, rows := [] }]

theorem readPolicy_render_phasedTables :
    PolicyBlock.render phasedTables =
        "libc6:amd64:\n" ++ "  Installed: 2.39-0ubuntu8.1\n" ++ "  Candidate: 2.39-0ubuntu8.3\n" ++
        "  Version table:\n" ++ "     2.39-0ubuntu8.3 500 (phased 20%)\n" ++
        "        500 http://archive updates/main Packages\n" ++ " *** 2.39-0ubuntu8.1 100\n" ++
        "        100 /var/lib/dpkg/status\n" ++ "        500 http://elsewhere main\n" ++ "     1:0 -10 ()\n" ++
        "        -10 http://archive updates/main Packages\n" ++
        "zlib1g:\n" ++ "  Installed: (none)\n" ++ "  Candidate: (none)\n" ++ "  Version table:\n" ∧
      readPolicy ⟨[("http://archive updates/main Packages", ⟨"Ubuntu", "noble-updates", "main", "archive"⟩)]⟩
          (PolicyBlock.render phasedTables) =
        [⟨"libc6:amd64", some "2.39-0ubuntu8.1", some "2.39-0ubuntu8.3", [
            ⟨"2.39-0ubuntu8.3", [⟨"Ubuntu", "noble-updates", "main", "archive"⟩]⟩,
            ⟨"2.39-0ubuntu8.1", [.localInstall]⟩,
            ⟨"1:0", [⟨"Ubuntu", "noble-updates", "main", "archive"⟩]⟩]⟩,
          ⟨"zlib1g", none, none, []⟩] :=
  ⟨by decide +kernel, (readPolicy_render _ (by decide)).trans (by decide)⟩

end UpdatePosture.Apt
