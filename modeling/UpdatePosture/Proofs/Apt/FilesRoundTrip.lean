import Mathlib
import UpdatePosture.Proofs.Apt.PackageFiles

/-!
# Reading the table of package files back

How a package tool writes its table of package files (`ListedFile.table`), and what can be written that way
without ambiguity (`ListedFile.WellFormed`). The location of each file opens a section of its own, so that nothing
of a file reaches another one, and the pinned packages end the table whatever follows them. Main statement: the
origin at a location is that of the last file that was written with the location (`origin?_read_table`).
-/

namespace UpdatePosture.Apt

open Text

/-! ## The format -/

/-- A package file as a package tool lists it. -/
structure ListedFile where
  priority : Int32
  location : String
  /-- The version of the release, such as `22.04`. -/
  version : String
  label : String
  archive : String
  codename : String
  title : String
  component : String
  architecture : String
  /-- The host that the file was fetched from, if it was fetched. -/
  site : Option String
  deriving DecidableEq, Repr

namespace ListedFile

/-- The fields of the release row before the last. -/
def leadingFields (file : ListedFile) : List (Char × String) :=
  [('v', file.version), ('o', file.label), ('a', file.archive), ('n', file.codename), ('l', file.title),
    ('c', file.component)]

/-- The fields of the release row, with their keys. -/
def fields (file : ListedFile) : List (Char × String) :=
  file.leadingFields ++ [('b', file.architecture)]

def fieldText (field : Char × String) : String :=
  String.singleton field.1 ++ "=" ++ field.2

def locationLine (file : ListedFile) : String :=
  " " ++ toString file.priority.toInt ++ " " ++ file.location

def releaseLine (file : ListedFile) : String :=
  "     release " ++ ",".intercalate (file.fields.map fieldText)

def siteLine (site : String) : String :=
  "     origin " ++ site

def lines (file : ListedFile) : List String :=
  file.locationLine :: file.releaseLine :: file.site.toList.map siteLine

/-- The table, each line ended by a line feed, up to the pinned packages, and what comes behind these words. -/
def table (files : List ListedFile) (tail : String) : String :=
  String.join (("Package files:" :: files.flatMap lines).map fun line => line ++ "\n") ++ "Pinned packages:" ++ tail

/-- A value in the release row ends at a comma. A location and a site must be such that trimming leaves them as
they are. -/
@[mk_iff]
structure WellFormed (file : ListedFile) : Prop where
  location_ne : file.location ≠ ""
  location_trimmed : trim file.location.toList = file.location.toList
  location_line : '\n' ∉ file.location.toList
  field_line : ∀ field ∈ file.fields, '\n' ∉ field.2.toList
  field_comma : ∀ field ∈ file.fields, ',' ∉ field.2.toList
  site_trimmed : ∀ site ∈ file.site, trim site.toList = site.toList
  site_line : ∀ site ∈ file.site, '\n' ∉ site.toList

instance (file : ListedFile) : Decidable file.WellFormed :=
  decidable_of_iff _ (wellFormed_iff file).symm

/-- What is to be read of a file. -/
def origin (file : ListedFile) : Origin where
  label := file.label
  archive := file.archive
  component := file.component
  site := file.site.getD ""

/-! ## The row with the location -/

variable {file : ListedFile}

/-- The row with the location, without white space around it. -/
def locationRow (file : ListedFile) : List Char :=
  integerChars file.priority.toInt ++ ' ' :: file.location.toList

theorem toList_locationLine (file : ListedFile) : file.locationLine.toList = " ".toList ++ file.locationRow := by
  simp [locationLine, locationRow, integerChars]

theorem WellFormed.location_toList_ne (h : file.WellFormed) : file.location.toList ≠ [] :=
  fun hnil => h.location_ne (String.toList_eq_nil_iff.mp hnil)

theorem head?_locationRow {c : Char} (h : c ∈ file.locationRow.head?) : c ∈ integerChars file.priority.toInt := by
  rw [locationRow, List.head?_append_of_ne_nil _ (integerChars_ne_nil _)] at h
  exact List.mem_of_mem_head? h

theorem trim_locationLine (h : file.WellFormed) : trim file.locationLine.toList = file.locationRow := by
  rw [toList_locationLine, trim_append (List.all_eq_true.mp rfl)]
  refine trim_eq_self_iff.mpr ⟨fun c hc => isBlank_of_mem_integerChars (head?_locationRow hc), fun c hc => ?_⟩
  rw [locationRow, List.getLast?_append_of_ne_nil _ (List.cons_ne_nil _ _),
    List.getLast?_cons_of_ne_nil h.location_toList_ne] at hc
  exact (trim_eq_self_iff.mp h.location_trimmed).2 c hc

theorem location?_locationRow (h : file.WellFormed) : location? file.locationRow = some file.location := by
  rw [locationRow, location?_integerChars _ h.location_toList_ne h.location_trimmed, String.ofList_toList]

/-! ## The release row -/

/-- The characters of a field. -/
def fieldChars (field : Char × String) : List Char :=
  field.1 :: '=' :: field.2.toList

/-- A release row with these fields. -/
def releaseRow (fields : List (Char × String)) : List Char :=
  "release ".toList ++ [','].intercalate (fields.map fieldChars)

theorem toList_releaseLine (file : ListedFile) :
    file.releaseLine.toList = "     ".toList ++ releaseRow file.fields := by
  have hfields : (",".intercalate (file.fields.map fieldText)).toList =
      [','].intercalate (file.fields.map fieldChars) := by
    rw [String.toList_intercalate, List.map_map]
    refine congrArg _ (List.map_congr_left fun field _ => ?_)
    simp [fieldText, fieldChars]
  rw [releaseLine, String.toList_append, hfields]
  rfl

/-- Trimming takes nothing from a row of fields but white space at the end of the last value. -/
theorem trim_fields {start : List Char} (hne : start ≠ []) (hstart : ∀ c ∈ start.head?, isBlank c = false)
    {leading : List (Char × String)} (hleading : leading ≠ []) {key : Char} (hkey : isBlank key = false)
    (value : String) :
    trim (start ++ [','].intercalate ((leading ++ [(key, value)]).map fieldChars)) =
      start ++ [','].intercalate
        ((leading ++ [(key, String.ofList (trimEnd value.toList))]).map fieldChars) := by
  have hrow (value : String) : start ++ [','].intercalate ((leading ++ [(key, value)]).map fieldChars) =
      (start ++ [','].intercalate (leading.map fieldChars) ++ [',', key]) ++ '=' :: value.toList := by
    have hpieces : leading.map fieldChars ≠ [] := by simpa using hleading
    rw [List.map_append, List.map_singleton, intercalate_concat hpieces, fieldChars]
    simp
  rw [hrow, hrow, String.toList_ofList]
  have hlast : ∀ c ∈ (start ++ [','].intercalate (leading.map fieldChars) ++ [',', key]).getLast?,
      isBlank c = false := by
    intro c hc
    rw [List.getLast?_append_of_ne_nil _ (List.cons_ne_nil _ _)] at hc
    cases hc
    exact hkey
  have htrim : trim (start ++ [','].intercalate (leading.map fieldChars) ++ [',', key]) =
      start ++ [','].intercalate (leading.map fieldChars) ++ [',', key] := by
    refine trim_eq_self_iff.mpr ⟨fun c hc => hstart c ?_, hlast⟩
    rwa [List.append_assoc, List.head?_append_of_ne_nil _ hne] at hc
  rw [trim_append_cons _ hlast (by decide), htrim]
  rw [htrim]
  exact List.append_ne_nil_of_right_ne_nil _ (List.cons_ne_nil _ _)

/-- The fields are found again between the commas. -/
theorem releaseFields_releaseRow {fields : List (Char × String)} (hne : fields ≠ [])
    (hkey : ∀ field ∈ fields, field.1 ≠ ',') (hvalue : ∀ field ∈ fields, ',' ∉ field.2.toList) :
    releaseFields (releaseRow fields) = fields.map fieldChars := by
  have hcomma : ∀ piece ∈ fields.map fieldChars, ',' ∉ piece := by
    intro piece hpiece
    obtain ⟨field, hfield, rfl⟩ := List.mem_map.mp hpiece
    refine List.not_mem_cons_of_ne_of_not_mem (hkey field hfield).symm ?_
    exact List.not_mem_cons_of_ne_of_not_mem (by decide) (hvalue field hfield)
  have hafter : after? "release " (releaseRow fields) = some ([','].intercalate (fields.map fieldChars)) :=
    after?_append _ _
  rw [releaseFields, hafter, Option.elim_some, List.splitOn_intercalate _ hcomma (by simpa using hne)]

theorem valueOf?_fieldChars {field : Char × String} (h : field.1 ≠ '=') (key : Char) :
    valueOf? key (fieldChars field) = if field.1 = key then some field.2 else none := by
  have hcut : cutFirst? (· == '=') (fieldChars field) = some ([field.1], field.2.toList) :=
    cutFirst?_append_cons (show '=' ∉ [field.1] by simpa using h.symm) _
  rw [valueOf?, hcut, Option.bind_some]
  simp

/-- The fields as they are read. -/
def trimmedFields (file : ListedFile) : List (Char × String) :=
  file.leadingFields ++ [('b', String.ofList (trimEnd file.architecture.toList))]

theorem trim_releaseLine (file : ListedFile) : trim file.releaseLine.toList = releaseRow file.trimmedFields := by
  have hstart : ∀ c ∈ "release ".toList.head?, isBlank c = false := by
    rintro c ⟨⟩
    decide
  rw [toList_releaseLine, trim_append (List.all_eq_true.mp rfl)]
  exact trim_fields (by decide) hstart (List.cons_ne_nil _ _) (by decide) _

theorem comma_notMem_trimmedFields (h : file.WellFormed) : ∀ field ∈ file.trimmedFields, ',' ∉ field.2.toList := by
  intro field hfield
  rcases List.mem_append.mp hfield with hleading | hlast
  · exact h.field_comma field (List.mem_append_left _ hleading)
  · obtain rfl := List.mem_singleton.mp hlast
    have hcomma := h.field_comma ('b', file.architecture) (List.mem_append_right _ (List.mem_singleton_self _))
    have hkept := trimEnd_prefix file.architecture.toList
    rw [String.toList_ofList]
    exact fun hmem => hcomma (hkept.subset hmem)

/-- The keys of a release row, whatever its values. -/
theorem key_ne {key : Char} (h : key ∉ ['v', 'o', 'a', 'n', 'l', 'c', 'b']) (architecture : String) :
    ∀ field ∈ file.leadingFields ++ [('b', architecture)], field.1 ≠ key := by
  rintro field hfield rfl
  have hmem : field.1 ∈ (file.leadingFields ++ [('b', architecture)]).map Prod.fst := List.mem_map_of_mem hfield
  exact h hmem

/-- What the release row of a file sets a key to. -/
theorem filterMap_releaseRow (h : file.WellFormed) (key : Char) :
    (releaseFields (releaseRow file.trimmedFields)).filterMap (valueOf? key) =
      file.trimmedFields.filterMap fun field => if field.1 = key then some field.2 else none := by
  have hvalue : ∀ field ∈ file.trimmedFields,
      valueOf? key (fieldChars field) = if field.1 = key then some field.2 else none :=
    fun field hfield => valueOf?_fieldChars (key_ne (by decide) _ field hfield) key
  have hfields : releaseFields (releaseRow file.trimmedFields) = file.trimmedFields.map fieldChars :=
    releaseFields_releaseRow (List.append_ne_nil_of_right_ne_nil _ (List.cons_ne_nil _ _))
      (key_ne (by decide) _) (comma_notMem_trimmedFields h)
  rw [hfields, List.filterMap_map]
  exact List.filterMap_congr hvalue

theorem location?_releaseRow (fields : List (Char × String)) : location? (releaseRow fields) = none := by
  have hrow : releaseRow fields = "release".toList ++ ' ' :: [','].intercalate (fields.map fieldChars) := rfl
  rw [hrow, location?_eq_none (by decide) (by decide)]

/-! ## The row with the site -/

/-- A site that is empty leaves nothing behind the word to be read. -/
theorem trim_siteLine {site : String} (h : trim site.toList = site.toList) :
    (site = "" ∧ trim (siteLine site).toList = "origin".toList) ∨
      trim (siteLine site).toList = "origin ".toList ++ site.toList := by
  by_cases hsite : site = ""
  · subst hsite
    exact .inl ⟨rfl, by decide⟩
  · refine .inr ?_
    have hline : (siteLine site).toList = "     ".toList ++ ("origin ".toList ++ site.toList) := by
      rw [siteLine, String.toList_append]
      rfl
    have hne : site.toList ≠ [] := fun hnil => hsite (String.toList_eq_nil_iff.mp hnil)
    rw [hline, trim_append (List.all_eq_true.mp rfl)]
    refine trim_eq_self_iff.mpr ⟨?_, fun c hc => ?_⟩
    · rintro c ⟨⟩
      decide
    · rw [List.getLast?_append_of_ne_nil _ hne] at hc
      exact (trim_eq_self_iff.mp h).2 c hc

section Site

variable {site : String} (h : trim site.toList = site.toList)
include h

theorem head?_siteRow : (trim (siteLine site).toList).head? = some 'o' := by
  rcases trim_siteLine h with ⟨-, hrow⟩ | hrow <;> rw [hrow] <;> rfl

theorem location?_siteRow : location? (trim (siteLine site).toList) = none := by
  rcases trim_siteLine h with ⟨-, hrow⟩ | hrow
  · rw [hrow]
    decide
  · have hword : "origin ".toList ++ site.toList = "origin".toList ++ ' ' :: site.toList := rfl
    rw [hrow, hword, location?_eq_none (by decide) (by decide)]

theorem releaseFields_siteRow : releaseFields (trim (siteLine site).toList) = [] := by
  have hnone : after? "release " (trim (siteLine site).toList) = none := by
    refine after?_eq_none (by decide) ?_
    rw [head?_siteRow h]
    decide
  rw [releaseFields, hnone, Option.elim_none]

theorem site?_siteRow : (site? (trim (siteLine site).toList)).getD "" = site := by
  rcases trim_siteLine h with ⟨rfl, hrow⟩ | hrow
  · rw [hrow]
    decide
  · have hafter : after? "origin " (trim (siteLine site).toList) = some site.toList := by rw [hrow, after?_append]
    rw [site?, hafter, Option.map_some, Option.getD_some, h, String.ofList_toList]

end Site

/-! ## The table -/

/-- The rows below the location, without white space around them. -/
def rowsBelow (file : ListedFile) : List (List Char) :=
  releaseRow file.trimmedFields :: file.site.toList.map fun site => trim (siteLine site).toList

theorem rowsBelow_cases (h : file.WellFormed) {row : List Char} (hrow : row ∈ file.rowsBelow) :
    row = releaseRow file.trimmedFields ∨
      ∃ site, file.site = some site ∧ trim site.toList = site.toList ∧ row = trim (siteLine site).toList := by
  rcases List.mem_cons.mp hrow with rfl | hmem
  · exact .inl rfl
  · obtain ⟨site, hsite, rfl⟩ := List.mem_map.mp hmem
    rw [Option.mem_toList] at hsite
    exact .inr ⟨site, hsite, h.site_trimmed site hsite, rfl⟩

theorem location?_of_mem_rowsBelow (h : file.WellFormed) : ∀ row ∈ file.rowsBelow, location? row = none := by
  intro row hrow
  rcases rowsBelow_cases h hrow with rfl | ⟨site, -, hsite, rfl⟩
  · exact location?_releaseRow _
  · exact location?_siteRow hsite

theorem isEnd_eq_false {row : List Char} (h : row.head? ≠ some 'P') : PackageFiles.isEnd row = false := by
  have hnone : after? "Pinned packages:" row = none := after?_eq_none (by decide) h.symm
  rw [PackageFiles.isEnd, startsWith, hnone, Option.isSome_none]

theorem isEnd_of_mem_rows (h : file.WellFormed) :
    ∀ row ∈ file.locationRow :: file.rowsBelow, PackageFiles.isEnd row = false := by
  intro row hrow
  refine isEnd_eq_false ?_
  rcases List.mem_cons.mp hrow with rfl | hbelow
  · intro hhead
    rcases isDigit_or_eq_of_mem_integerChars (head?_locationRow hhead) with hdigit | hsign
    · exact absurd hdigit (by decide)
    · exact absurd hsign (by decide)
  · rcases rowsBelow_cases h hbelow with rfl | ⟨site, -, hsite, rfl⟩
    · rintro ⟨⟩
    · rw [head?_siteRow hsite]
      decide

/-- The last value of a key is that of the release row, for the row with the site has no fields. -/
theorem lastValue_rowsBelow (h : file.WellFormed) (key : Char) :
    lastValue key file.rowsBelow =
      ((file.trimmedFields.filterMap fun field => if field.1 = key then some field.2 else none).getLast?).getD "" := by
  have hsite : (file.site.toList.map fun site => trim (siteLine site).toList).flatMap releaseFields = [] := by
    refine List.flatMap_eq_nil_iff.mpr fun row hrow => ?_
    obtain ⟨site, hsite, rfl⟩ := List.mem_map.mp hrow
    exact releaseFields_siteRow (h.site_trimmed site (Option.mem_toList.mp hsite))
  rw [lastValue, rowsBelow, List.flatMap_cons, hsite, List.append_nil, filterMap_releaseRow h]

/-- The rows below a location tell of their own file, and all that there is to be told. -/
theorem describedBy_rowsBelow (h : file.WellFormed) : describedBy file.rowsBelow = file.origin := by
  have hsite : ((file.rowsBelow.filterMap site?).getLast?).getD "" = file.site.getD "" := by
    have hrelease : site? (releaseRow file.trimmedFields) = none := by
      have hafter : after? "release " (releaseRow file.trimmedFields) = some _ := after?_append _ _
      rw [site?, after?_origin_eq_none hafter, Option.map_none]
    rw [rowsBelow, List.filterMap_cons_none hrelease]
    cases hfile : file.site with
    | none => rfl
    | some site =>
      have hrow := site?_siteRow (h.site_trimmed site hfile)
      cases htold : site? (trim (siteLine site).toList) with
      | none => simpa [htold] using hrow
      | some told => simpa [htold] using hrow
  rw [describedBy, lastValue_rowsBelow h, lastValue_rowsBelow h, lastValue_rowsBelow h, hsite]
  rfl

/-- The lines of the table up to the pinned packages. -/
def tableLines (files : List ListedFile) : List (List Char) :=
  ("Package files:" :: files.flatMap lines).map String.toList

theorem toList_table (files : List ListedFile) (tail : String) :
    (table files tail).toList =
      (tableLines files).flatMap (fun line => line ++ ['\n']) ++ ("Pinned packages:".toList ++ tail.toList) := by
  rw [table, String.toList_append, String.toList_append, toList_join_ended, ← tableLines, List.append_assoc]

theorem map_trim_lines (h : file.WellFormed) :
    file.lines.map (fun line => trim line.toList) = file.locationRow :: file.rowsBelow := by
  rw [lines, List.map_cons, List.map_cons, trim_locationLine h, trim_releaseLine, List.map_map, Function.comp_def,
    rowsBelow]

theorem feed_notMem_releaseLine (h : file.WellFormed) : '\n' ∉ file.releaseLine.toList := by
  have hpiece : ∀ piece ∈ file.fields.map fieldChars, '\n' ∉ piece := by
    intro piece hpiece
    obtain ⟨field, hfield, rfl⟩ := List.mem_map.mp hpiece
    have hkey : field.1 ≠ '\n' := key_ne (by decide) _ field hfield
    exact List.not_mem_cons_of_ne_of_not_mem hkey.symm
      (List.not_mem_cons_of_ne_of_not_mem (by decide) (h.field_line field hfield))
  have hrow : '\n' ∉ releaseRow file.fields :=
    List.not_mem_append (by decide) (notMem_intercalate (by decide) hpiece)
  rw [toList_releaseLine]
  exact List.not_mem_append (by decide) hrow

theorem feed_notMem_of_mem_lines (h : file.WellFormed) {line : String} (hline : line ∈ file.lines) :
    '\n' ∉ line.toList := by
  rcases List.mem_cons.mp hline with rfl | hbelow
  · have hpriority : '\n' ∉ integerChars file.priority.toInt := fun hmem =>
      absurd (isBlank_of_mem_integerChars hmem) (by decide)
    have hrow : '\n' ∉ file.locationRow :=
      List.not_mem_append hpriority (List.not_mem_cons_of_ne_of_not_mem (by decide) h.location_line)
    rw [toList_locationLine]
    exact List.not_mem_append (by decide) hrow
  · rcases List.mem_cons.mp hbelow with rfl | hmem
    · exact feed_notMem_releaseLine h
    · obtain ⟨site, hsite, rfl⟩ := List.mem_map.mp hmem
      rw [siteLine, String.toList_append]
      exact List.not_mem_append (by decide) (h.site_line site (Option.mem_toList.mp hsite))

/-- The words that end the table are told, whatever stands behind them on their line. -/
theorem isEnd_pinned (line : List Char) : PackageFiles.isEnd (trim ("Pinned packages:".toList ++ line)) = true := by
  have hlast : ∀ c ∈ "Pinned packages".toList.getLast?, isBlank c = false := by
    rintro c ⟨⟩
    decide
  have hwords : "Pinned packages:".toList ++ line = "Pinned packages".toList ++ ':' :: line := rfl
  have htrim : trim "Pinned packages".toList = "Pinned packages".toList := by decide
  have hend : trim ("Pinned packages:".toList ++ line) = "Pinned packages:".toList ++ trimEnd line := by
    rw [hwords, trim_append_cons (by decide) hlast (by decide), htrim]
    rfl
  rw [PackageFiles.isEnd, startsWith, hend, after?_append, Option.isSome_some]

/-- The rows of the table are those of the files, below the heading, even if what follows looks like more of them. -/
theorem tableRows_table {files : List ListedFile} (h : ∀ file ∈ files, file.WellFormed) (tail : String) :
    tableRows (table files tail) =
      "Package files:".toList :: files.flatMap fun file => file.locationRow :: file.rowsBelow := by
  have hfeed : ∀ line ∈ tableLines files, '\n' ∉ line := by
    intro line hline
    obtain ⟨text, htext, rfl⟩ := List.mem_map.mp hline
    rcases List.mem_cons.mp htext with rfl | hmem
    · decide
    · obtain ⟨file, hfile, htext⟩ := List.mem_flatMap.mp hmem
      exact feed_notMem_of_mem_lines (h file hfile) htext
  have hrows : ((tableLines files).map dropReturn).map trim =
      "Package files:".toList :: files.flatMap fun file => file.locationRow :: file.rowsBelow := by
    have hheading : trim "Package files:".toList = "Package files:".toList := by decide
    rw [List.map_map, Function.comp_def, List.map_congr_left fun line _ => trim_dropReturn line, tableLines,
      List.map_map, Function.comp_def, List.map_cons, hheading, List.map_flatMap]
    exact congrArg _ (List.flatMap_congr fun file hfile => map_trim_lines (h file hfile))
  have hopen : ∀ row ∈ "Package files:".toList :: files.flatMap fun file => file.locationRow :: file.rowsBelow,
      (!PackageFiles.isEnd row) = true := by
    intro row hrow
    rcases List.mem_cons.mp hrow with rfl | hmem
    · decide
    · obtain ⟨file, hfile, hrow⟩ := List.mem_flatMap.mp hmem
      rw [isEnd_of_mem_rows (h file hfile) row hrow, Bool.not_false]
  have hstart : IsLine "Pinned packages:".toList := by decide
  obtain ⟨line, more, hpinned⟩ :=
    exists_lines_append_eq_cons hstart.ne_nil hstart.no_feed hstart.getLast?_ne_return tail.toList
  rw [tableRows, toList_table, lines_flatMap_append hfeed, hpinned, List.map_append, hrows, List.map_cons,
    List.takeWhile_append_of_pos hopen, List.takeWhile_cons, isEnd_pinned, Bool.not_true,
    if_neg Bool.false_ne_true, List.append_nil]

end ListedFile

/-- Whatever follows the table, the map from locations to origins is the one that was written: a location has the
origin of the last file that was written with it, and no other location has an origin. -/
theorem origin?_read_table {files : List ListedFile} (h : ∀ file ∈ files, file.WellFormed) (tail location : String) :
    (PackageFiles.read (ListedFile.table files tail)).origin? location =
      ((files.filter (·.location == location)).getLast?).map ListedFile.origin := by
  have hheading : location? "Package files:".toList = none := by decide
  have hlocation : ∀ file ∈ files, location? file.locationRow = some file.location :=
    fun file hfile => ListedFile.location?_locationRow (h file hfile)
  have hbelow : ∀ file ∈ files, ∀ row ∈ file.rowsBelow, location? row = none :=
    fun file hfile => ListedFile.location?_of_mem_rowsBelow (h file hfile)
  have hentries : (files.map fun file => (file.location, describedBy file.rowsBelow)) =
      files.map fun file => (file.location, file.origin) :=
    List.map_congr_left fun file hfile => by rw [ListedFile.describedBy_rowsBelow (h file hfile)]
  rw [PackageFiles.origin?, entries_read, ListedFile.tableRows_table h, sections_cons_of_eq_none hheading,
    sections_flatMap hlocation hbelow, List.map_map, Function.comp_def, hentries, ← List.head?_filter,
    List.filter_reverse, List.head?_reverse, List.filter_map, List.getLast?_map, Option.map_map]
  rfl

/-- A location that is listed twice, at a negative priority first, with a value that looks like another field, and
the machine's own database, which has no site. -/
def repeatedFiles : List ListedFile :=
  [{  priority := -10
      location := "http://archive jammy/main Packages"
      version := "22.04"
      label := "Debian"
      archive := "stable"
      codename := "jammy"
      title := "Ubuntu"
      component := "contrib"
      architecture := "amd64"
      site := some "archive" },
    { priority := 100
      location := "/var/lib/dpkg/status"
      version := ""
      label := ""
      archive := "now"
      codename := ""
      title := ""
      component := ""
      architecture := ""
      site := none },
    { priority := 500
      location := "http://archive jammy/main Packages"
      version := "o=Debian"
      label := "Ubuntu"
      archive := "jammy"
      codename := "a=b=c"
      title := "Ubuntu"
      component := "main"
      architecture := "amd64 "
      site := some "" }]

/-- What follows the table, and looks like more of it. -/
def pinnedTail : String :=
  "\n 990 http://archive jammy/main Packages\n     release o=Pinned,a=pinned,c=pinned\n     origin pinned\n"

theorem origin?_read_table_repeatedFiles :
    ListedFile.table repeatedFiles pinnedTail =
        "Package files:\n" ++ " -10 http://archive jammy/main Packages\n" ++
        "     release v=22.04,o=Debian,a=stable,n=jammy,l=Ubuntu,c=contrib,b=amd64\n" ++ "     origin archive\n" ++
        " 100 /var/lib/dpkg/status\n" ++ "     release v=,o=,a=now,n=,l=,c=,b=\n" ++
        " 500 http://archive jammy/main Packages\n" ++
        "     release v=o=Debian,o=Ubuntu,a=jammy,n=a=b=c,l=Ubuntu,c=main,b=amd64 \n" ++ "     origin \n" ++
        "Pinned packages:" ++ pinnedTail ∧
      (PackageFiles.read (ListedFile.table repeatedFiles pinnedTail)).origin? "http://archive jammy/main Packages" =
        some ⟨"Ubuntu", "jammy", "main", ""⟩ ∧
      (PackageFiles.read (ListedFile.table repeatedFiles pinnedTail)).origin? "/var/lib/dpkg/status" =
        some ⟨"", "now", "", ""⟩ ∧
      (PackageFiles.read (ListedFile.table repeatedFiles pinnedTail)).origin? "http://archive jammy" = none :=
  ⟨by decide +kernel, (origin?_read_table (by decide) _ _).trans (by decide),
    (origin?_read_table (by decide) _ _).trans (by decide), (origin?_read_table (by decide) _ _).trans (by decide)⟩

end UpdatePosture.Apt
