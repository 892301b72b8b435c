import Mathlib
import UpdatePosture.Apt.PackageFiles
import UpdatePosture.Proofs.Sections
import UpdatePosture.Proofs.Text.Numeral

/-!
# Sections of the table of package files

The table of package files is cut into sections at its locations, and the origin at a location is told by the
rows of one section alone (`Origin.ofRows`). Main statement: where a location opens several sections, the last
of them counts (`origin?_read_eq_some`).
-/

namespace UpdatePosture.Apt

open Text

/-- The rows of the table, without white space around them. -/
def tableRows (text : String) : List (List Char) :=
  ((lines text.toList).map trim).takeWhile fun row => !PackageFiles.isEnd row

/-! ## Rows that open an entry -/

/-- The priority ends at the first space, whatever spaces the location has. -/
theorem location?_integerChars (priority : Int32) {location : List Char} (hne : location ≠ [])
    (htrim : trim location = location) :
    location? (integerChars priority.toInt ++ ' ' :: location) = some (String.ofList location) := by
  have hspace : ' ' ∉ integerChars priority.toInt := fun hmem =>
    absurd (isBlank_of_mem_integerChars hmem) (by decide)
  have hempty : location.isEmpty = false := List.isEmpty_eq_false_iff.mpr hne
  rw [location?, cutFirst?_append_cons hspace]
  simp only [Option.bind_eq_bind, Option.bind_some, priority?_integerChars, htrim, hempty, Bool.false_eq_true,
    if_false]

/-- A row whose first word is no number opens nothing. -/
theorem location?_eq_none {word : List Char} (hspace : ' ' ∉ word) (hword : priority? word = none)
    (rest : List Char) : location? (word ++ ' ' :: rest) = none := by
  rw [location?, cutFirst?_append_cons hspace]
  simp only [Option.bind_eq_bind, Option.bind_some, hword, Option.bind_none]

/-! ## What the rows below a location say -/

/-- The fields of a release row. -/
def releaseFields (row : List Char) : List (List Char) :=
  (after? "release " row).elim [] fun fields => fields.splitOn ','

/-- What a field sets `key` to. -/
def valueOf? (key : Char) (field : List Char) : Option String :=
  (cutFirst? (· == '=') field).bind fun (name, value) =>
    if name = [key] then some (String.ofList value) else none

/-- What an origin row says. -/
def site? (row : List Char) : Option String :=
  (after? "origin " row).map fun site => String.ofList (trim site)

/-- The last value that release rows set `key` to. -/
def lastValue (key : Char) (rows : List (List Char)) : String :=
  ((rows.flatMap releaseFields).filterMap (valueOf? key)).getLast?.getD ""

/-- The origin that rows below a location describe. -/
def describedBy (rows : List (List Char)) : Origin where
  label := lastValue 'o' rows
  archive := lastValue 'a' rows
  component := lastValue 'c' rows
  site := (rows.filterMap site?).getLast?.getD ""

theorem after?_origin_eq_none {row fields : List Char} (h : after? "release " row = some fields) :
    after? "origin " row = none := by
  rw [after?_eq_some_iff.mp h]
  exact after?_eq_none (by decide) (by simp)

/-- A field sets what it names and nothing else. -/
theorem setField_eq (origin : Origin) (field : List Char) :
    setField origin field =
      { origin with
        label := (valueOf? 'o' field).getD origin.label
        archive := (valueOf? 'a' field).getD origin.archive
        component := (valueOf? 'c' field).getD origin.component } := by
  unfold setField valueOf?
  split
  next h => simp [h]
  next h => simp [h]
  next h => simp [h]
  next hlabel harchive hcomponent =>
    cases hcut : cutFirst? (· == '=') field with
    | none => rfl
    | some cut =>
      obtain ⟨name, value⟩ := cut
      have ho : name ≠ ['o'] := fun hname => hlabel value (by rw [hcut, hname])
      have ha : name ≠ ['a'] := fun hname => harchive value (by rw [hcut, hname])
      have hc : name ≠ ['c'] := fun hname => hcomponent value (by rw [hcut, hname])
      simp [ho, ha, hc]

/-- A release row sets its fields one after the other, and an origin row sets the site. -/
theorem describe_eq (origin : Origin) (row : List Char) :
    describe origin row =
      { (releaseFields row).foldl setField origin with site := (site? row).getD origin.site } := by
  unfold describe releaseFields site?
  cases hrelease : after? "release " row with
  | none => cases after? "origin " row <;> rfl
  | some fields =>
    -- no field is called for the site, so a release row leaves it alone
    have hsite : ((fields.splitOn ',').foldl setField origin).site = origin.site := by
      have hkeep : ∀ origin field, (setField origin field).site = (none : Option String).getD origin.site := by
        intro origin field
        rw [setField_eq]
        rfl
      rw [foldl_field hkeep, List.filterMap_none]
      rfl
    rw [after?_origin_eq_none hrelease]
    simp [← hsite]

/-- The rows below a location, taken in one after the other. -/
theorem foldl_describe (rows : List (List Char)) : rows.foldl describe .blank = describedBy rows := by
  -- the three fields of a release row differ in nothing but their keys
  have hvalue (key : Char) (value : Origin → String)
      (hset : ∀ origin field, value (setField origin field) = (valueOf? key field).getD (value origin))
      (hsite : ∀ origin site, value { origin with site := site } = value origin)
      (hblank : value .blank = "") : value (rows.foldl describe .blank) = lastValue key rows := by
    have hdescribe : ∀ origin row, value (describe origin row) =
        ((releaseFields row).filterMap (valueOf? key)).getLast?.getD (value origin) := by
      intro origin row
      rw [describe_eq, hsite, foldl_field hset]
    rw [foldl_field_of_parts hdescribe, hblank, lastValue]
  have hlabel := hvalue 'o' Origin.label (fun _ _ => by rw [setField_eq]) (fun _ _ => rfl) rfl
  have harchive := hvalue 'a' Origin.archive (fun _ _ => by rw [setField_eq]) (fun _ _ => rfl) rfl
  have hcomponent := hvalue 'c' Origin.component (fun _ _ => by rw [setField_eq]) (fun _ _ => rfl) rfl
  have hsetSite : ∀ origin row, (describe origin row).site = (site? row).getD origin.site := by
    intro origin row
    rw [describe_eq]
  have hsite : (rows.foldl describe .blank).site = (describedBy rows).site := foldl_field hsetSite rows .blank
  calc rows.foldl describe .blank
      = ⟨(rows.foldl describe .blank).label, (rows.foldl describe .blank).archive,
          (rows.foldl describe .blank).component, (rows.foldl describe .blank).site⟩ := rfl
    _ = describedBy rows := by rw [hlabel, harchive, hcomponent, hsite]; rfl

/-! ## The table -/

/-- The entries are the sections of the table, latest first. -/
theorem entries_read (text : String) :
    (PackageFiles.read text).entries =
      ((sections location? (tableRows text)).map fun found => (found.1, describedBy found.2)).reverse := by
  have hgrow : PackageFiles.add =
      grow location? (·, .blank) fun (result : String × Origin) row => (result.1, describe result.2 row) := by
    funext entries row
    unfold PackageFiles.add grow
    cases location? row <;> cases entries <;> rfl
  have hpair (location : String) (origin : Origin) (rows : List (List Char)) :
      rows.foldl (fun (result : String × Origin) row => (result.1, describe result.2 row)) (location, origin) =
        (location, rows.foldl describe origin) := by
    induction rows generalizing origin with
    | nil => rfl
    | cons row rows ih => exact ih (describe origin row)
  show (tableRows text).foldl PackageFiles.add [] = _
  rw [hgrow, foldl_grow]
  simp only [hpair, foldl_describe]

/-- The origin at a location is the one that the last section of the location describes. -/
theorem origin?_read_eq_some {text location : String} {origin : Origin}
    (h : (PackageFiles.read text).origin? location = some origin) :
    ∃ earlier rows later, sections location? (tableRows text) = earlier ++ (location, rows) :: later ∧
      (∀ found ∈ later, found.1 ≠ location) ∧ origin = describedBy rows := by
  obtain ⟨found, hfind, rfl⟩ := Option.map_eq_some_iff.mp h
  rw [entries_read] at hfind
  obtain ⟨hlocation, later, earlier, hentries, hlater⟩ := List.find?_eq_some_iff_append.mp hfind
  obtain rfl : found.1 = location := by simpa using hlocation
  have hsections : ((sections location? (tableRows text)).map fun found => (found.1, describedBy found.2)) =
      earlier.reverse ++ found :: later.reverse := by
    rw [List.reverse_eq_iff.mp hentries]
    simp
  obtain ⟨before, rest, hcut, -, hrest⟩ := List.map_eq_append_iff.mp hsections
  obtain ⟨opened, after, rfl, rfl, hafter⟩ := List.map_eq_cons_iff.mp hrest
  refine ⟨before, opened.2, after, hcut, ?_, rfl⟩
  intro other hother
  have hmem : (other.1, describedBy other.2) ∈ later := by
    rw [← List.mem_reverse, ← hafter]
    exact List.mem_map_of_mem hother
  simpa using hlater _ hmem

end UpdatePosture.Apt
