import Mathlib
import UpdatePosture.Proofs.Settings

/-!
# The assignments that a series depends on

Of a release file only those lines count that assign a value to one of two keys, and of them only their order among
those with the same key. So the file may be edited in many ways without another series coming of it (`Edit`): lines
that assign no series may be put anywhere or taken away, and lines that assign to different keys may change places.
The lines of a file are taken here as what stands between its line feeds, so that an edit may also follow a last line
that has no line feed. Main statement: `settled_resolve`.
-/

namespace UpdatePosture

open Text

namespace ReleaseInfo

/-! ## Lines that assign no series -/

/-- The keys that a series is assigned to. -/
def seriesKeys : List String := ["VERSION_CODENAME", "UBUNTU_CODENAME"]

/-- There is nothing on the line, or a comment, or no assignment, or one to another key, or one of nothing. -/
inductive Idle (line : List Char) : Prop
  | blank : trim line = [] → Idle line
  | comment : (trim line).head? = some '#' → Idle line
  | bare : '=' ∉ line → Idle line
  | otherKey {before after : List Char} : trim line = before ++ '=' :: after → '=' ∉ before →
      String.ofList (trim before) ∉ seriesKeys → Idle line
  | noValue {before after : List Char} : trim line = before ++ '=' :: after → '=' ∉ before →
      unquote (trim after) = [] → Idle line

section Line

variable {line : List Char} {key key' : String} {written written' : List Char}

/-- What stands before and after the first equals sign of the line. -/
theorem parts_unique {before after before' after' : List Char} (h : trim line = before ++ '=' :: after)
    (hbefore : '=' ∉ before) (h' : trim line = before' ++ '=' :: after') (hbefore' : '=' ∉ before') :
    before = before' ∧ after = after' := by
  have hcut := cutFirst?_eq_some_iff.mpr ⟨h, hbefore⟩
  rw [cutFirst?_eq_some_iff.mpr ⟨h', hbefore'⟩] at hcut
  exact Prod.mk.inj (Option.some.inj hcut.symm)

theorem Assigns.key_unique (h : Assigns line key written) (h' : Assigns line key' written') : key = key' := by
  have hassigned := assignment?_eq_some_iff.mpr ⟨written, h, rfl⟩
  rw [assignment?_eq_some_iff.mpr ⟨written', h', rfl⟩] at hassigned
  exact (Prod.mk.inj (Option.some.inj hassigned)).1.symm

theorem Idle.not_assigns (h : Idle line) (hkey : key ∈ seriesKeys) : ¬Assigns line key written := by
  rintro ⟨hcomment, ⟨before, after, hline, hbefore, hbeforeKey, rfl⟩, hvalue⟩
  have hequals : '=' ∈ trim line := by
    rw [hline]
    exact List.mem_append_right _ List.mem_cons_self
  cases h with
  | blank hblank =>
    rw [hblank] at hequals
    cases hequals
  | comment hhead => exact hcomment hhead
  | bare hbare => exact hbare (trim_subset line hequals)
  | otherKey hline' hbefore' hother =>
    obtain ⟨rfl, -⟩ := parts_unique hline hbefore hline' hbefore'
    rw [hbeforeKey, String.ofList_toList] at hother
    exact hother hkey
  | noValue hline' hbefore' hempty =>
    obtain ⟨-, rfl⟩ := parts_unique hline hbefore hline' hbefore'
    exact hvalue hempty

theorem Idle.valueOf?_eq_none (h : Idle line) (hkey : key ∈ seriesKeys) : valueOf? key line = none :=
  valueOf?_eq_none_iff.mpr fun _ => h.not_assigns hkey

theorem Assigns.valueOf?_eq_none (h : Assigns line key written) (hne : key ≠ key') : valueOf? key' line = none :=
  valueOf?_eq_none_iff.mpr fun _ h' => hne (h.key_unique h')

end Line

/-! ## Edits -/

/-- One edit of a file that is given by its lines. -/
inductive Edit : List (List Char) → List (List Char) → Prop
  /-- A line is put in that assigns no series. -/
  | insert {before after : List (List Char)} {line : List Char} : Idle line →
      Edit (before ++ after) (before ++ line :: after)
  /-- A line that assigns to the first key is moved past one that assigns to the second. -/
  | move {before after : List (List Char)} {version ubuntu written written' : List Char} :
      Assigns version "VERSION_CODENAME" written → Assigns ubuntu "UBUNTU_CODENAME" written' →
      Edit (before ++ version :: ubuntu :: after) (before ++ ubuntu :: version :: after)

/-- The second text comes from the first by any number of edits, each made or undone. -/
def Edited (text text' : String) : Prop :=
  Relation.EqvGen Edit (text.toList.splitOn '\n') (text'.toList.splitOn '\n')

/-- An edit leaves each key the values that are assigned to it, in their order. -/
theorem Edit.filterMap_valueOf? {lines lines' : List (List Char)} (h : Edit lines lines') {key : String}
    (hkey : key ∈ seriesKeys) : lines.filterMap (valueOf? key) = lines'.filterMap (valueOf? key) := by
  cases h with
  | insert hidle =>
    rw [List.filterMap_append, List.filterMap_append, List.filterMap_cons_none (hidle.valueOf?_eq_none hkey)]
  | @move _ _ version ubuntu _ _ hversion hubuntu =>
    have hnone : valueOf? key version = none ∨ valueOf? key ubuntu = none := by
      rcases List.mem_pair.mp hkey with rfl | rfl
      · exact .inr (hubuntu.valueOf?_eq_none (by decide))
      · exact .inl (hversion.valueOf?_eq_none (by decide))
    rw [List.filterMap_append, List.filterMap_append]
    rcases hnone with hnone | hnone <;> simp [List.filterMap_cons, hnone]

/-- The values that are assigned to a key are the same whether or not a last line without anything on it is counted,
and whether or not line ends keep their carriage return. -/
theorem filterMap_valueOf?_linesOfPieces (key : String) (pieces : List (List Char)) :
    (linesOfPieces pieces).filterMap (valueOf? key) = pieces.filterMap (valueOf? key) := by
  have hnil : valueOf? key [] = none := rfl
  have hreturn : ∀ line, valueOf? key (dropReturn line) = valueOf? key line := by
    intro line
    rw [valueOf?, valueOf?, assignment?, assignment?, trim_dropReturn]
  fun_induction linesOfPieces pieces with
  | case1 => rfl
  | case2 last hempty =>
    rw [List.isEmpty_iff.mp hempty, List.filterMap_cons_none hnil]
  | case3 last hempty => rfl
  | case4 line next more ih => rw [List.filterMap_cons, List.filterMap_cons, hreturn, ih]

theorem series?_read_of_edited {text text' : String} (h : Edited text text') :
    (read text).series? = (read text').series? := by
  have hvalues : ∀ key ∈ seriesKeys,
      (lines text.toList).filterMap (valueOf? key) = (lines text'.toList).filterMap (valueOf? key) := by
    intro key hkey
    rw [lines, lines, filterMap_valueOf?_linesOfPieces, filterMap_valueOf?_linesOfPieces]
    exact Setoid.eqvGen_le (s := Setoid.ker (List.filterMap (valueOf? key)))
      (fun _ _ hedit => hedit.filterMap_valueOf? hkey) h
  rw [series?_read, series?_read, hvalues _ (by decide), hvalues _ (by decide)]

end ReleaseInfo

namespace Settings

/-! ## What resolving comes to -/

/-- The settings, or the failure, that come of what is asked for and of the file. -/
inductive Settled (asked : Option String) (file : ReleaseFile) : Except Failure Settings → Prop
  /-- A series that is asked for and is not blank wins, whatever there is of the file. -/
  | asked {series : String} : asked = some series → trim series.toList ≠ [] →
      Settled asked file (.ok (ofSeries (String.ofList (trim series.toList))))
  /-- Otherwise the file decides, by the last assignment of a value to the first key, or else to the second. -/
  | named {text : String} {written : List Char} : AsksNothing asked → file.Holds text →
      ReleaseInfo.NamesSeries (lines text.toList) written →
      Settled asked file (.ok (ofSeries (String.ofList (unquote written))))
  | unnamed {failure : Failure} : AsksNothing asked →
      (∀ text written, file.Holds text → ¬ReleaseInfo.NamesSeries (lines text.toList) written) →
      failure.source = .release → failure.action = .detectRelease → failure.kind = .unavailable →
      Settled asked file (.error failure)

variable {asked : Option String} {file file' : ReleaseFile} {text text' : String}

theorem exists_of_load_eq_error {failure : Failure} (h : file.load = .error failure) :
    ∃ problem, failure = ReleaseInfo.failure (.unreadableRelease file.path problem) := by
  unfold ReleaseFile.load at h
  cases hcontent : file.content with
  | error problem =>
    rw [hcontent] at h
    exact ⟨_, (Except.error.inj h).symm⟩
  | ok bytes =>
    cases hdecode : Utf8.decode bytes with
    | error flaw =>
      simp only [hcontent, hdecode] at h
      exact ⟨_, (Except.error.inj h).symm⟩
    | ok text => simp [hcontent, hdecode] at h

/-- Resolving fails for want of a file that can be read, or of a codename in it. -/
theorem exists_of_resolve_eq_error {failure : Failure} (h : resolve asked file = .error failure) :
    ∃ cause, failure = ReleaseInfo.failure cause ∧ cause.kind = .unavailable := by
  cases hexplicit : explicit? asked with
  | some name =>
    rw [resolve, hexplicit] at h
    cases h
  | none =>
    rw [resolve_of_asksNothing (explicit?_eq_none_iff.mp hexplicit)] at h
    cases hload : file.load with
    | error problem =>
      rw [hload] at h
      obtain ⟨problem, rfl⟩ := exists_of_load_eq_error hload
      exact ⟨_, (Except.error.inj h).symm, rfl⟩
    | ok info =>
      rw [hload, Except.bind, ReleaseInfo.requireSeries] at h
      cases hseries : info.series? with
      | some series =>
        rw [hseries] at h
        cases h
      | none =>
        rw [hseries] at h
        exact ⟨_, (Except.error.inj h).symm, rfl⟩

theorem settled_resolve_self (asked : Option String) (file : ReleaseFile) :
    Settled asked file (resolve asked file) := by
  cases hresolve : resolve asked file with
  | ok settings =>
    obtain ⟨_, ⟨hasked, hne⟩ | ⟨hnothing, htext, hnames⟩, rfl⟩ := resolve_eq_ok_iff.mp hresolve
    · exact .asked hasked hne
    · exact .named hnothing htext hnames
  | error failure =>
    have hnone : ∀ series, ¬SeriesFrom asked file series := by
      intro series hfrom
      rw [resolve_eq_ok_iff.mpr ⟨series, hfrom, rfl⟩] at hresolve
      cases hresolve
    have hnothing : AsksNothing asked := by
      intro series hasked
      by_contra hne
      exact hnone _ (.asked hasked hne)
    obtain ⟨cause, rfl, hkind⟩ := exists_of_resolve_eq_error hresolve
    exact .unnamed hnothing (fun _ _ htext hnames => hnone _ (.file hnothing htext hnames)) rfl rfl hkind

theorem resolve_of_edited (htext : file.Holds text) (htext' : file'.Holds text')
    (h : ReleaseInfo.Edited text text') : resolve asked file = resolve asked file' := by
  cases hexplicit : explicit? asked with
  | some name => rw [resolve, resolve, hexplicit]
  | none =>
    have hnothing := explicit?_eq_none_iff.mp hexplicit
    rw [resolve_of_asksNothing hnothing, resolve_of_asksNothing hnothing,
      ReleaseFile.load_eq_ok_iff.mpr ⟨text, htext, rfl⟩, ReleaseFile.load_eq_ok_iff.mpr ⟨text', htext', rfl⟩]
    simp only [Except.bind, ReleaseInfo.requireSeries, ReleaseInfo.series?_read_of_edited h]

/-- A series that is asked for wins, or else the last value that the file assigns to the first key, or else to the
second, and without any of these there is a failure. No edit of the file makes a difference. -/
theorem settled_resolve (asked : Option String) (file : ReleaseFile) :
    Settled asked file (resolve asked file) ∧
      ∀ (file' : ReleaseFile) (text text' : String), file.Holds text → file'.Holds text' →
        ReleaseInfo.Edited text text' → resolve asked file' = resolve asked file :=
  ⟨settled_resolve_self asked file,
    fun _ _ _ htext htext' hedited => (resolve_of_edited htext htext' hedited).symm⟩

/-! ## A file and the same file edited -/

def nameLine : List Char := "NAME=Ubuntu".toList

def versionLine : List Char := "VERSION_CODENAME=\"jammy\"".toList

def ubuntuLine : List Char := "UBUNTU_CODENAME=focal".toList

def commentLine : List Char := "# edited".toList

/-- An assignment of nothing. -/
def voidLine : List Char := "VERSION_CODENAME=".toList

def plainText : String := "NAME=Ubuntu\nVERSION_CODENAME=\"jammy\"\nUBUNTU_CODENAME=focal\n"

/-- The name is left out, the codenames have changed places, and a comment and an assignment of nothing are new. -/
def editedText : String := "# edited\nUBUNTU_CODENAME=focal\nVERSION_CODENAME=\"jammy\"\nVERSION_CODENAME=\n"

def plainFile : ReleaseFile := ⟨"/etc/os-release", .ok (Utf8.encode plainText)⟩

def editedFile : ReleaseFile := ⟨"/etc/os-release", .ok (Utf8.encode editedText)⟩

theorem holds_plainFile : plainFile.Holds plainText := ⟨_, rfl, by decide +kernel⟩

theorem holds_editedFile : editedFile.Holds editedText := ⟨_, rfl, by decide +kernel⟩

section Lines

open ReleaseInfo

theorem idle_nameLine : Idle nameLine :=
  .otherKey (show trim nameLine = "NAME".toList ++ '=' :: "Ubuntu".toList by decide) (by decide) (by decide)

theorem idle_commentLine : Idle commentLine :=
  .comment (by decide)

theorem idle_voidLine : Idle voidLine :=
  .noValue (show trim voidLine = "VERSION_CODENAME".toList ++ '=' :: [] by decide) (by decide) (by decide)

theorem edited_plainText : Edited plainText editedText := by
  obtain ⟨_, hversion, -⟩ :=
    assignment?_eq_some_iff.mp (show assignment? versionLine = some ("VERSION_CODENAME", "jammy") by decide)
  obtain ⟨_, hubuntu, -⟩ :=
    assignment?_eq_some_iff.mp (show assignment? ubuntuLine = some ("UBUNTU_CODENAME", "focal") by decide)
  have hplain : plainText.toList.splitOn '\n' = [nameLine, versionLine, ubuntuLine, []] := by decide
  have hedited : editedText.toList.splitOn '\n' = [commentLine, ubuntuLine, versionLine, voidLine, []] := by decide
  have hnamed : Edit [versionLine, ubuntuLine, []] [nameLine, versionLine, ubuntuLine, []] :=
    @Edit.insert [] _ _ idle_nameLine
  have hmoved : Edit [versionLine, ubuntuLine, []] [ubuntuLine, versionLine, []] :=
    @Edit.move [] _ _ _ _ _ hversion hubuntu
  have hcommented : Edit [ubuntuLine, versionLine, []] [commentLine, ubuntuLine, versionLine, []] :=
    @Edit.insert [] _ _ idle_commentLine
  have hvoid : Edit [commentLine, ubuntuLine, versionLine, []]
      [commentLine, ubuntuLine, versionLine, voidLine, []] :=
    @Edit.insert [commentLine, ubuntuLine, versionLine] _ _ idle_voidLine
  rw [Edited, hplain, hedited]
  exact .trans _ _ _ (.symm _ _ (.rel _ _ hnamed)) <|
    .trans _ _ _ (.rel _ _ hmoved) <| .trans _ _ _ (.rel _ _ hcommented) (.rel _ _ hvoid)

end Lines

theorem resolve_plainFile : resolve none plainFile = .ok (ofSeries "jammy") := by
  decide +kernel

theorem resolve_editedFile :
    plainFile.Holds plainText ∧ editedFile.Holds editedText ∧ ReleaseInfo.Edited plainText editedText ∧
      resolve none editedFile = .ok (ofSeries "jammy") := by
  refine ⟨holds_plainFile, holds_editedFile, edited_plainText, ?_⟩
  rw [(settled_resolve none plainFile).2 editedFile _ _ holds_plainFile holds_editedFile edited_plainText,
    resolve_plainFile]

end Settings

end UpdatePosture
