import Mathlib
import UpdatePosture.Settings
import UpdatePosture.Proofs.Release

/-!
# Where the series comes from

The series is the one that is asked for, without white space around it, or else the one that the release file names
(`SeriesFrom`). Either way it is not empty. It need not be without white space around it, and may even be blank:
what the file has in quotes is taken as it is, and a value is only known to be empty once the quotes are off. That
is the one exception. Main statement: `series_of_resolve`.
-/

namespace UpdatePosture

open Text

/-- The file can be read, and this is its text. -/
def ReleaseFile.Holds (file : ReleaseFile) (text : String) : Prop :=
  ∃ bytes, file.content = .ok bytes ∧ Utf8.decode bytes = .ok text

theorem ReleaseFile.load_eq_ok_iff {file : ReleaseFile} {info : ReleaseInfo} :
    file.load = .ok info ↔ ∃ text, file.Holds text ∧ info = .read text := by
  unfold load Holds
  cases file.content with
  | error problem => simp
  | ok bytes =>
    cases hdecode : Utf8.decode bytes with
    | error flaw => simp [hdecode]
    | ok text => simp [hdecode, eq_comm]

theorem ReleaseInfo.requireSeries_eq_ok_iff {info : ReleaseInfo} {series : String} :
    info.requireSeries = .ok series ↔ info.series? = some series := by
  unfold requireSeries
  cases info.series? <;> simp

namespace Settings

/-- Nothing is asked for but white space, if anything. -/
def AsksNothing (asked : Option String) : Prop :=
  ∀ series ∈ asked, trim series.toList = []

/-- The two places that a series comes from. -/
inductive SeriesFrom (asked : Option String) (file : ReleaseFile) : String → Prop
  | asked {series : String} : asked = some series → trim series.toList ≠ [] →
      SeriesFrom asked file (String.ofList (trim series.toList))
  | file {text : String} {written : List Char} : AsksNothing asked → file.Holds text →
      ReleaseInfo.NamesSeries (lines text.toList) written → SeriesFrom asked file (String.ofList (unquote written))

/-- The file counts, and it names the series in quotes, with this text between them. -/
def QuotedInFile (asked : Option String) (file : ReleaseFile) (inner : List Char) : Prop :=
  AsksNothing asked ∧
    ∃ text written, file.Holds text ∧ ReleaseInfo.NamesSeries (lines text.toList) written ∧ Quotes written inner

theorem explicit?_eq_some_iff {asked : Option String} {name : String} :
    explicit? asked = some name ↔
      ∃ series, asked = some series ∧ trim series.toList ≠ [] ∧ String.ofList (trim series.toList) = name := by
  cases asked with
  | none => simp [explicit?]
  | some series => simp [explicit?]

theorem explicit?_eq_none_iff {asked : Option String} : explicit? asked = none ↔ AsksNothing asked := by
  cases asked with
  | none => simp [explicit?, AsksNothing]
  | some series => simp [explicit?, AsksNothing]

/-- Without a series that is asked for, the file has to be read and to name one. -/
theorem resolve_of_asksNothing {asked : Option String} (h : AsksNothing asked) (file : ReleaseFile) :
    resolve asked file = file.load.bind fun info => info.requireSeries.map ofSeries := by
  rw [resolve, explicit?_eq_none_iff.mpr h]
  rfl

/-- The settings are those for the series, and there are none without a series. -/
theorem resolve_eq_ok_iff {asked : Option String} {file : ReleaseFile} {settings : Settings} :
    resolve asked file = .ok settings ↔ ∃ series, SeriesFrom asked file series ∧ settings = ofSeries series := by
  constructor
  · intro h
    cases hexplicit : explicit? asked with
    | some name =>
      obtain ⟨series, hasked, hne, rfl⟩ := explicit?_eq_some_iff.mp hexplicit
      rw [resolve, hexplicit] at h
      exact ⟨_, .asked hasked hne, (Except.ok.inj h).symm⟩
    | none =>
      have hnothing := explicit?_eq_none_iff.mp hexplicit
      rw [resolve_of_asksNothing hnothing] at h
      cases hload : file.load with
      | error failure =>
        rw [hload] at h
        cases h
      | ok info =>
        rw [hload, Except.bind] at h
        cases hseries : info.requireSeries with
        | error failure =>
          rw [hseries] at h
          cases h
        | ok series =>
          rw [hseries] at h
          obtain ⟨text, htext, rfl⟩ := ReleaseFile.load_eq_ok_iff.mp hload
          obtain ⟨written, hnames, rfl⟩ :=
            ReleaseInfo.series?_read_eq_some_iff.mp (ReleaseInfo.requireSeries_eq_ok_iff.mp hseries)
          exact ⟨_, .file hnothing htext hnames, (Except.ok.inj h).symm⟩
  · rintro ⟨_, ⟨hasked, hne⟩ | ⟨hnothing, htext, hnames⟩, rfl⟩
    · rw [resolve, explicit?_eq_some_iff.mpr ⟨_, hasked, hne, rfl⟩]
    · have hload := ReleaseFile.load_eq_ok_iff.mpr ⟨_, htext, rfl⟩
      have hseries := ReleaseInfo.requireSeries_eq_ok_iff.mpr
        (ReleaseInfo.series?_read_eq_some_iff.mpr ⟨_, hnames, rfl⟩)
      rw [resolve_of_asksNothing hnothing, hload, Except.bind, hseries]
      rfl

/-! ## What the series is like -/

section Series

variable {asked : Option String} {file : ReleaseFile} {series : String} {inner : List Char}

theorem SeriesFrom.ne_empty (h : SeriesFrom asked file series) : series ≠ "" := by
  rw [ne_eq]
  rcases h with ⟨-, hne⟩ | ⟨-, -, hnames⟩
  · rwa [String.ofList_eq_empty_iff]
  · rw [String.ofList_eq_empty_iff]
    exact hnames.unquote_ne_nil

/-- White space is trimmed from what is asked for and from what is written in the file, but not within quotes. -/
theorem SeriesFrom.trim_or_quoted (h : SeriesFrom asked file series) :
    trim series.toList = series.toList ∨ QuotedInFile asked file series.toList := by
  rcases h with ⟨-, -⟩ | @⟨text, written, hnothing, htext, hnames⟩
  · rw [String.toList_ofList]
    exact .inl (trim_trim _)
  · rw [String.toList_ofList]
    by_cases hquotes : ∃ inner, Quotes written inner
    · obtain ⟨inner, hquotes⟩ := hquotes
      rw [unquote_of_quotes hquotes]
      exact .inr ⟨hnothing, text, written, htext, hnames, hquotes⟩
    · rw [unquote_of_not_quotes fun inner hinner => hquotes ⟨inner, hinner⟩]
      exact .inl hnames.trim_eq

/-- What the file has in quotes is the series. -/
theorem SeriesFrom.eq_of_quoted (h : SeriesFrom asked file series) (hquoted : QuotedInFile asked file inner) :
    series.toList = inner := by
  obtain ⟨hnothing, text, written, htext, hnames, hquotes⟩ := hquoted
  have hresolve := resolve_eq_ok_iff.mpr ⟨_, h, rfl⟩
  have hresolve' := resolve_eq_ok_iff.mpr ⟨_, .file hnothing htext hnames, rfl⟩
  rw [hresolve'] at hresolve
  have hseries : String.ofList (unquote written) = series := congrArg Settings.series (Except.ok.inj hresolve)
  rw [← hseries, String.toList_ofList, unquote_of_quotes hquotes]

/-- The series is not empty. There is white space around it exactly if the file has it so in quotes, and it is blank
exactly if the file has nothing but white space in quotes. -/
theorem series_of_resolve {settings : Settings} (h : resolve asked file = .ok settings) :
    settings.series ≠ "" ∧
    (trim settings.series.toList = settings.series.toList ↔
      ∀ inner, QuotedInFile asked file inner → trim inner = inner) ∧
    (isBlankText settings.series.toList ↔ ∃ inner, QuotedInFile asked file inner ∧ isBlankText inner) := by
  obtain ⟨series, hfrom, rfl⟩ := resolve_eq_ok_iff.mp h
  have hseries : (ofSeries series).series = series := rfl
  rw [hseries]
  refine ⟨hfrom.ne_empty, ⟨?_, ?_⟩, ⟨?_, ?_⟩⟩
  · intro htrim inner hquoted
    rwa [← hfrom.eq_of_quoted hquoted]
  · intro hinner
    rcases hfrom.trim_or_quoted with htrim | hquoted
    · exact htrim
    · exact hinner _ hquoted
  · intro hblank
    have hne : series.toList ≠ [] := fun hnil => hfrom.ne_empty (String.toList_eq_nil_iff.mp hnil)
    rcases hfrom.trim_or_quoted with htrim | hquoted
    · exact absurd htrim (trim_ne_self_of_isBlankText hne hblank)
    · exact ⟨_, hquoted, hblank⟩
  · rintro ⟨inner, hquoted, hblank⟩
    rwa [hfrom.eq_of_quoted hquoted]

end Series

/-! ## A blank in quotes -/

/-- A release file with a blank in quotes for its first codename, and a second codename. -/
def paddedText : String := "VERSION_CODENAME=\" \"\nUBUNTU_CODENAME=jammy\n"

def paddedFile : ReleaseFile := ⟨"/etc/os-release", .ok (Utf8.encode paddedText)⟩

theorem resolve_paddedFile : resolve none paddedFile = .ok (ofSeries " ") := by
  simp only [paddedFile, paddedText, Utf8.encode, String.reduceToList]
  decide +kernel

/-- The blank is the series, and the second codename does not count. -/
theorem series_paddedFile :
    resolve none paddedFile = .ok (ofSeries " ") ∧
      (∃ inner, QuotedInFile none paddedFile inner ∧ trim inner ≠ inner) ∧
      ∃ inner, QuotedInFile none paddedFile inner ∧ isBlankText inner := by
  obtain ⟨-, htrim, hblank⟩ := series_of_resolve resolve_paddedFile
  refine ⟨resolve_paddedFile, ?_, hblank.mp (by decide)⟩
  by_contra hnone
  push Not at hnone
  exact absurd (htrim.mpr hnone) (by decide)

theorem not_trim_series :
    ¬∀ (asked : Option String) (file : ReleaseFile) (settings : Settings), resolve asked file = .ok settings →
      settings.series ≠ "" ∧ trim settings.series.toList = settings.series.toList := by
  intro h
  exact absurd (h none paddedFile _ resolve_paddedFile).2 (by decide)

end Settings

end UpdatePosture
