import Mathlib
import UpdatePosture.Release
import UpdatePosture.Proofs.Sections
import UpdatePosture.Proofs.Text.Cut

/-!
# What the release file says

The release file is read in one pass that fills several fields, but the series it names stands on one line: the last
one that assigns something to the first of two keys, or else to the second (`NamesSeries`). What is written there is
trimmed first and then taken out of its quotes, so that white space inside the quotes is kept. Main statement:
`series?_read_eq_some_iff`.
-/

namespace UpdatePosture

open Text

/-! ## Quotes -/

/-- The value is written in a pair of matching quotes. -/
def Quotes (written inner : List Char) : Prop :=
  ∃ quote ∈ ['"', '\''], written = quote :: (inner ++ [quote])

section Quotes

variable {written inner : List Char}

theorem unquote_of_quotes (h : Quotes written inner) : unquote written = inner := by
  obtain ⟨quote, hquote, hwritten⟩ := h
  have hbetween := between?_eq_some_iff.mpr hwritten
  rcases List.mem_pair.mp hquote with rfl | rfl
  · rw [unquote, hbetween]
    rfl
  · have hother : between? '"' written = none := by
      rw [hwritten, between?, if_neg fun h => absurd h.1 (by decide)]
    rw [unquote, hother, hbetween]
    rfl

theorem unquote_of_not_quotes (h : ∀ inner, ¬Quotes written inner) : unquote written = written := by
  have hnone : ∀ quote ∈ ['"', '\''], between? quote written = none := by
    intro quote hquote
    refine Option.eq_none_iff_forall_ne_some.mpr fun inner hinner => ?_
    exact h inner ⟨quote, hquote, between?_eq_some_iff.mp hinner⟩
  rw [unquote, hnone _ (by simp), hnone _ (by simp)]
  rfl

end Quotes

namespace ReleaseInfo

/-! ## Assignments -/

/-- The line assigns a value to the key, and the value is written so, with its quotes if it has any. -/
structure Assigns (line : List Char) (key : String) (written : List Char) : Prop where
  no_comment : (trim line).head? ≠ some '#'
  parts : ∃ before after, trim line = before ++ '=' :: after ∧ '=' ∉ before ∧
    trim before = key.toList ∧ trim after = written
  value : unquote written ≠ []

/-- Of the lines that assign something to the key, the last assigns this value. -/
def AssignsLast (lines : List (List Char)) (key : String) (written : List Char) : Prop :=
  ∃ before line after, lines = before ++ line :: after ∧ Assigns line key written ∧
    ∀ later ∈ after, ∀ other, ¬Assigns later key other

/-- The value that the series is taken from. -/
inductive NamesSeries (lines : List (List Char)) (written : List Char) : Prop
  | version : AssignsLast lines "VERSION_CODENAME" written → NamesSeries lines written
  | ubuntu : (∀ line ∈ lines, ∀ other, ¬Assigns line "VERSION_CODENAME" other) →
      AssignsLast lines "UBUNTU_CODENAME" written → NamesSeries lines written

namespace NamesSeries

variable {lines : List (List Char)} {written : List Char}

theorem exists_assigns (h : NamesSeries lines written) : ∃ line key, Assigns line key written := by
  rcases h with ⟨_, line, _, -, hassigns, -⟩ | ⟨-, _, line, _, -, hassigns, -⟩
  · exact ⟨line, _, hassigns⟩
  · exact ⟨line, _, hassigns⟩

theorem unquote_ne_nil (h : NamesSeries lines written) : unquote written ≠ [] := by
  obtain ⟨_, _, hassigns⟩ := h.exists_assigns
  exact hassigns.value

theorem trim_eq (h : NamesSeries lines written) : trim written = written := by
  obtain ⟨_, _, -, ⟨_, after, -, -, -, rfl⟩, -⟩ := h.exists_assigns
  exact trim_trim after

end NamesSeries

/-! ## Reading an assignment -/

theorem assignment?_eq_some_iff {line : List Char} {key value : String} :
    assignment? line = some (key, value) ↔
      ∃ written, Assigns line key written ∧ value = String.ofList (unquote written) := by
  constructor
  · intro h
    unfold assignment? at h
    simp only at h
    split at h
    next => cases h
    next hcomment =>
      obtain ⟨⟨before, after⟩, hcut, h⟩ := Option.bind_eq_some_iff.mp h
      obtain ⟨hvalue, h⟩ := Option.ite_none_left_eq_some.mp h
      cases h
      obtain ⟨hline, hbefore⟩ := cutFirst?_eq_some_iff.mp hcut
      exact ⟨trim after,
        { no_comment := hcomment
          parts := ⟨before, after, hline, hbefore, String.toList_ofList.symm, rfl⟩
          value := by simpa using hvalue },
        rfl⟩
  · rintro ⟨written, ⟨hcomment, ⟨before, after, hline, hbefore, hkey, hwritten⟩, hvalue⟩, rfl⟩
    unfold assignment?
    simp only
    rw [if_neg hcomment, cutFirst?_eq_some_iff.mpr ⟨hline, hbefore⟩]
    simp [hwritten, hkey, hvalue]

/-- The value that a line assigns to the key. -/
def valueOf? (key : String) (line : List Char) : Option String :=
  (assignment? line).bind fun assigned => if assigned.1 = key then some assigned.2 else none

theorem valueOf?_eq_some_iff {key value : String} {line : List Char} :
    valueOf? key line = some value ↔
      ∃ written, Assigns line key written ∧ value = String.ofList (unquote written) := by
  rw [← assignment?_eq_some_iff, valueOf?, Option.bind_eq_some_iff]
  constructor
  · rintro ⟨⟨assignedKey, assignedValue⟩, hassigned, h⟩
    obtain ⟨hkey, hvalue⟩ := Option.ite_none_right_eq_some.mp h
    cases hkey
    cases hvalue
    exact hassigned
  · intro hassigned
    exact ⟨_, hassigned, if_pos rfl⟩

theorem valueOf?_eq_none_iff {key : String} {line : List Char} :
    valueOf? key line = none ↔ ∀ written, ¬Assigns line key written := by
  rw [Option.eq_none_iff_forall_ne_some]
  constructor
  · intro h written hassigns
    exact h _ (valueOf?_eq_some_iff.mpr ⟨written, hassigns, rfl⟩)
  · intro h value hvalue
    obtain ⟨written, hassigns, -⟩ := valueOf?_eq_some_iff.mp hvalue
    exact h written hassigns

/-! ## Fields -/

theorem getLast?_valueOf?_eq_some_iff {lines : List (List Char)} {key value : String} :
    (lines.filterMap (valueOf? key)).getLast? = some value ↔
      ∃ written, AssignsLast lines key written ∧ value = String.ofList (unquote written) := by
  rw [getLast?_filterMap_eq_some_iff]
  constructor
  · rintro ⟨before, line, after, hlines, hvalue, hafter⟩
    obtain ⟨written, hassigns, hvalue⟩ := valueOf?_eq_some_iff.mp hvalue
    exact ⟨written,
      ⟨before, line, after, hlines, hassigns, fun later hlater => valueOf?_eq_none_iff.mp (hafter later hlater)⟩,
      hvalue⟩
  · rintro ⟨written, ⟨before, line, after, hlines, hassigns, hafter⟩, hvalue⟩
    exact ⟨before, line, after, hlines, valueOf?_eq_some_iff.mpr ⟨written, hassigns, hvalue⟩,
      fun later hlater => valueOf?_eq_none_iff.mpr (hafter later hlater)⟩

theorem getLast?_valueOf?_eq_none_iff {lines : List (List Char)} {key : String} :
    (lines.filterMap (valueOf? key)).getLast? = none ↔ ∀ line ∈ lines, ∀ written, ¬Assigns line key written := by
  simp only [List.getLast?_eq_none_iff, List.filterMap_eq_nil_iff, valueOf?_eq_none_iff]

theorem versionCodename_addLine (info : ReleaseInfo) (line : List Char) :
    (info.addLine line).versionCodename =
      ((valueOf? "VERSION_CODENAME" line).map some).getD info.versionCodename := by
  rw [addLine, valueOf?]
  cases assignment? line with
  | none => rfl
  | some assigned =>
    simp only [assign]
    grind

theorem ubuntuCodename_addLine (info : ReleaseInfo) (line : List Char) :
    (info.addLine line).ubuntuCodename =
      ((valueOf? "UBUNTU_CODENAME" line).map some).getD info.ubuntuCodename := by
  rw [addLine, valueOf?]
  cases assignment? line with
  | none => rfl
  | some assigned =>
    simp only [assign]
    grind

/-- The last value that the lines assign to the first key, or else the last that they assign to the second. -/
theorem series?_read (text : String) :
    (read text).series? =
      ((lines text.toList).filterMap (valueOf? "VERSION_CODENAME")).getLast?.or
        ((lines text.toList).filterMap (valueOf? "UBUNTU_CODENAME")).getLast? := by
  have hversion : (read text).versionCodename =
      ((lines text.toList).filterMap (valueOf? "VERSION_CODENAME")).getLast?.bind some :=
    foldl_field_of_none versionCodename_addLine rfl _
  have hubuntu : (read text).ubuntuCodename =
      ((lines text.toList).filterMap (valueOf? "UBUNTU_CODENAME")).getLast?.bind some :=
    foldl_field_of_none ubuntuCodename_addLine rfl _
  rw [Option.bind_fun_some] at hversion hubuntu
  rw [series?, hversion, hubuntu, Option.orElse_eq_orElse, Option.orElse_eq_or]

/-- The series is the value that is written where the series is named, without its quotes. -/
theorem series?_read_eq_some_iff {text series : String} :
    (read text).series? = some series ↔
      ∃ written, NamesSeries (lines text.toList) written ∧ series = String.ofList (unquote written) := by
  rw [series?_read, Option.or_eq_some_iff, getLast?_valueOf?_eq_some_iff, getLast?_valueOf?_eq_some_iff,
    getLast?_valueOf?_eq_none_iff]
  constructor
  · rintro (⟨written, hlast, hseries⟩ | ⟨hnone, written, hlast, hseries⟩)
    · exact ⟨written, .version hlast, hseries⟩
    · exact ⟨written, .ubuntu hnone hlast, hseries⟩
  · rintro ⟨written, hlast | ⟨hnone, hlast⟩, hseries⟩
    · exact .inl ⟨written, hlast, hseries⟩
    · exact .inr ⟨hnone, written, hlast, hseries⟩

end ReleaseInfo

end UpdatePosture
