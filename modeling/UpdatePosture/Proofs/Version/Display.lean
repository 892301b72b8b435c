import Mathlib
import UpdatePosture.Proofs.Version.Order
import UpdatePosture.Proofs.Version.Spelling

/-!
# Versions as they are displayed

A displayed version has no epoch if that is zero, and no hyphen if nothing follows it. What is left can be taken
for something else: `0:1:2` is displayed as `1:2`, which has an epoch of one. Main statement:
`parse?_display_iff`, which tells the versions that are read back from what is displayed.
-/

namespace UpdatePosture.Version

open Std Text

/-- What a version has if it was read. -/
structure Readable (version : Version) : Prop where
  epoch : version.epoch < wordBound
  upstream : version.upstream.toList.head?.any Char.isDigit
  revision : '-' ∉ version.revision.toList
  last : ∀ c ∈ version.revision.toList.getLast?, isBlank c = false

/-- Nothing that is left out when a version is displayed was needed to read it. -/
structure Unambiguous (version : Version) : Prop where
  /-- The first colon ends an epoch. -/
  colon : version.epoch = 0 → ':' ∉ version.upstream.toList ∧ ':' ∉ version.revision.toList
  /-- The last hyphen starts a revision. -/
  hyphen : version.revision = "" → '-' ∉ version.upstream.toList
  /-- White space at the end is not part of a version. -/
  blank : version.revision = "" → ∀ c ∈ version.upstream.toList.getLast?, isBlank c = false

/-! ## What was read -/

theorem SpellsRest.revision_of {version : Version} {rest : List Char} (h : SpellsRest version rest)
    (hlast : ∀ c ∈ rest.getLast?, isBlank c = false) :
    '-' ∉ version.revision.toList ∧ ∀ c ∈ version.revision.toList.getLast?, isBlank c = false := by
  cases h with
  | upstream hrevision hupstream =>
    rw [hrevision]
    exact ⟨nofun, nofun⟩
  | revision hrevision =>
    refine ⟨hrevision, fun c hc => hlast c ?_⟩
    rw [List.getLast?_append_cons, List.getLast?_cons, hc]
    rfl

theorem Spells.exists_rest {version : Version} {text : List Char} (h : Spells version text) :
    version.epoch < wordBound ∧ ∃ rest, SpellsRest version rest ∧ rest <:+ text := by
  cases h with
  | noEpoch hepoch hcolon hrest =>
    rw [hepoch]
    exact ⟨by decide, _, hrest, List.suffix_rfl⟩
  | epoch hnumber hrest =>
    exact ⟨(word?_eq_some_iff.mp hnumber).2, _, hrest, (List.suffix_cons _ _).trans (List.suffix_append _ _)⟩

theorem readable_of_parse? {raw : String} {version : Version} (h : parse? raw = some version) :
    Readable version := by
  obtain ⟨hspells, hdigit⟩ := parse?_eq_some_iff.mp h
  obtain ⟨hepoch, rest, hrest, hsuffix⟩ := hspells.exists_rest
  have hlast : ∀ c ∈ rest.getLast?, isBlank c = false := by
    intro c hc
    obtain ⟨front, hfront⟩ := hsuffix
    have hend : (trim raw.toList).getLast? = some c := by rw [← hfront, List.getLast?_append, hc, Option.some_or]
    exact isBlank_of_getLast?_trimEnd hend
  obtain ⟨hrevision, hrevisionLast⟩ := hrest.revision_of hlast
  exact ⟨hepoch, hdigit, hrevision, hrevisionLast⟩

/-! ## What is displayed -/

/-- The displayed text after the epoch. -/
def displayedRest (version : Version) : List Char :=
  version.upstream.toList ++ if version.revision = "" then [] else '-' :: version.revision.toList

theorem toList_display (version : Version) :
    version.display.toList =
      (if version.epoch = 0 then [] else Nat.toDigits 10 version.epoch ++ [':']) ++ displayedRest version := by
  have hcolon : (toString ":").toList = [':'] := rfl
  rw [display, displayedRest, String.toList_append, String.toList_append, List.append_assoc]
  split_ifs <;> simp [hcolon]

/-- What is written after the epoch is what is displayed there, or it has one more hyphen at its end. -/
theorem SpellsRest.eq_displayedRest_or {version : Version} {rest : List Char} (h : SpellsRest version rest) :
    (rest = displayedRest version ∧ (version.revision = "" → '-' ∉ version.upstream.toList)) ∨
      rest = displayedRest version ++ ['-'] := by
  cases h with
  | upstream hrevision hupstream =>
    rw [displayedRest, if_pos hrevision, List.append_nil]
    exact .inl ⟨rfl, fun _ => hupstream⟩
  | revision hrevision =>
    rw [displayedRest]
    split
    next hempty =>
      rw [hempty, List.append_nil]
      exact .inr rfl
    next hne => exact .inl ⟨rfl, fun hempty => absurd hempty hne⟩

theorem SpellsRest.length_le {version : Version} {rest : List Char} (h : SpellsRest version rest) :
    (displayedRest version).length ≤ rest.length := by
  rcases h.eq_displayedRest_or with ⟨rfl, -⟩ | rfl
  · exact le_rfl
  · rw [List.length_append]
    exact Nat.le_add_right _ _

/-- No less than all that is displayed after the epoch is read as the same version. -/
theorem SpellsRest.eq_nil_of_append {version : Version} {rest cut : List Char} (h : SpellsRest version rest)
    (hcut : rest ++ cut = displayedRest version) :
    cut = [] ∧ (version.revision = "" → '-' ∉ version.upstream.toList) := by
  rcases h.eq_displayedRest_or with ⟨rfl, hhyphen⟩ | rfl
  · exact ⟨List.append_right_eq_self.mp hcut, hhyphen⟩
  · simp at hcut

theorem colon_mem_displayedRest {version : Version} :
    ':' ∈ displayedRest version ↔ ':' ∈ version.upstream.toList ∨ ':' ∈ version.revision.toList := by
  rw [displayedRest]
  split
  next hempty => simp [hempty]
  next => simp

theorem head?_displayedRest {version : Version} (h : Readable version) :
    (displayedRest version).head?.any Char.isDigit :=
  any_head?_append h.upstream _

theorem isBlank_of_head?_display {version : Version} (h : Readable version) :
    ∀ c ∈ version.display.toList.head?, isBlank c = false := by
  have hrest := head?_displayedRest h
  intro c hc
  refine isBlank_of_isDigit ?_
  rw [toList_display] at hc
  split at hc
  next =>
    rw [List.nil_append] at hc
    rwa [Option.mem_def.mp hc] at hrest
  next =>
    have hne : Nat.toDigits 10 version.epoch ≠ [] := by simp
    rw [List.append_assoc, List.head?_append_of_ne_nil _ hne] at hc
    exact Nat.isDigit_of_mem_toDigits (by decide) (by decide) (List.mem_of_mem_head? hc)

theorem isBlank_of_getLast?_displayedRest {version : Version} (h : Readable version)
    (hunambiguous : Unambiguous version) : ∀ c ∈ (displayedRest version).getLast?, isBlank c = false := by
  rw [displayedRest]
  split
  next hempty =>
    rw [List.append_nil]
    exact hunambiguous.blank hempty
  next hne =>
    have hrevision : version.revision.toList ≠ [] := fun hnil => hne (String.toList_eq_nil_iff.mp hnil)
    rw [List.append_cons, List.getLast?_append_of_ne_nil _ hrevision]
    exact h.last

/-! ## What is read back -/

theorem spells_display {version : Version} (h : Readable version) (hunambiguous : Unambiguous version) :
    Spells version version.display.toList := by
  have hrest : SpellsRest version (displayedRest version) := by
    rw [displayedRest]
    split
    next hempty =>
      rw [List.append_nil]
      exact .upstream hempty (hunambiguous.hyphen hempty)
    next => exact .revision h.revision
  rw [toList_display]
  split
  next hzero =>
    obtain ⟨hupstream, hrevision⟩ := hunambiguous.colon hzero
    refine .noEpoch hzero ?_ hrest
    rw [List.nil_append, colon_mem_displayedRest]
    exact not_or_intro hupstream hrevision
  next =>
    rw [List.append_assoc, List.singleton_append]
    exact .epoch (word?_toDigits h.epoch) hrest

theorem parse?_display {version : Version} (h : Readable version) (hunambiguous : Unambiguous version) :
    parse? version.display = some version := by
  have hne : displayedRest version ≠ [] := by
    intro hnil
    have hrest := head?_displayedRest h
    rw [hnil] at hrest
    cases hrest
  have hlast : ∀ c ∈ version.display.toList.getLast?, isBlank c = false := by
    rw [toList_display, List.getLast?_append_of_ne_nil _ hne]
    exact isBlank_of_getLast?_displayedRest h hunambiguous
  have htrim : trim version.display.toList = version.display.toList :=
    trim_eq_self_iff.mpr ⟨isBlank_of_head?_display h, hlast⟩
  refine parse?_eq_some_iff.mpr ⟨?_, h.upstream⟩
  rw [htrim]
  exact spells_display h hunambiguous

/-- What is displayed has white space at its end only. If it is read as the same version, it has none there, for a
version is displayed with as few characters as it can be written with. -/
theorem trim_display_of_spells {version : Version} (h : Readable version)
    (hspells : Spells version (trim version.display.toList)) :
    trim version.display.toList = version.display.toList ∧
      (version.epoch = 0 → ':' ∉ displayedRest version) ∧
      (version.revision = "" → '-' ∉ version.upstream.toList) := by
  obtain ⟨cut, hcut⟩ : trim version.display.toList <+: version.display.toList := by
    rw [trim, trimStart_eq_self (isBlank_of_head?_display h)]
    exact trimEnd_prefix _
  suffices hnone : cut = [] ∧ (version.epoch = 0 → ':' ∉ displayedRest version) ∧
      (version.revision = "" → '-' ∉ version.upstream.toList) by
    obtain ⟨rfl, hrest⟩ := hnone
    rw [List.append_nil] at hcut
    exact ⟨hcut, hrest⟩
  generalize trim version.display.toList = text at hspells hcut
  rw [toList_display] at hcut
  cases hspells with
  | noEpoch hzero hcolon hrest =>
    rw [if_pos hzero, List.nil_append] at hcut
    obtain ⟨rfl, hhyphen⟩ := hrest.eq_nil_of_append hcut
    rw [List.append_nil] at hcut
    rw [hcut] at hcolon
    exact ⟨rfl, fun _ => hcolon, hhyphen⟩
  | @epoch number rest hnumber hrest =>
    by_cases hzero : version.epoch = 0
    · -- no room is left for an epoch that is not displayed
      have hlength := congrArg List.length hcut
      have hle := hrest.length_le
      rw [if_pos hzero] at hlength
      simp only [List.length_append, List.length_cons, List.length_nil] at hlength
      omega
    · rw [if_neg hzero, List.append_assoc, List.append_assoc, List.cons_append, List.singleton_append] at hcut
      have hdigits : ':' ∉ Nat.toDigits 10 version.epoch := colon_notMem_of_word? (word?_toDigits h.epoch)
      have hparts := cutFirst?_append_cons (colon_notMem_of_word? hnumber) (rest ++ cut)
      rw [hcut, cutFirst?_append_cons hdigits] at hparts
      obtain ⟨-, hrestCut⟩ := Prod.mk.inj (Option.some.inj hparts)
      obtain ⟨hnil, hhyphen⟩ := hrest.eq_nil_of_append hrestCut.symm
      exact ⟨hnil, fun heq => absurd heq hzero, hhyphen⟩

theorem unambiguous_of_parse?_display {version : Version} (h : parse? version.display = some version) :
    Unambiguous version := by
  have hreadable := readable_of_parse? h
  obtain ⟨htrim, hcolon, hhyphen⟩ := trim_display_of_spells hreadable (parse?_eq_some_iff.mp h).1
  refine ⟨fun hzero => ?_, hhyphen, fun hempty c hc => ?_⟩
  · rw [← not_or, ← colon_mem_displayedRest]
    exact hcolon hzero
  · refine (trim_eq_self_iff.mp htrim).2 c ?_
    rw [toList_display, displayedRest, if_pos hempty, List.append_nil, List.getLast?_append, hc, Option.some_or]
    rfl

/-- Of the versions that are read from some text, exactly the unambiguous ones are read back from what they are
displayed as. -/
theorem parse?_display_iff {raw : String} {version : Version} (h : parse? raw = some version) :
    (parse? version.display = some version ↔ Unambiguous version) ∧
      (Unambiguous version → compare? raw version.display = some .eq) := by
  have hreadable := readable_of_parse? h
  refine ⟨⟨unambiguous_of_parse?_display, parse?_display hreadable⟩, fun hunambiguous => ?_⟩
  exact compare?_eq_some_iff.mpr
    ⟨version, version, h, parse?_display hreadable hunambiguous, ReflCmp.compare_self⟩

/-- The zeros before an epoch and the white space around a version are of no account. -/
theorem parse?_display_hyphens :
    parse? (Version.mk 2 "1.0-rc" "1").display = some ⟨2, "1.0-rc", "1"⟩ ∧
      compare? " 02:1.0-rc-1 " (Version.mk 2 "1.0-rc" "1").display = some .eq := by
  obtain ⟨hread, hcompare⟩ := @parse?_display_iff " 02:1.0-rc-1 " ⟨2, "1.0-rc", "1"⟩ (by decide +kernel)
  have hunambiguous : Unambiguous ⟨2, "1.0-rc", "1"⟩ := ⟨nofun, nofun, nofun⟩
  exact ⟨hread.mpr hunambiguous, hcompare hunambiguous⟩

/-- A version with an epoch of zero may have a colon elsewhere, and then it is not read back. -/
theorem not_parse?_display :
    parse? "0:1:2" = some ⟨0, "1:2", ""⟩ ∧
      parse? (Version.mk 0 "1:2" "").display = some ⟨1, "2", ""⟩ ∧
      ¬∀ raw version, parse? raw = some version → parse? version.display = some version := by
  have hraw : parse? "0:1:2" = some ⟨0, "1:2", ""⟩ := by decide +kernel
  have hdisplay : parse? (Version.mk 0 "1:2" "").display = some ⟨1, "2", ""⟩ := by decide +kernel
  refine ⟨hraw, hdisplay, fun hall => ?_⟩
  have hback := hall _ _ hraw
  rw [hdisplay] at hback
  exact absurd hback (by decide)

end UpdatePosture.Version
