import Mathlib
import UpdatePosture.Proofs.Text.Numeral
import UpdatePosture.Version.Basic

/-!
# How versions are written

A version is read from a text exactly if the text spells it (`parse?_eq_some_iff`). A version has many
spellings, for its epoch may have zeros in front, and an epoch of zero and an empty revision may be left out.
-/

namespace UpdatePosture.Version

open Text

theorem any_head?_append {text : List Char} (h : text.head?.any Char.isDigit) (more : List Char) :
    (text ++ more).head?.any Char.isDigit := by
  obtain ⟨c, hc, hdigit⟩ := (Option.any_eq_true _ _).mp h
  rw [List.head?_append, hc]
  exact hdigit

/-- The part of a version after its epoch. The hyphen may be missing if there is no revision and no hyphen in the
upstream part either. -/
inductive SpellsRest (version : Version) : List Char → Prop
  | upstream : version.revision = "" → '-' ∉ version.upstream.toList →
      SpellsRest version version.upstream.toList
  | revision : '-' ∉ version.revision.toList →
      SpellsRest version (version.upstream.toList ++ '-' :: version.revision.toList)

/-- A version as it is written, without white space around it. The colon may be missing if the epoch is zero and
there is no colon elsewhere. -/
inductive Spells (version : Version) : List Char → Prop
  | noEpoch {rest : List Char} : version.epoch = 0 → ':' ∉ rest → SpellsRest version rest → Spells version rest
  | epoch {number rest : List Char} : word? number = some version.epoch → SpellsRest version rest →
      Spells version (number ++ ':' :: rest)

theorem ofRest?_eq_some_iff {epoch : Nat} {rest : List Char} {version : Version} :
    ofRest? epoch rest = some version ↔
      version.epoch = epoch ∧ SpellsRest version rest ∧ version.upstream.toList.head?.any Char.isDigit := by
  constructor
  · intro h
    cases hcut : cutLast? (· == '-') rest with
    | none =>
      rw [ofRest?, hcut] at h
      obtain ⟨hdigit, hversion⟩ := Option.ite_none_right_eq_some.mp h
      obtain rfl := Option.some.inj hversion
      have hspells : SpellsRest ⟨epoch, String.ofList rest, String.ofList []⟩ (String.ofList rest).toList :=
        .upstream rfl (by rwa [String.toList_ofList, ← cutLast?_eq_none_iff])
      rw [String.toList_ofList] at hspells
      exact ⟨rfl, hspells, by rwa [String.toList_ofList]⟩
    | some parts =>
      obtain ⟨upstream, revision⟩ := parts
      rw [ofRest?, hcut] at h
      obtain ⟨hdigit, hversion⟩ := Option.ite_none_right_eq_some.mp h
      obtain rfl := Option.some.inj hversion
      obtain ⟨rfl, hhyphen⟩ := cutLast?_eq_some_iff.mp hcut
      have hspells : SpellsRest ⟨epoch, String.ofList upstream, String.ofList revision⟩
          ((String.ofList upstream).toList ++ '-' :: (String.ofList revision).toList) :=
        .revision (by rwa [String.toList_ofList])
      rw [String.toList_ofList, String.toList_ofList] at hspells
      exact ⟨rfl, hspells, by rwa [String.toList_ofList]⟩
  · rintro ⟨rfl, hrest, hdigit⟩
    cases hrest with
    | upstream hrevision hhyphen =>
      have hempty : String.ofList [] = version.revision := hrevision.symm
      rw [ofRest?, cutLast?_eq_none_iff.mpr hhyphen]
      simp only [Option.getD_none, hdigit, if_true, String.ofList_toList, hempty]
    | revision hhyphen =>
      rw [ofRest?, cutLast?_eq_some_iff.mpr ⟨rfl, hhyphen⟩]
      simp only [Option.getD_some, hdigit, if_true, String.ofList_toList]

/-- A number has no colon in it, and so the first colon ends the epoch. -/
theorem colon_notMem_of_word? {number : List Char} {n : Nat} (h : word? number = some n) : ':' ∉ number := by
  intro hmem
  have hdigits := (digits?_eq_some_iff.mp (word?_eq_some_iff.mp h).1).2.1
  exact absurd (hdigits ':' hmem) (by decide)

theorem parse?_eq_some_iff {raw : String} {version : Version} :
    parse? raw = some version ↔
      Spells version (trim raw.toList) ∧ version.upstream.toList.head?.any Char.isDigit := by
  constructor
  · intro h
    cases hcut : cutFirst? (· == ':') (trim raw.toList) with
    | none =>
      rw [parse?, hcut] at h
      obtain ⟨hepoch, hrest, hdigit⟩ := ofRest?_eq_some_iff.mp h
      exact ⟨.noEpoch hepoch (cutFirst?_eq_none_iff.mp hcut) hrest, hdigit⟩
    | some parts =>
      obtain ⟨number, rest⟩ := parts
      rw [parse?, hcut] at h
      obtain ⟨epoch, hnumber, hversion⟩ := Option.bind_eq_some_iff.mp h
      obtain ⟨rfl, hrest, hdigit⟩ := ofRest?_eq_some_iff.mp hversion
      obtain ⟨htext, -⟩ := cutFirst?_eq_some_iff.mp hcut
      rw [htext]
      exact ⟨.epoch hnumber hrest, hdigit⟩
  · rintro ⟨hspells, hdigit⟩
    rw [parse?]
    generalize trim raw.toList = text at hspells
    cases hspells with
    | noEpoch hepoch hcolon hrest =>
      rw [cutFirst?_eq_none_iff.mpr hcolon]
      exact ofRest?_eq_some_iff.mpr ⟨hepoch, hrest, hdigit⟩
    | epoch hnumber hrest =>
      rw [cutFirst?_append_cons (colon_notMem_of_word? hnumber)]
      exact Option.bind_eq_some_iff.mpr ⟨_, hnumber, ofRest?_eq_some_iff.mpr ⟨rfl, hrest, hdigit⟩⟩

end UpdatePosture.Version
