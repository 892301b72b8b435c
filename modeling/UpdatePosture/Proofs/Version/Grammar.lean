import Mathlib
import UpdatePosture.Proofs.Version.Spelling

/-!
# The grammar of versions

Which texts are versions can be told without reading one: the epoch, if there is a colon, is a number that fits into
64 bits, and a digit comes first in what is left. Nothing is said about the rest of the text, and all of it is kept.
Main statement: `parse?_grammar`.
-/

namespace UpdatePosture.Version

open Text

/-! ## Texts that are versions -/

/-- The texts that are versions, without white space around them. -/
inductive Grammatical (text : List Char) : Prop
  | noEpoch : ':' ∉ text → text.head?.any Char.isDigit → Grammatical text
  | epoch {number rest : List Char} : text = number ++ ':' :: rest → ':' ∉ number →
      number ≠ [] → (∀ c ∈ number, c.isDigit) → Nat.ofDigitChars 10 number 0 < 2 ^ 64 →
      rest.head?.any Char.isDigit → Grammatical text

/-- A digit that comes first is no hyphen, and so the upstream part starts with it wherever it ends. -/
theorem exists_ofRest?_eq_some {rest : List Char} (epoch : Nat) (h : rest.head?.any Char.isDigit) :
    ∃ version, ofRest? epoch rest = some version := by
  cases hcut : cutLast? (· == '-') rest with
  | none =>
    refine ⟨⟨epoch, String.ofList rest, String.ofList []⟩, ?_⟩
    rw [ofRest?, hcut]
    exact if_pos h
  | some parts =>
    obtain ⟨upstream, revision⟩ := parts
    obtain ⟨rfl, -⟩ := cutLast?_eq_some_iff.mp hcut
    have hupstream : upstream.head?.any Char.isDigit := by
      cases upstream with
      | nil => cases h
      | cons c upstream => exact h
    refine ⟨⟨epoch, String.ofList upstream, String.ofList revision⟩, ?_⟩
    rw [ofRest?, hcut]
    exact if_pos hupstream

theorem SpellsRest.head?_isDigit {version : Version} {rest : List Char} (h : SpellsRest version rest)
    (hdigit : version.upstream.toList.head?.any Char.isDigit) : rest.head?.any Char.isDigit := by
  cases h with
  | upstream _ _ => exact hdigit
  | revision _ => exact any_head?_append hdigit _

theorem isSome_parse?_iff {raw : String} : (parse? raw).isSome ↔ Grammatical (trim raw.toList) := by
  constructor
  · intro h
    obtain ⟨version, hversion⟩ := Option.isSome_iff_exists.mp h
    obtain ⟨hspells, hdigit⟩ := parse?_eq_some_iff.mp hversion
    generalize trim raw.toList = text at hspells ⊢
    cases hspells with
    | noEpoch _ hcolon hrest => exact .noEpoch hcolon (hrest.head?_isDigit hdigit)
    | epoch hnumber hrest =>
      obtain ⟨hdigits, hbound⟩ := word?_eq_some_iff.mp hnumber
      obtain ⟨hne, hall, hvalue⟩ := digits?_eq_some_iff.mp hdigits
      rw [← hvalue] at hbound
      exact .epoch rfl (colon_notMem_of_word? hnumber) hne hall hbound (hrest.head?_isDigit hdigit)
  · intro h
    refine Option.isSome_iff_exists.mpr ?_
    cases h with
    | noEpoch hcolon hdigit =>
      obtain ⟨version, hversion⟩ := exists_ofRest?_eq_some 0 hdigit
      obtain ⟨hepoch, hrest, hupstream⟩ := ofRest?_eq_some_iff.mp hversion
      exact ⟨version, parse?_eq_some_iff.mpr ⟨.noEpoch hepoch hcolon hrest, hupstream⟩⟩
    | @epoch number rest htext _ hne hall hbound hdigit =>
      obtain ⟨version, hversion⟩ := exists_ofRest?_eq_some (Nat.ofDigitChars 10 number 0) hdigit
      obtain ⟨hepoch, hrest, hupstream⟩ := ofRest?_eq_some_iff.mp hversion
      have hnumber : word? number = some version.epoch :=
        word?_eq_some_iff.mpr ⟨digits?_eq_some_iff.mpr ⟨hne, hall, hepoch.symm⟩, by rwa [hepoch]⟩
      refine ⟨version, parse?_eq_some_iff.mpr ⟨?_, hupstream⟩⟩
      rw [htext]
      exact .epoch hnumber hrest

/-! ## What is read of them -/

/-- How the whole of a text is divided into the parts of a version, where `rest` is what follows the epoch. -/
structure Divided (text rest : List Char) (version : Version) : Prop where
  epoch : (':' ∉ text ∧ rest = text ∧ version.epoch = 0) ∨
    ∃ number, text = number ++ ':' :: rest ∧ ':' ∉ number ∧ version.epoch = Nat.ofDigitChars 10 number 0
  noHyphen : '-' ∉ rest → rest = version.upstream.toList ∧ version.revision = ""
  hyphen : '-' ∈ rest → rest = version.upstream.toList ++ '-' :: version.revision.toList
  revision : '-' ∉ version.revision.toList
  upstream : version.upstream.toList.head?.any Char.isDigit

theorem exists_divided {raw : String} {version : Version} (h : parse? raw = some version) :
    ∃ rest, Divided (trim raw.toList) rest version := by
  obtain ⟨hspells, hupstream⟩ := parse?_eq_some_iff.mp h
  generalize trim raw.toList = text at hspells ⊢
  obtain ⟨rest, hrest, hepoch⟩ : ∃ rest, SpellsRest version rest ∧
      ((':' ∉ text ∧ rest = text ∧ version.epoch = 0) ∨
        ∃ number, text = number ++ ':' :: rest ∧ ':' ∉ number ∧
          version.epoch = Nat.ofDigitChars 10 number 0) := by
    cases hspells with
    | noEpoch hepoch hcolon hrest => exact ⟨_, hrest, .inl ⟨hcolon, rfl, hepoch⟩⟩
    | epoch hnumber hrest =>
      obtain ⟨-, -, hvalue⟩ := digits?_eq_some_iff.mp (word?_eq_some_iff.mp hnumber).1
      exact ⟨_, hrest, .inr ⟨_, rfl, colon_notMem_of_word? hnumber, hvalue.symm⟩⟩
  cases hrest with
  | upstream hrevision hhyphen =>
    refine ⟨_, hepoch, fun _ => ⟨rfl, hrevision⟩, fun hmem => absurd hmem hhyphen, ?_, hupstream⟩
    rw [hrevision]
    exact List.not_mem_nil
  | revision hhyphen =>
    refine ⟨_, hepoch, fun hnot => absurd ?_ hnot, fun _ => rfl, hhyphen, hupstream⟩
    exact List.mem_append_right _ List.mem_cons_self

/-- Exactly the grammatical texts are versions, and nothing of them is dropped when they are read but the zeros in
front of an epoch. -/
theorem parse?_grammar (raw : String) :
    ((parse? raw).isSome ↔ Grammatical (trim raw.toList)) ∧
      ∀ version, parse? raw = some version → ∃ rest, Divided (trim raw.toList) rest version :=
  ⟨isSome_parse?_iff, fun _ h => exists_divided h⟩

example : parse? "018446744073709551615:1:2-3-" = some ⟨2 ^ 64 - 1, "1:2-3", ""⟩ := by decide +kernel
example : parse? "18446744073709551616:1" = none ∧ parse? "1:-2" = none := by decide +kernel

end UpdatePosture.Version
