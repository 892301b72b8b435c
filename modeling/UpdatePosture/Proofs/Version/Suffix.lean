import Mathlib
import UpdatePosture.Proofs.Version.Fragment
import UpdatePosture.Proofs.Version.Spelling

/-!
# Versions with a suffix

Revisions of a release are told by what is added to its version: a tilde leads to a version before the
release, and anything else that does not go on with a number to a version after it. Main statement:
`compare?_append`.

The suffix goes into the revision if the release has a hyphen, even one that nothing follows, and else into
the upstream part (`Spells.append`).
-/

namespace UpdatePosture.Version

open Std Text

/-! ## The first byte of a character -/

/-- A byte below 128 stands for the character with that number, and no other character starts with one. -/
theorem exists_utf8EncodeChar_eq_cons (c : Char) :
    ∃ byte more, String.utf8EncodeChar c = byte :: more ∧
      (byte.toNat = c.toNat ∨ 128 ≤ byte.toNat ∧ 128 ≤ c.toNat) := by
  have hnumber : c.val.toNat = c.toNat := rfl
  rw [String.utf8EncodeChar, hnumber]
  split_ifs with hone
  · exact ⟨_, _, rfl, .inl (by rw [UInt8.toNat_ofNat']; omega)⟩
  all_goals exact ⟨_, _, rfl, .inr (by rw [UInt8.toNat_ofNat']; omega)⟩

theorem exists_encode_eq_cons (c : Char) (text : List Char) :
    ∃ byte bytes, Utf8.encode (String.ofList (c :: text)) = byte :: bytes ∧
      (isDigitByte byte ↔ c.isDigit) ∧ (byte = tilde ↔ c = '~') := by
  obtain ⟨byte, more, hbyte, hvalue⟩ := exists_utf8EncodeChar_eq_cons c
  have htilde : '~'.toNat = tilde.toNat := rfl
  have htildeByte : tilde.toNat = 126 := rfl
  have hdigits : '0'.toNat = 48 ∧ '9'.toNat = 57 := ⟨rfl, rfl⟩
  refine ⟨byte, more ++ text.flatMap String.utf8EncodeChar, ?_, ?_, ?_⟩
  · rw [Utf8.encode, String.toList_ofList, List.flatMap_cons, hbyte, List.cons_append]
  · rw [isDigitByte_iff, Char.isDigit_iff_toNat]
    omega
  · rw [← UInt8.toNat_inj, ← Char.toNat_inj]
    omega

theorem encode_append (front text : String) :
    Utf8.encode (front ++ text) = Utf8.encode front ++ Utf8.encode text := by
  rw [Utf8.encode, String.toList_append, List.flatMap_append, Utf8.encode, Utf8.encode]

/-- What the first character of a suffix makes of a fragment. -/
theorem compareFragments_encode_append {c : Char} (h : c.isDigit = false) (text : List Char) (fragment : String) :
    compareFragments (Utf8.encode (fragment ++ String.ofList (c :: text))) (Utf8.encode fragment) =
      if c = '~' then .lt else .gt := by
  obtain ⟨byte, bytes, hbytes, hdigit, htilde⟩ := exists_encode_eq_cons c text
  have hnot : isDigitByte byte = false := by rw [← Bool.not_eq_true, hdigit, h]; exact Bool.false_ne_true
  rw [encode_append, hbytes, compareFragments_append_self hnot]
  split
  next hc =>
    rw [htilde.mpr hc]
    rfl
  next hc => exact Int.compare_eq_gt.mpr (byteRank_pos hnot fun heq => hc (htilde.mp heq))

/-! ## Where a suffix goes -/

/-- The suffix went into the part that was written last. -/
inductive Extends (suffix : String) (version : Version) : Version → Prop
  | upstream : Extends suffix version { version with upstream := version.upstream ++ suffix }
  | revision : Extends suffix version { version with revision := version.revision ++ suffix }

theorem SpellsRest.append {version : Version} {rest suffix : List Char} (h : SpellsRest version rest)
    (hhyphen : '-' ∉ suffix) :
    ∃ extended, Extends (String.ofList suffix) version extended ∧ SpellsRest extended (rest ++ suffix) := by
  cases h with
  | upstream hrevision hupstream =>
    refine ⟨_, .upstream, ?_⟩
    have hspells : SpellsRest { version with upstream := version.upstream ++ String.ofList suffix }
        (version.upstream ++ String.ofList suffix).toList := by
      refine .upstream hrevision ?_
      rw [String.toList_append, String.toList_ofList, List.mem_append]
      exact not_or_intro hupstream hhyphen
    rwa [String.toList_append, String.toList_ofList] at hspells
  | revision hrevision =>
    refine ⟨_, .revision, ?_⟩
    have hspells : SpellsRest { version with revision := version.revision ++ String.ofList suffix }
        (version.upstream.toList ++ '-' :: (version.revision ++ String.ofList suffix).toList) := by
      refine .revision ?_
      rw [String.toList_append, String.toList_ofList, List.mem_append]
      exact not_or_intro hrevision hhyphen
    rwa [String.toList_append, String.toList_ofList, ← List.cons_append, ← List.append_assoc] at hspells

theorem Extends.epoch {suffix : String} {version extended : Version} (h : Extends suffix version extended) :
    extended.epoch = version.epoch := by
  cases h with
  | upstream => rfl
  | revision => rfl

theorem Spells.append {version : Version} {text suffix : List Char} (h : Spells version text)
    (hhyphen : '-' ∉ suffix) (hcolon : ':' ∉ suffix) :
    ∃ extended, Extends (String.ofList suffix) version extended ∧ Spells extended (text ++ suffix) := by
  cases h with
  | noEpoch hepoch hrestColon hrest =>
    obtain ⟨extended, hextends, hspells⟩ := hrest.append hhyphen
    refine ⟨extended, hextends, .noEpoch (hextends.epoch.trans hepoch) ?_ hspells⟩
    rw [List.mem_append]
    exact not_or_intro hrestColon hcolon
  | epoch hnumber hrest =>
    obtain ⟨extended, hextends, hspells⟩ := hrest.append hhyphen
    rw [List.append_assoc, List.cons_append]
    exact ⟨extended, hextends, .epoch (hnumber.trans (congrArg some hextends.epoch.symm)) hspells⟩

theorem Extends.upstream_isDigit {suffix : String} {version extended : Version}
    (h : Extends suffix version extended) (hdigit : version.upstream.toList.head?.any Char.isDigit) :
    extended.upstream.toList.head?.any Char.isDigit := by
  cases h with
  | upstream =>
    rw [String.toList_append]
    exact any_head?_append hdigit _
  | revision => exact hdigit

theorem Extends.order_eq {c : Char} {text : List Char} {version extended : Version}
    (h : Extends (String.ofList (c :: text)) version extended) (hc : c.isDigit = false) :
    order extended version = if c = '~' then .lt else .gt := by
  have hepoch : compare version.epoch version.epoch = .eq := ReflCmp.compare_self
  have hself : ∀ fragment, compareFragments fragment fragment = .eq := fun _ => ReflCmp.compare_self
  cases h with
  | upstream =>
    rw [order, hepoch, hself, Ordering.then_eq, Ordering.eq_then, compareFragments_encode_append hc]
  | revision =>
    rw [order, hepoch, hself, Ordering.eq_then, Ordering.eq_then, compareFragments_encode_append hc]

/-! ## Written versions -/

/-- The white space that the suffix ends with does not go into the version. -/
theorem parse?_append {release suffix : String} {version : Version} {c : Char} {text : List Char}
    (h : parse? release = some version) (hlast : ∀ d ∈ release.toList.getLast?, isBlank d = false)
    (hsuffix : suffix.toList = c :: text) (hc : isBlank c = false)
    (hhyphen : '-' ∉ suffix.toList) (hcolon : ':' ∉ suffix.toList) :
    ∃ extended, Extends (String.ofList (c :: trimEnd text)) version extended ∧
      parse? (release ++ suffix) = some extended := by
  obtain ⟨hspells, hdigit⟩ := parse?_eq_some_iff.mp h
  have hne : trim release.toList ≠ [] := by
    intro hnil
    rw [parse?, hnil] at h
    cases h
  have hkept : c :: trimEnd text ⊆ suffix.toList := by
    have hkept : trimEnd text <+: text := trimEnd_prefix text
    rw [hsuffix]
    exact List.cons_subset_cons _ hkept.subset
  obtain ⟨extended, hextends, hextended⟩ :=
    hspells.append (fun hmem => hhyphen (hkept hmem)) (fun hmem => hcolon (hkept hmem))
  refine ⟨extended, hextends, parse?_eq_some_iff.mpr ⟨?_, hextends.upstream_isDigit hdigit⟩⟩
  rwa [String.toList_append, hsuffix, trim_append_cons hne hlast hc]

/-- What is added to the version of a release makes a lower version if it starts with a tilde, and else, if it
does not go on with a number, a higher one. -/
theorem compare?_append {release suffix : String} {first : Char} (hrelease : (parse? release).isSome)
    (hlast : ∀ c ∈ release.toList.getLast?, isBlank c = false) (hhyphen : '-' ∉ suffix.toList)
    (hcolon : ':' ∉ suffix.toList) (hfirst : suffix.toList.head? = some first) :
    (first = '~' → compare? (release ++ suffix) release = some .lt) ∧
    (first.isDigit = false → first ≠ '~' → isBlank first = false →
      compare? (release ++ suffix) release = some .gt) := by
  obtain ⟨version, hversion⟩ := Option.isSome_iff_exists.mp hrelease
  obtain ⟨text, hsuffix⟩ := List.head?_eq_some_iff.mp hfirst
  have hcompare : first.isDigit = false → isBlank first = false →
      compare? (release ++ suffix) release = some (if first = '~' then .lt else .gt) := by
    intro hdigit hblank
    obtain ⟨extended, hextends, hextended⟩ := parse?_append hversion hlast hsuffix hblank hhyphen hcolon
    exact compare?_eq_some_iff.mpr ⟨extended, version, hextended, hversion, hextends.order_eq hdigit⟩
  constructor
  · rintro rfl
    exact hcompare (by decide) (by decide)
  · intro hdigit htilde hblank
    rw [hcompare hdigit hblank, if_neg htilde]

/-- A rebuild of a revision is after it, and a backport of a version with an empty revision before it. -/
theorem compare?_append_rebuild :
    compare? ("1:2.35-0ubuntu3" ++ "+esm1") "1:2.35-0ubuntu3" = some .gt ∧
      compare? ("2-" ++ "~bpo1 ") "2-" = some .lt := by
  constructor
  · have hlast : ∀ c ∈ "1:2.35-0ubuntu3".toList.getLast?, isBlank c = false := by
      rintro c ⟨⟩
      rfl
    refine (@compare?_append _ _ '+' ?_ hlast ?_ ?_ ?_).2 ?_ ?_ ?_
    all_goals decide +kernel
  · have hlast : ∀ c ∈ "2-".toList.getLast?, isBlank c = false := by
      rintro c ⟨⟩
      rfl
    refine (@compare?_append _ _ '~' ?_ hlast ?_ ?_ ?_).1 rfl
    all_goals decide +kernel

end UpdatePosture.Version
