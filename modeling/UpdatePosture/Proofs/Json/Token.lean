import Mathlib
import UpdatePosture.Json.Writer
import UpdatePosture.Proofs.Text.Numeral

/-!
# Written tokens

Every token is written so that it is read back. Only a number needs to be told from what follows it. Main
statements: a text that starts with a written token is that token and the tokens of the rest
(`tokens?_text_append`), and no control character is ever written (`le_toNat_of_mem_text`).
-/

namespace UpdatePosture.Json

open Text

/-! ## Strings -/

theorem hexDigit?_hexDigit : ∀ n < 16, hexDigit? (hexDigit n) = some n := by decide

/-- A control character is written by its code. -/
theorem codeUnit?_hexDigit {c : Char} (h : c.toNat < 0x20) :
    codeUnit? '0' '0' (hexDigit (c.toNat / 16)) (hexDigit (c.toNat % 16)) = some (.character c) := by
  have hzero : hexDigit? '0' = some 0 := by decide
  have hhigh := hexDigit?_hexDigit (c.toNat / 16) (by omega)
  have hlow := hexDigit?_hexDigit (c.toNat % 16) (by omega)
  have hcode : ((0 * 16 + 0) * 16 + c.toNat / 16) * 16 + c.toNat % 16 = c.toNat := by omega
  have hplain : ¬(0xd800 ≤ c.toNat ∧ c.toNat < 0xe000) := by omega
  simp only [codeUnit?, hzero, hhigh, hlow, Option.bind_eq_bind, Option.bind_some, hcode, if_neg hplain,
    Char.ofNat_toNat, Option.pure_def]

/-- What a string says that starts with a character. -/
def startedBy (c : Char) (rest : Option (List StringUnit × List Char)) : Option (List StringUnit × List Char) :=
  rest.map fun (units, after) => (.character c :: units, after)

theorem stringUnits?_letter {letter c : Char} (hcode : letter ≠ 'u') (hescape : escapes.lookup letter = some c)
    (rest : List Char) : stringUnits? ('\\' :: letter :: rest) = startedBy c (stringUnits? rest) := by
  rw [startedBy, Option.map_eq_bind, stringUnits?, hescape]
  · rfl
  · simp [hcode]

theorem stringUnits?_code {c : Char} (h : c.toNat < 0x20) (rest : List Char) :
    stringUnits? ('\\' :: 'u' :: '0' :: '0' :: hexDigit (c.toNat / 16) :: hexDigit (c.toNat % 16) :: rest) =
      startedBy c (stringUnits? rest) := by
  rw [startedBy, Option.map_eq_bind, stringUnits?, codeUnit?_hexDigit h]
  rfl

theorem stringUnits?_plain {c : Char} (hquote : c ≠ '"') (hslash : c ≠ '\\') (hcode : ¬c.toNat < 0x20)
    (rest : List Char) : stringUnits? (c :: rest) = startedBy c (stringUnits? rest) := by
  have hlegal : ¬(c.toNat < 0x20 ∨ c = '\\') := by simp [hcode, hslash]
  rw [startedBy, Option.map_eq_bind, stringUnits?, if_neg hlegal]
  · rfl
  all_goals simp [hquote, hslash]

/-- A character is written as an escape of one letter, by its code, or as it is. -/
theorem quoted_cases (c : Char) :
    (∃ letter, letter ≠ 'u' ∧ 0x20 ≤ letter.toNat ∧ escapes.lookup letter = some c ∧ quoted c = ['\\', letter]) ∨
    (c.toNat < 0x20 ∧
      quoted c = ['\\', 'u', '0', '0', hexDigit (c.toNat / 16), hexDigit (c.toNat % 16)]) ∨
    (c ≠ '"' ∧ c ≠ '\\' ∧ ¬c.toNat < 0x20 ∧ quoted c = [c]) := by
  by_cases hletter : c ∈ ['"', '\\', '\x08', '\x0c', '\n', '\r', '\t']
  · left
    fin_cases hletter
    · exact ⟨'"', by decide⟩
    · exact ⟨'\\', by decide⟩
    · exact ⟨'b', by decide⟩
    · exact ⟨'f', by decide⟩
    · exact ⟨'n', by decide⟩
    · exact ⟨'r', by decide⟩
    · exact ⟨'t', by decide⟩
  · right
    simp only [List.mem_cons, List.not_mem_nil, or_false, not_or] at hletter
    obtain ⟨hquote, hslash, hb, hf, hn, hr, ht⟩ := hletter
    simp only [quoted, hquote, hslash, hb, hf, hn, hr, ht, if_false]
    by_cases hcode : c.toNat < 0x20
    · exact .inl ⟨hcode, if_pos hcode⟩
    · exact .inr ⟨hquote, hslash, hcode, if_neg hcode⟩

theorem stringUnits?_quoted (c : Char) (rest : List Char) :
    stringUnits? (quoted c ++ rest) = startedBy c (stringUnits? rest) := by
  rcases quoted_cases c with ⟨letter, hcode, -, hescape, hc⟩ | ⟨hcode, hc⟩ | ⟨hquote, hslash, hcode, hc⟩
  · rw [hc]
    exact stringUnits?_letter hcode hescape rest
  · rw [hc]
    exact stringUnits?_code hcode rest
  · rw [hc]
    exact stringUnits?_plain hquote hslash hcode rest

theorem stringUnits?_flatMap_quoted (text rest : List Char) :
    stringUnits? (text.flatMap quoted ++ '"' :: rest) = some (text.map .character, rest) := by
  induction text with
  | nil => rfl
  | cons c text ih =>
    rw [List.flatMap_cons, List.append_assoc, stringUnits?_quoted, ih]
    rfl

theorem spelled?_map_character (text : List Char) : spelled? (text.map .character) = some text := by
  induction text with
  | nil => rfl
  | cons c text ih => rw [List.map_cons, spelled?, ih, Option.map_some]

/-! ## Numbers -/

/-- A character that goes on with a number. -/
def continuesNumber (c : Char) : Bool :=
  c.isDigit || c == '.' || c == 'e' || c == 'E'

/-- A number that stands before the text ends there. -/
def EndsNumber (text : List Char) : Prop :=
  ∀ c ∈ text.head?, continuesNumber c = false

theorem endsNumber_cons {c : Char} (h : continuesNumber c = false) (rest : List Char) : EndsNumber (c :: rest) := by
  intro d hd
  obtain rfl : c = d := by simpa using hd
  exact h

theorem head?_toDigits_ne_zero {n : Nat} (h : 0 < n) : (Nat.toDigits 10 n).head? ≠ some '0' := by
  induction n using Nat.strong_induction_on with
  | _ n ih =>
    rcases Nat.lt_or_ge n 10 with hsmall | hlarge
    · rw [Nat.toDigits_of_lt_base hsmall]
      interval_cases n <;> decide
    · rw [Nat.toDigits_of_base_le (by decide) hlarge, List.head?_append_of_ne_nil _ Nat.toDigits_ne_nil]
      exact ih (n / 10) (by omega) (by omega)

/-- Zero is the only number that is written with a zero in front. -/
theorem leading_zero {n : Nat} (h : (Nat.toDigits 10 n).head? = some '0') : Nat.toDigits 10 n = ['0'] := by
  rcases Nat.eq_zero_or_pos n with rfl | hpos
  · rfl
  · exact absurd h (head?_toDigits_ne_zero hpos)

theorem takeWhile_isDigit_toDigits (n : Nat) {rest : List Char} (h : EndsNumber rest) :
    (Nat.toDigits 10 n ++ rest).takeWhile Char.isDigit = Nat.toDigits 10 n ∧
      (Nat.toDigits 10 n ++ rest).dropWhile Char.isDigit = rest := by
  refine Text.span_isDigit_toDigits n fun c hc => ?_
  have hends := h c hc
  simp only [continuesNumber, Bool.or_eq_false_iff] at hends
  exact hends.1.1.1

theorem fraction?_of_endsNumber {rest : List Char} (h : EndsNumber rest) : fraction? rest = some (false, rest) := by
  cases rest with
  | nil => rfl
  | cons c rest =>
    have hc : c ≠ '.' := by
      rintro rfl
      exact absurd (h '.' rfl) (by decide)
    rw [fraction?]
    simp [hc]

theorem exponent?_of_endsNumber {rest : List Char} (h : EndsNumber rest) : exponent? rest = some (false, rest) := by
  cases rest with
  | nil => rfl
  | cons c rest =>
    have hc : ¬(c = 'e' ∨ c = 'E') := by
      rintro (rfl | rfl)
      · exact absurd (h 'e' rfl) (by decide)
      · exact absurd (h 'E' rfl) (by decide)
    rw [exponent?, if_neg hc]

theorem unsigned?_toDigits (n : Nat) {rest : List Char} (h : EndsNumber rest) :
    unsigned? (Nat.toDigits 10 n ++ rest) = some (some n, rest) := by
  obtain ⟨hwhole, hafter⟩ := takeWhile_isDigit_toDigits n h
  have hzero : ¬((Nat.toDigits 10 n).head? = some '0' ∧ Nat.toDigits 10 n ≠ ['0']) := fun hzero =>
    hzero.2 (leading_zero hzero.1)
  simp [unsigned?, hwhole, hafter, digits?_toDigits, hzero, fraction?_of_endsNumber h, exponent?_of_endsNumber h]

/-! ## Tokens -/

namespace Token

/-- Whether a token is a number. -/
def isNumber : Token → Bool
  | number _ => true
  | _ => false

theorem text_null : null.text = ['n', 'u', 'l', 'l'] := rfl

theorem text_true : (bool true).text = ['t', 'r', 'u', 'e'] := rfl

theorem text_false : (bool false).text = ['f', 'a', 'l', 's', 'e'] := rfl

/-- Such a number is written as zero behind a sign. -/
theorem text_number_none : (number none).text = '-' :: Nat.toDigits 10 0 := rfl

theorem text_string_none : (string none).text = ['"', '\\', 'u', 'd', '8', '0', '0', '"'] := rfl

theorem text_string_some (value : String) :
    (string (some value)).text = '"' :: (value.toList.flatMap quoted ++ ['"']) := rfl

/-- A number starts with a digit. -/
theorem text_number_some (n : Nat) : ∃ c rest, (number (some n)).text = c :: rest ∧ c.isDigit := by
  cases hdigits : Nat.toDigits 10 n with
  | nil => exact absurd hdigits Nat.toDigits_ne_nil
  | cons c digits =>
    have hc : c ∈ Nat.toDigits 10 n := by
      rw [hdigits]
      exact List.mem_cons_self
    exact ⟨c, digits, hdigits, Nat.isDigit_of_mem_toDigits (by decide) (by decide) hc⟩

end Token

theorem next?_of_isDigit {c : Char} (hc : c.isDigit) (rest : List Char) :
    next? (c :: rest) = (unsigned? (c :: rest)).map fun (value, after) => (.number value, after) := by
  have hne (d : Char) (hd : d.isDigit = false) : c ≠ d := by
    rintro rfl
    simp [hd] at hc
  rw [next?, if_pos hc]
  all_goals exact hne _ (by decide)

theorem next?_text_append (token : Token) {rest : List Char} (h : token.isNumber → EndsNumber rest) :
    next? (token.text ++ rest) = some (token, rest) := by
  cases token with
  | openArray | closeArray | openObject | closeObject | comma | colon => rfl
  | null => rw [Token.text_null]; rfl
  | bool value =>
    cases value with
    | true => rw [Token.text_true]; rfl
    | false => rw [Token.text_false]; rfl
  | number value =>
    cases value with
    | none =>
      have hnext (text : List Char) :
          next? ('-' :: text) = (unsigned? text).map fun (_, after) => (.number none, after) := rfl
      rw [Token.text_number_none, List.cons_append, hnext, unsigned?_toDigits 0 (h rfl)]
      rfl
    | some n =>
      obtain ⟨c, digits, htext, hc⟩ := Token.text_number_some n
      have hunsigned : unsigned? ((Token.number (some n)).text ++ rest) = _ := unsigned?_toDigits n (h rfl)
      rw [htext, List.cons_append] at hunsigned ⊢
      rw [next?_of_isDigit hc, hunsigned]
      rfl
  | string text =>
    cases text with
    | none => rw [Token.text_string_none]; rfl
    | some text =>
      have hnext (text : List Char) : next? ('"' :: text) =
          (stringUnits? text).map fun (units, after) => (.string ((spelled? units).map String.ofList), after) := rfl
      rw [Token.text_string_some, List.cons_append, List.append_assoc, hnext, List.singleton_append,
        stringUnits?_flatMap_quoted]
      simp only [Option.map_some, spelled?_map_character, String.ofList_toList]

theorem le_toNat_hexDigit : ∀ n < 16, 0x20 ≤ (hexDigit n).toNat := by decide

theorem le_toNat_of_mem_quoted {c d : Char} (h : d ∈ quoted c) : 0x20 ≤ d.toNat := by
  rcases quoted_cases c with ⟨letter, -, hletter, -, hc⟩ | ⟨hcode, hc⟩ | ⟨-, -, hcode, hc⟩
  · rw [hc] at h
    fin_cases h
    · decide
    · exact hletter
  · rw [hc] at h
    fin_cases h
    · decide
    · decide
    · decide
    · decide
    · exact le_toNat_hexDigit _ (by omega)
    · exact le_toNat_hexDigit _ (by omega)
  · rw [hc] at h
    obtain rfl := List.mem_singleton.mp h
    exact Nat.not_lt.mp hcode

theorem le_toNat_of_isDigit {c : Char} (h : c.isDigit) : 0x20 ≤ c.toNat := by
  simp only [Char.isDigit, Bool.and_eq_true, decide_eq_true_eq] at h
  have hlow : '0'.val.toNat ≤ c.val.toNat := UInt32.le_iff_toNat_le.mp h.1
  exact le_trans (by decide) hlow

/-- No control character is written, whatever a string says. -/
theorem le_toNat_of_mem_text {token : Token} : ∀ c ∈ token.text, 0x20 ≤ c.toNat := by
  have hfixed (text : List Char) (hall : text.all fun c => decide (0x20 ≤ c.toNat)) :
      ∀ c ∈ text, 0x20 ≤ c.toNat :=
    fun c hc => of_decide_eq_true (List.all_eq_true.mp hall c hc)
  cases token with
  | openArray | closeArray | openObject | closeObject | comma | colon | null => exact hfixed _ rfl
  | bool value => cases value <;> exact hfixed _ rfl
  | number value =>
    cases value with
    | none => exact hfixed _ rfl
    | some n => exact fun c hc => le_toNat_of_isDigit (Nat.isDigit_of_mem_toDigits (by decide) (by decide) hc)
  | string text =>
    cases text with
    | none => exact hfixed _ rfl
    | some text =>
      intro c hc
      simp only [Token.text_string_some, List.mem_append, List.mem_cons, List.not_mem_nil, or_false,
        List.mem_flatMap] at hc
      rcases hc with rfl | ⟨d, -, hd⟩ | rfl
      · decide
      · exact le_toNat_of_mem_quoted hd
      · decide

/-! ## Texts -/

/-- A token starts with a character that may not stand between tokens. -/
theorem text_eq_cons (token : Token) : ∃ c rest, token.text = c :: rest ∧ isGap c = false := by
  cases token with
  | openArray | closeArray | openObject | closeObject | comma | colon | null => exact ⟨_, _, rfl, rfl⟩
  | bool value => cases value <;> exact ⟨_, _, rfl, rfl⟩
  | number value =>
    cases value with
    | none => exact ⟨_, _, rfl, rfl⟩
    | some n =>
      obtain ⟨c, digits, htext, hc⟩ := Token.text_number_some n
      refine ⟨c, digits, htext, ?_⟩
      by_contra hgap
      simp only [isGap, Bool.not_eq_false, Bool.or_eq_true, beq_iff_eq] at hgap
      rcases hgap with ((rfl | rfl) | rfl) | rfl <;> simp at hc
  | string text => cases text <;> exact ⟨_, _, rfl, rfl⟩

theorem tokens?_of_next? {text after : List Char} {token : Token} {c : Char} {rest : List Char}
    (htext : text = c :: rest) (hc : isGap c = false) (h : next? text = some (token, after)) :
    tokens? text = (tokens? after).map (token :: ·) := by
  have hdrop : text.dropWhile isGap = c :: rest := by rw [htext, List.dropWhile_cons_of_neg (by simp [hc])]
  rw [tokens?]
  split
  next hgap => simp [hgap] at hdrop
  next d more hgap =>
    rw [hgap] at hdrop
    cases hdrop
    split
    next hnone => simp [← htext, h] at hnone
    next found after' hsome =>
      rw [← htext, h] at hsome
      cases hsome
      rfl

theorem tokens?_text_append (token : Token) {rest : List Char} (h : token.isNumber → EndsNumber rest) :
    tokens? (token.text ++ rest) = (tokens? rest).map (token :: ·) := by
  obtain ⟨c, text, htext, hc⟩ := text_eq_cons token
  have hnext := next?_text_append token h
  rw [htext, List.cons_append] at hnext ⊢
  exact tokens?_of_next? rfl hc hnext

end UpdatePosture.Json
