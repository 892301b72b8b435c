import UpdatePosture.Text.Numeral
import UpdatePosture.Json.Basic

/-!
# JSON tokens

Text to tokens and back. Between tokens stand spaces, tabs, line feeds and carriage returns. A string is
first read into characters and surrogates; surrogates then have to pair up, high before low.
-/

namespace UpdatePosture.Json

open Text

inductive Token where
  | openArray
  | closeArray
  | openObject
  | closeObject
  | comma
  | colon
  | null
  | bool (value : Bool)
  | number (value : Option Nat)
  | string (text : Option String)
  deriving DecidableEq, Repr

/-- One element of a string literal. -/
inductive StringUnit where
  | character (c : Char)
  /-- Half of a surrogate pair, written as an escape. -/
  | surrogate (code : Nat)
  deriving DecidableEq, Repr

def hexDigit? (c : Char) : Option Nat :=
  if c.isDigit then some (c.toNat - 48)
  else if 'a' ≤ c ∧ c ≤ 'f' then some (c.toNat - 87)
  else if 'A' ≤ c ∧ c ≤ 'F' then some (c.toNat - 55)
  else none

/-- The unit that four hexadecimal digits name. -/
def codeUnit? (a b c d : Char) : Option StringUnit := do
  let code := (((← hexDigit? a) * 16 + (← hexDigit? b)) * 16 + (← hexDigit? c)) * 16 + (← hexDigit? d)
  return if 0xd800 ≤ code ∧ code < 0xe000 then .surrogate code else .character (Char.ofNat code)

/-- The characters with an escape of one letter. -/
def escapes : List (Char × Char) :=
  [('"', '"'), ('\\', '\\'), ('/', '/'), ('b', '\x08'), ('f', '\x0c'), ('n', '\n'), ('r', '\r'),
   ('t', '\t')]

/-- Reads a string up to its closing quote, and what follows it. -/
def stringUnits? : List Char → Option (List StringUnit × List Char)
  | '"' :: rest => some ([], rest)
  | '\\' :: 'u' :: a :: b :: c :: d :: rest => do
      let unit ← codeUnit? a b c d
      let (units, after) ← stringUnits? rest
      return (unit :: units, after)
  | '\\' :: letter :: rest => do
      let c ← escapes.lookup letter
      let (units, after) ← stringUnits? rest
      return (.character c :: units, after)
  | c :: rest =>
      if c.toNat < 0x20 ∨ c = '\\' then none
      else do
        let (units, after) ← stringUnits? rest
        return (.character c :: units, after)
  | [] => none

/-- The character that a high and a low surrogate stand for. -/
def pairedCharacter (high low : Nat) : Char :=
  Char.ofNat (0x10000 + (high - 0xd800) * 0x400 + (low - 0xdc00))

/-- The characters that the units spell, if every surrogate is part of a pair. -/
def spelled? : List StringUnit → Option (List Char)
  | [] => some []
  | .character c :: rest => (spelled? rest).map (c :: ·)
  | .surrogate high :: .surrogate low :: rest =>
      if high < 0xdc00 ∧ 0xdc00 ≤ low then (spelled? rest).map (pairedCharacter high low :: ·) else none
  | .surrogate _ :: _ => none

/-- Reads a point and digits, if there is a point, and says whether there was. -/
def fraction? : List Char → Option (Bool × List Char)
  | '.' :: rest =>
      if rest.head?.any Char.isDigit then some (true, rest.dropWhile Char.isDigit) else none
  | text => some (false, text)

/-- The text without a sign that it starts with. -/
def dropSign : List Char → List Char
  | '+' :: rest => rest
  | '-' :: rest => rest
  | text => text

/-- Reads the letter of an exponent, a sign and digits, if there is such a letter, and says whether there
was. -/
def exponent? : List Char → Option (Bool × List Char)
  | [] => some (false, [])
  | c :: rest =>
      if c = 'e' ∨ c = 'E' then
        if (dropSign rest).head?.any Char.isDigit then
          some (true, (dropSign rest).dropWhile Char.isDigit)
        else none
      else some (false, c :: rest)

/-- Reads a number without a sign: no leading zeros, then a fraction and an exponent or neither. -/
def unsigned? (text : List Char) : Option (Option Nat × List Char) := do
  let whole := text.takeWhile Char.isDigit
  let value ← digits? whole
  if whole.head? = some '0' ∧ whole ≠ ['0'] then none
  let (hasFraction, rest) ← fraction? (text.dropWhile Char.isDigit)
  let (hasExponent, rest) ← exponent? rest
  return (if hasFraction || hasExponent then none else some value, rest)

/-- The words that stand for values. -/
def literals : List (String × Token) :=
  [("null", .null), ("true", .bool true), ("false", .bool false)]

/-- The token that a text starts with, and what follows it. -/
def next? : List Char → Option (Token × List Char)
  | [] => none
  | '[' :: rest => some (.openArray, rest)
  | ']' :: rest => some (.closeArray, rest)
  | '\x7b' :: rest => some (.openObject, rest)
  | '\x7d' :: rest => some (.closeObject, rest)
  | ',' :: rest => some (.comma, rest)
  | ':' :: rest => some (.colon, rest)
  | '"' :: rest =>
      (stringUnits? rest).map fun (units, after) => (.string ((spelled? units).map String.ofList), after)
  | '-' :: rest => (unsigned? rest).map fun (_, after) => (.number none, after)
  | c :: rest =>
      if c.isDigit then (unsigned? (c :: rest)).map fun (value, after) => (.number value, after)
      else literals.findSome? fun (word, token) => (after? word (c :: rest)).map (token, ·)

/-- Whether a character may stand between tokens. -/
def isGap (c : Char) : Bool :=
  c == ' ' || c == '\n' || c == '\t' || c == '\r'

theorem length_stringUnits? {text after : List Char} {units : List StringUnit}
    (h : stringUnits? text = some (units, after)) : after.length < text.length := by
  fun_induction stringUnits? text generalizing units after with
  | case1 rest => simp_all
  | case2 a b c d rest ih =>
    simp only [Option.bind_eq_bind, Option.bind_eq_some_iff] at h
    obtain ⟨_, _, ⟨us, tail⟩, htail, h⟩ := h
    have := ih htail
    simp_all
    omega
  | case3 letter rest _ ih =>
    simp only [Option.bind_eq_bind, Option.bind_eq_some_iff] at h
    obtain ⟨_, _, ⟨us, tail⟩, htail, h⟩ := h
    have := ih htail
    simp_all
    omega
  | case4 => simp at h
  | case5 c rest _ _ _ _ ih =>
    simp only [Option.bind_eq_bind, Option.bind_eq_some_iff] at h
    obtain ⟨⟨us, tail⟩, htail, h⟩ := h
    have := ih htail
    simp_all
    omega
  | case6 => simp at h

theorem length_fraction? {text after : List Char} {found : Bool}
    (h : fraction? text = some (found, after)) : after.length ≤ text.length := by
  unfold fraction? at h
  split at h
  · next rest =>
    have := (List.dropWhile_sublist Char.isDigit (l := rest)).length_le
    split at h <;> simp_all
    omega
  · simp_all

theorem length_dropSign_le (text : List Char) : (dropSign text).length ≤ text.length := by
  unfold dropSign
  split <;> simp

theorem length_exponent? {text after : List Char} {found : Bool}
    (h : exponent? text = some (found, after)) : after.length ≤ text.length := by
  unfold exponent? at h
  split at h
  · simp_all
  · next c rest =>
    have := length_dropSign_le rest
    have := (List.dropWhile_sublist Char.isDigit (l := dropSign rest)).length_le
    split at h
    · split at h <;> simp_all
      omega
    · simp_all

theorem length_unsigned? {text after : List Char} {value : Option Nat}
    (h : unsigned? text = some (value, after)) : after.length < text.length := by
  unfold unsigned? at h
  simp only [Option.bind_eq_bind, Option.bind_eq_some_iff] at h
  obtain ⟨n, hn, h⟩ := h
  split at h
  · simp at h
  · simp only [Option.pure_def, Option.bind_eq_some_iff, Option.some.injEq, Prod.mk.injEq] at h
    obtain ⟨⟨f, r⟩, hf, ⟨e, r'⟩, he, _, rfl⟩ := h
    have hlt : (text.dropWhile Char.isDigit).length < text.length := by
      have hsplit := congrArg List.length (List.takeWhile_append_dropWhile (p := Char.isDigit) (l := text))
      have : text.takeWhile Char.isDigit ≠ [] := by
        intro hnil
        simp [hnil, digits?] at hn
      have := List.length_pos_iff.2 this
      simp only [List.length_append] at hsplit
      omega
    have := length_fraction? hf
    have := length_exponent? he
    simp_all
    omega

/-- Every token takes up at least one character. -/
theorem length_next? {text after : List Char} {token : Token} (h : next? text = some (token, after)) :
    after.length < text.length := by
  unfold next? at h
  split at h
  case h_1 => simp at h
  case h_8 =>
    simp only [Option.map_eq_some_iff, Prod.mk.injEq] at h
    obtain ⟨⟨_, _⟩, h, _, rfl⟩ := h
    exact Nat.lt_succ_of_lt (length_stringUnits? h)
  case h_9 =>
    simp only [Option.map_eq_some_iff, Prod.mk.injEq] at h
    obtain ⟨⟨_, _⟩, h, _, rfl⟩ := h
    exact Nat.lt_succ_of_lt (length_unsigned? h)
  case h_10 c rest _ _ _ _ _ _ _ _ =>
    split at h
    · simp only [Option.map_eq_some_iff, Prod.mk.injEq] at h
      obtain ⟨⟨_, _⟩, h, _, rfl⟩ := h
      exact length_unsigned? h
    · obtain ⟨⟨word, _⟩, hmem, hword⟩ := List.exists_of_findSome?_eq_some h
      simp only [Option.map_eq_some_iff, Prod.mk.injEq] at hword
      obtain ⟨_, hafter, _, rfl⟩ := hword
      have hlength := congrArg List.length (after?_eq_some_iff.1 hafter)
      have : 0 < word.toList.length := by
        simp only [literals, List.mem_cons, Prod.mk.injEq, List.not_mem_nil, or_false] at hmem
        obtain ⟨rfl, _⟩ | ⟨rfl, _⟩ | ⟨rfl, _⟩ := hmem <;> decide
      simp only [List.length_append] at hlength
      omega
  all_goals simp_all

/-- The tokens of a text. -/
def tokens? (text : List Char) : Option (List Token) :=
  match _hgap : text.dropWhile isGap with
  | [] => some []
  | c :: rest =>
      match _hnext : next? (c :: rest) with
      | none => none
      | some (token, after) => (tokens? after).map (token :: ·)
termination_by text.length
decreasing_by
  have := length_next? _hnext
  have := (List.dropWhile_sublist isGap (l := text)).length_le
  simp_all
  omega

end UpdatePosture.Json
