import Mathlib
import UpdatePosture.Json.Reader
import UpdatePosture.Proofs.Json.Token

/-!
# Written values

Every JSON value is read back from the text that it is written as, with or without gaps behind it. The text
is read in two steps, first into the tokens that were written (`readBack_tokens`), and then, by the machine with
its open containers, into the value (`foldlM_step_tokens`). Main statements: `parse?_render_append` and
`le_toNat_of_mem_render`.
-/

namespace UpdatePosture.Json

/-- A value has a property that passes from what an array or an object holds to the whole. -/
theorem induction_on_parts {motive : Json → Prop} (null : motive .null) (bool : ∀ value, motive (.bool value))
    (number : ∀ value, motive (.number value)) (string : ∀ text, motive (.string text))
    (array : ∀ items, (∀ item ∈ items, motive item) → motive (.array items))
    (object : ∀ members, (∀ member ∈ members, motive member.2) → motive (.object members)) :
    ∀ value, motive value
  | .null => null
  | .bool value => bool value
  | .number value => number value
  | .string text => string text
  | .array items =>
      array items fun item _ => induction_on_parts null bool number string array object item
  | .object members =>
      object members fun member _ => induction_on_parts null bool number string array object member.2
termination_by value => sizeOf value
decreasing_by
  all_goals simp_wf
  · next hmem =>
    have := List.sizeOf_lt_of_mem hmem
    omega
  · next hmem =>
    have := List.sizeOf_lt_of_mem hmem
    have : sizeOf member = 1 + sizeOf member.1 + sizeOf member.2 := rfl
    omega

/-! ## From text to tokens -/

/-- The text that tokens are written as is read as these tokens, whatever follows it. -/
def ReadBack (tokens : List Token) : Prop :=
  ∀ rest, EndsNumber rest →
    tokens? (tokens.flatMap Token.text ++ rest) = (tokens? rest).map (tokens ++ ·)

theorem tokens?_cons {token : Token} (htoken : token.isNumber = false) (tokens : List Token) (rest : List Char) :
    tokens? ((token :: tokens).flatMap Token.text ++ rest) =
      (tokens? (tokens.flatMap Token.text ++ rest)).map (token :: ·) := by
  rw [List.flatMap_cons, List.append_assoc]
  exact tokens?_text_append token fun hnumber => by simp [htoken] at hnumber

theorem readBack_singleton (token : Token) : ReadBack [token] := by
  intro rest hrest
  rw [List.flatMap_singleton]
  exact tokens?_text_append token fun _ => hrest

/-- After a value, and what follows it if this does not go on with a number. -/
theorem ReadBack.append {first second : List Token} {rest : List Char} (hfirst : ReadBack first)
    (hends : EndsNumber (second.flatMap Token.text ++ rest))
    (hsecond : tokens? (second.flatMap Token.text ++ rest) = (tokens? rest).map (second ++ ·)) :
    tokens? ((first ++ second).flatMap Token.text ++ rest) = (tokens? rest).map ((first ++ second) ++ ·) := by
  rw [List.flatMap_append, List.append_assoc, hfirst _ hends, hsecond, Option.map_map]
  congr 1
  funext tokens
  exact (List.append_assoc ..).symm

theorem endsNumber_moreItemTokens (items : List Json) (rest : List Char) :
    EndsNumber ((moreItemTokens items).flatMap Token.text ++ rest) := by
  cases items <;> exact endsNumber_cons (by decide) _

theorem tokens?_moreItemTokens {items : List Json} (h : ∀ item ∈ items, ReadBack item.tokens) (rest : List Char) :
    tokens? ((moreItemTokens items).flatMap Token.text ++ rest) =
      (tokens? rest).map (moreItemTokens items ++ ·) := by
  induction items with
  | nil => exact tokens?_cons rfl [] rest
  | cons item items ih =>
    obtain ⟨hitem, hitems⟩ := List.forall_mem_cons.mp h
    rw [moreItemTokens, tokens?_cons rfl,
      hitem.append (endsNumber_moreItemTokens items rest) (ih hitems), Option.map_map]
    rfl

theorem readBack_itemTokens {items : List Json} (h : ∀ item ∈ items, ReadBack item.tokens) :
    ReadBack (itemTokens items) := by
  intro rest hrest
  cases items with
  | nil => exact readBack_singleton _ rest hrest
  | cons item items =>
    obtain ⟨hitem, hitems⟩ := List.forall_mem_cons.mp h
    exact hitem.append (endsNumber_moreItemTokens items rest) (tokens?_moreItemTokens hitems rest)

theorem readBack_memberToken {member : Option String × Json} (h : ReadBack member.2.tokens) :
    ReadBack (memberToken member) := by
  intro rest hrest
  obtain ⟨key, value⟩ := member
  rw [memberToken, tokens?_cons rfl, tokens?_cons rfl, h rest hrest, Option.map_map, Option.map_map]
  rfl

theorem endsNumber_moreMemberTokens (members : List (Option String × Json)) (rest : List Char) :
    EndsNumber ((moreMemberTokens members).flatMap Token.text ++ rest) := by
  cases members <;> exact endsNumber_cons (by decide) _

theorem tokens?_moreMemberTokens {members : List (Option String × Json)}
    (h : ∀ member ∈ members, ReadBack member.2.tokens) (rest : List Char) :
    tokens? ((moreMemberTokens members).flatMap Token.text ++ rest) =
      (tokens? rest).map (moreMemberTokens members ++ ·) := by
  induction members with
  | nil => exact tokens?_cons rfl [] rest
  | cons member members ih =>
    obtain ⟨hmember, hmembers⟩ := List.forall_mem_cons.mp h
    rw [moreMemberTokens, tokens?_cons rfl,
      (readBack_memberToken hmember).append (endsNumber_moreMemberTokens members rest) (ih hmembers),
      Option.map_map]
    rfl

theorem readBack_memberTokens {members : List (Option String × Json)}
    (h : ∀ member ∈ members, ReadBack member.2.tokens) : ReadBack (memberTokens members) := by
  intro rest hrest
  cases members with
  | nil => exact readBack_singleton _ rest hrest
  | cons member members =>
    obtain ⟨hmember, hmembers⟩ := List.forall_mem_cons.mp h
    exact (readBack_memberToken hmember).append (endsNumber_moreMemberTokens members rest)
      (tokens?_moreMemberTokens hmembers rest)

theorem readBack_tokens (value : Json) : ReadBack value.tokens := by
  induction value using induction_on_parts with
  | null | bool value | number value | string text => exact readBack_singleton _
  | array items ih =>
    intro rest hrest
    rw [tokens, tokens?_cons rfl, readBack_itemTokens ih rest hrest, Option.map_map]
    rfl
  | object members ih =>
    intro rest hrest
    rw [tokens, tokens?_cons rfl, readBack_memberTokens ih rest hrest, Option.map_map]
    rfl

/-! ## From tokens to a value -/

open ReaderState

/-- The first value of an array is read like a value anywhere else. -/
theorem foldlM_step_arrayStart (value : Json) (outer : List Frame) (rest : List Token) :
    (value.tokens ++ rest).foldlM step (arrayStart outer) =
      (value.tokens ++ rest).foldlM step (valueDue (.array [] :: outer)) := by
  cases value <;> rfl

theorem foldlM_step_moreItemTokens {items : List Json}
    (h : ∀ item ∈ items, ∀ outer rest,
      (item.tokens ++ rest).foldlM step (valueDue outer) = rest.foldlM step (complete item outer))
    (done : List Json) (outer : List Frame) (rest : List Token) :
    (moreItemTokens items ++ rest).foldlM step (arrayMore done outer) =
      rest.foldlM step (complete (.array (done.reverse ++ items)) outer) := by
  induction items generalizing done with
  | nil =>
    rw [List.append_nil]
    rfl
  | cons item items ih =>
    obtain ⟨hitem, hitems⟩ := List.forall_mem_cons.mp h
    have hcomma : (moreItemTokens (item :: items) ++ rest).foldlM step (arrayMore done outer) =
        (item.tokens ++ (moreItemTokens items ++ rest)).foldlM step (valueDue (.array done :: outer)) := by
      rw [← List.append_assoc]
      rfl
    rw [hcomma, hitem, complete, ih hitems, List.reverse_cons, List.append_assoc, List.singleton_append]

theorem foldlM_step_moreMemberTokens {members : List (Option String × Json)}
    (h : ∀ member ∈ members, ∀ outer rest,
      (member.2.tokens ++ rest).foldlM step (valueDue outer) = rest.foldlM step (complete member.2 outer))
    (done : List (Option String × Json)) (outer : List Frame) (rest : List Token) :
    (moreMemberTokens members ++ rest).foldlM step (objectMore done outer) =
      rest.foldlM step (complete (.object (done.reverse ++ members)) outer) := by
  induction members generalizing done with
  | nil =>
    rw [List.append_nil]
    rfl
  | cons member members ih =>
    obtain ⟨hmember, hmembers⟩ := List.forall_mem_cons.mp h
    obtain ⟨key, value⟩ := member
    have hcomma : (moreMemberTokens ((key, value) :: members) ++ rest).foldlM step (objectMore done outer) =
        (value.tokens ++ (moreMemberTokens members ++ rest)).foldlM step (valueDue (.object done key :: outer)) := by
      rw [← List.append_assoc]
      rfl
    rw [hcomma, hmember, complete, ih hmembers, List.reverse_cons, List.append_assoc, List.singleton_append]

/-- Where a value is due, its tokens are read as this value. -/
theorem foldlM_step_tokens (value : Json) (outer : List Frame) (rest : List Token) :
    (value.tokens ++ rest).foldlM step (valueDue outer) = rest.foldlM step (complete value outer) := by
  induction value using induction_on_parts generalizing outer rest with
  | null | bool value | number value | string text => rfl
  | array items ih =>
    cases items with
    | nil => rfl
    | cons item items =>
      obtain ⟨hitem, hitems⟩ := List.forall_mem_cons.mp ih
      have hopen : ((Json.array (item :: items)).tokens ++ rest).foldlM step (valueDue outer) =
          (item.tokens ++ (moreItemTokens items ++ rest)).foldlM step (arrayStart outer) := by
        rw [← List.append_assoc]
        rfl
      rw [hopen, foldlM_step_arrayStart, hitem, complete, foldlM_step_moreItemTokens hitems]
      rfl
  | object members ih =>
    cases members with
    | nil => rfl
    | cons member members =>
      obtain ⟨hmember, hmembers⟩ := List.forall_mem_cons.mp ih
      obtain ⟨key, value⟩ := member
      have hopen : ((Json.object ((key, value) :: members)).tokens ++ rest).foldlM step (valueDue outer) =
          (value.tokens ++ (moreMemberTokens members ++ rest)).foldlM step (valueDue (.object [] key :: outer)) := by
        rw [← List.append_assoc]
        rfl
      rw [hopen, hmember, complete, foldlM_step_moreMemberTokens hmembers]
      rfl

theorem ofTokens?_tokens (value : Json) : ofTokens? value.tokens = some value := by
  have hread := foldlM_step_tokens value [] []
  rw [List.append_nil] at hread
  rw [ofTokens?, hread]
  rfl

/-! ## From text to a value -/

theorem tokens?_gaps {gaps : List Char} (h : ∀ c ∈ gaps, isGap c) : tokens? gaps = some [] := by
  have hdrop : gaps.dropWhile isGap = [] := List.dropWhile_eq_nil_iff.mpr h
  rw [tokens?]
  split
  next => rfl
  next hgap => simp [hgap] at hdrop

theorem endsNumber_gaps {gaps : List Char} (h : ∀ c ∈ gaps, isGap c) : EndsNumber gaps := by
  intro c hc
  have hgap := h c (List.mem_of_mem_head? hc)
  simp only [isGap, Bool.or_eq_true, beq_iff_eq] at hgap
  rcases hgap with ((rfl | rfl) | rfl) | rfl <;> decide

/-- A value is read back from its text, even if gaps follow it. -/
theorem parse?_render_append (value : Json) {gaps : String} (h : ∀ c ∈ gaps.toList, isGap c) :
    parse? (value.render ++ gaps) = some value := by
  have htokens := readBack_tokens value gaps.toList (endsNumber_gaps h)
  rw [tokens?_gaps h, Option.map_some, List.append_nil] at htokens
  rw [parse?, render, String.toList_append, String.toList_ofList, htokens, Option.bind_some, ofTokens?_tokens]

/-- A written value has no control characters, and so it stands on one line. -/
theorem le_toNat_of_mem_render {value : Json} {c : Char} (h : c ∈ value.render.toList) : 0x20 ≤ c.toNat := by
  rw [render, String.toList_ofList] at h
  obtain ⟨token, -, hc⟩ := List.mem_flatMap.mp h
  exact le_toNat_of_mem_text c hc

end UpdatePosture.Json
