import Mathlib
import UpdatePosture.Apt.Stanzas
import UpdatePosture.Proofs.Text.Cut

/-!
# Details one after the other

A blank line ends a stanza, so that nothing of the text before it reaches the text after it. Main statement: the
sizes in texts that each end with such a line are those in each of them, where the later ones count
(`read_join`).
-/

namespace UpdatePosture.Apt

open Text

namespace Sizes

@[simp] theorem empty_updatedBy (sizes : Sizes) : empty.updatedBy sizes = sizes := by
  rw [updatedBy, empty, List.append_nil]

theorem updatedBy_assoc (first second third : Sizes) :
    (first.updatedBy second).updatedBy third = first.updatedBy (second.updatedBy third) := by
  simp only [updatedBy, List.append_assoc]

theorem record_eq (sizes : Sizes) (stanza : Stanza) :
    sizes.record stanza = sizes.updatedBy (empty.record stanza) := by
  simp only [record, updatedBy, empty, List.append_nil]

theorem record_empty (sizes : Sizes) : sizes.record .empty = sizes := rfl

/-- What is found in some lines does not depend on what was found before them. -/
theorem foldl_step (lines : List (List Char)) (sizes : Sizes) (stanza : Stanza) :
    lines.foldl step (sizes, stanza) =
      (sizes.updatedBy (lines.foldl step (empty, stanza)).1, (lines.foldl step (empty, stanza)).2) := by
  induction lines generalizing sizes stanza with
  | nil => rfl
  | cons line lines ih =>
    rw [List.foldl_cons, List.foldl_cons]
    cases hblank : isBlankText line with
    | false =>
      have hstep (sizes : Sizes) : step (sizes, stanza) line = (sizes, stanza.add line) := by
        simp [step, hblank]
      rw [hstep, hstep, ih]
    | true =>
      have hstep (sizes : Sizes) : step (sizes, stanza) line = (sizes.record stanza, .empty) := by
        simp [step, hblank]
      rw [hstep, hstep, ih, ih (empty.record stanza), record_eq, updatedBy_assoc]

/-- After a blank line no stanza has begun. -/
theorem foldl_step_of_blank {lines : List (List Char)} (h : ∀ line ∈ lines.getLast?, isBlankText line)
    (sizes : Sizes) : (lines.foldl step (sizes, .empty)).2 = .empty := by
  cases hlast : lines.getLast? with
  | none =>
    rw [List.getLast?_eq_none_iff.mp hlast]
    rfl
  | some line =>
    obtain ⟨before, rfl⟩ := List.getLast?_eq_some_iff.mp hlast
    rw [List.foldl_append, List.foldl_cons, List.foldl_nil, step, if_pos (h line hlast)]

end Sizes

/-- A text that is empty, or ends with a blank line and a line feed after it. -/
def IsStanzaText (text : String) : Prop :=
  text = "" ∨ text.toList.getLast? = some '\n' ∧ (lines text.toList).getLast?.any isBlankText

instance (text : String) : Decidable (IsStanzaText text) :=
  inferInstanceAs (Decidable (_ ∨ _))

namespace IsStanzaText

variable {text : String}

theorem ended (h : IsStanzaText text) : ∀ c ∈ text.toList.getLast?, c = '\n' :=
  eq_lineFeed_of_getLast? (h.imp_right And.left)

theorem blank_last (h : IsStanzaText text) : ∀ line ∈ (lines text.toList).getLast?, isBlankText line := by
  rcases h with rfl | ⟨-, hblank⟩
  · rintro line ⟨⟩
  · intro line hline
    rw [Option.mem_def.mp hline] at hblank
    exact hblank

end IsStanzaText

namespace Sizes

/-- What is read first counts less. -/
theorem read_append {first : String} (h : IsStanzaText first) (second : String) :
    read (first ++ second) = (read first).updatedBy (read second) := by
  simp only [read]
  rw [String.toList_append, lines_append h.ended, List.foldl_append]
  have hfirst := foldl_step_of_blank h.blank_last empty
  generalize (lines first.toList).foldl step (empty, .empty) = before at hfirst ⊢
  obtain ⟨sizes, stanza⟩ := before
  obtain rfl : stanza = .empty := hfirst
  rw [foldl_step, record_empty, record_eq, updatedBy_assoc, ← record_eq]

theorem foldl_updatedBy_read {texts : List String} (h : ∀ text ∈ texts, IsStanzaText text) (sizes : Sizes) :
    texts.foldl (fun sizes text => sizes.updatedBy (read text)) sizes =
      sizes.updatedBy (read (String.join texts)) := by
  induction texts generalizing sizes with
  | nil => rfl
  | cons text texts ih =>
    rw [List.foldl_cons, ih fun other hother => h other (List.mem_cons_of_mem _ hother), String.join_cons,
      read_append (h text List.mem_cons_self), updatedBy_assoc]

theorem read_join {texts : List String} (h : ∀ text ∈ texts, IsStanzaText text) :
    read (String.join texts) = texts.foldl (fun sizes text => sizes.updatedBy (read text)) empty := by
  rw [foldl_updatedBy_read h, empty_updatedBy]

end Sizes

end UpdatePosture.Apt
