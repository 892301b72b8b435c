import Mathlib
import UpdatePosture.Text.Lines

/-!
# Laws of the cuts

When trimming, cutting at a separator, dropping a fixed start and splitting into lines undo the concatenation
that a text was made by.
-/

namespace UpdatePosture.Text

/-! ## Trimming -/

theorem isBlank_of_head?_trimStart {text : List Char} {c : Char} (h : (trimStart text).head? = some c) :
    isBlank c = false := by
  have hnot := List.head?_dropWhile_not isBlank text
  rw [trimStart] at h
  rw [h] at hnot
  simpa using hnot

theorem isBlank_of_getLast?_trimEnd {text : List Char} {c : Char}
    (h : (trimEnd text).getLast? = some c) : isBlank c = false := by
  rw [trimEnd, List.getLast?_reverse] at h
  exact isBlank_of_head?_trimStart h

theorem trimEnd_prefix (text : List Char) : trimEnd text <+: text := by
  have hsuffix : text.reverse.dropWhile isBlank <:+ text.reverse := List.dropWhile_suffix isBlank
  simpa [trimEnd] using List.reverse_prefix.mpr hsuffix

theorem isBlank_of_head?_trim {text : List Char} {c : Char} (h : (trim text).head? = some c) :
    isBlank c = false := by
  obtain ⟨rest, hrest⟩ := trimEnd_prefix (trimStart text)
  have hstart : (trimStart text).head? = some c := by
    rw [← hrest, List.head?_append, ← trim, h, Option.some_or]
  exact isBlank_of_head?_trimStart hstart

theorem trimStart_append {blanks : List Char} (h : ∀ c ∈ blanks, isBlank c) (text : List Char) :
    trimStart (blanks ++ text) = trimStart text :=
  List.dropWhile_append_of_pos h

theorem trimStart_eq_self {text : List Char} (h : ∀ c ∈ text.head?, isBlank c = false) :
    trimStart text = text := by
  cases text with
  | nil => rfl
  | cons c text => exact List.dropWhile_cons_of_neg (by simp [h c rfl])

theorem trimEnd_eq_self {text : List Char} (h : ∀ c ∈ text.getLast?, isBlank c = false) :
    trimEnd text = text := by
  have hreverse : trimStart text.reverse = text.reverse :=
    trimStart_eq_self (by rwa [List.head?_reverse])
  rw [trimEnd, ← trimStart, hreverse, List.reverse_reverse]

/-- A text is trimmed when neither end of it is white space. -/
theorem trim_eq_self_iff {text : List Char} :
    trim text = text ↔
      (∀ c ∈ text.head?, isBlank c = false) ∧ ∀ c ∈ text.getLast?, isBlank c = false := by
  constructor
  · intro h
    constructor
    · intro c hc
      rw [← h] at hc
      exact isBlank_of_head?_trim hc
    · intro c hc
      rw [← h] at hc
      exact isBlank_of_getLast?_trimEnd hc
  · rintro ⟨hhead, hlast⟩
    rw [trim, trimStart_eq_self hhead, trimEnd_eq_self hlast]

theorem trim_trim (text : List Char) : trim (trim text) = trim text :=
  trim_eq_self_iff.mpr ⟨fun _ hc => isBlank_of_head?_trim hc, fun _ hc => isBlank_of_getLast?_trimEnd hc⟩

theorem trim_ne_self_of_isBlankText {text : List Char} (hne : text ≠ []) (h : isBlankText text) :
    trim text ≠ text := by
  obtain ⟨c, rest, rfl⟩ := List.exists_cons_of_ne_nil hne
  have hc : isBlank c := List.all_eq_true.mp h c List.mem_cons_self
  intro htrim
  rw [(trim_eq_self_iff.mp htrim).1 c rfl] at hc
  cases hc

theorem trim_append {blanks : List Char} (h : ∀ c ∈ blanks, isBlank c) (text : List Char) :
    trim (blanks ++ text) = trim text := by
  rw [trim, trimStart_append h, trim]

theorem trimEnd_cons {c : Char} (h : isBlank c = false) (text : List Char) :
    trimEnd (c :: text) = c :: trimEnd text := by
  rw [trimEnd, trimEnd, List.reverse_cons, List.dropWhile_append]
  split
  next hblank =>
    rw [List.isEmpty_iff.mp hblank, List.dropWhile_cons_of_neg (by simp [h])]
    rfl
  next => rw [List.reverse_append, List.reverse_singleton, List.singleton_append]

theorem trimEnd_append {text : List Char} (h : trimEnd text ≠ []) (before : List Char) :
    trimEnd (before ++ text) = before ++ trimEnd text := by
  have hkept : (text.reverse.dropWhile isBlank).isEmpty = false := by
    rw [trimEnd, ne_eq, List.reverse_eq_nil_iff] at h
    simpa using h
  rw [trimEnd, List.reverse_append, List.dropWhile_append, hkept, if_neg Bool.false_ne_true, List.reverse_append,
    List.reverse_reverse, trimEnd]

/-- A text that goes on after the end of another is trimmed where it ends, and the other where it starts. -/
theorem trim_append_cons {before : List Char} {c : Char} (hbefore : trim before ≠ [])
    (hlast : ∀ d ∈ before.getLast?, isBlank d = false) (hc : isBlank c = false) (text : List Char) :
    trim (before ++ c :: text) = trim before ++ c :: trimEnd text := by
  have hkept : trimStart before ≠ [] := fun hnil => hbefore (by rw [trim, hnil]; rfl)
  have hstart : trimStart (before ++ c :: text) = trimStart before ++ c :: text := by
    rw [trimStart, List.dropWhile_append, ← trimStart, if_neg (by simpa using hkept)]
  have htrim : trim before = trimStart before := by
    obtain ⟨blanks, hblanks⟩ : trimStart before <:+ before := List.dropWhile_suffix isBlank
    refine trimEnd_eq_self fun d hd => hlast d ?_
    rwa [← hblanks, List.getLast?_append_of_ne_nil _ hkept]
  have hend : trimEnd (c :: text) ≠ [] := by
    rw [trimEnd_cons hc]
    exact List.cons_ne_nil _ _
  rw [trim, hstart, trimEnd_append hend, trimEnd_cons hc, htrim]

/-- White space at the end does not count. -/
theorem trim_concat {c : Char} (h : isBlank c) (text : List Char) : trim (text ++ [c]) = trim text := by
  have hend (text : List Char) : trimEnd (text ++ [c]) = trimEnd text := by
    rw [trimEnd, List.reverse_append, List.reverse_singleton, List.singleton_append,
      List.dropWhile_cons_of_pos h, trimEnd]
  cases hstart : trimStart text with
  | nil =>
    have hnil : trimStart (text ++ [c]) = [] := by
      rw [trimStart, List.dropWhile_append, ← trimStart, hstart, List.isEmpty_nil, if_pos rfl,
        List.dropWhile_cons_of_pos h, List.dropWhile_nil]
    rw [trim, trim, hnil, hstart]
  | cons d rest =>
    have hkept : trimStart (text ++ [c]) = trimStart text ++ [c] := by
      rw [trimStart, List.dropWhile_append, ← trimStart, hstart, List.isEmpty_cons, if_neg Bool.false_ne_true]
    rw [trim, trim, hkept, hend]

theorem trim_eq_self_of_forall {text : List Char} (h : ∀ c ∈ text, isBlank c = false) :
    trim text = text :=
  trim_eq_self_iff.mpr ⟨fun c hc => h c (List.mem_of_mem_head? hc),
    fun c hc => h c (List.mem_of_mem_getLast? hc)⟩

theorem isBlank_of_isDigit {c : Char} (h : c.isDigit) : isBlank c = false := by
  obtain ⟨hlow, hhigh⟩ : 48 ≤ c.toNat ∧ c.toNat ≤ 57 := Char.isDigit_iff_toNat.mp h
  simp only [isBlank, blankRanges, List.any_cons, List.any_nil]
  grind

/-! ## Cutting at a separator and after a start -/

section Separator

variable {separates : Char → Bool}

theorem cutFirst?_append {before : List Char} {c : Char} (h : ∀ d ∈ before, separates d = false)
    (hc : separates c) (after : List Char) :
    cutFirst? separates (before ++ c :: after) = some (before, after) := by
  have htrue : ∀ d ∈ before, (!separates d) = true := fun d hd => by rw [h d hd, Bool.not_false]
  rw [cutFirst?, List.dropWhile_append_of_pos htrue, List.takeWhile_append_of_pos htrue]
  simp [hc]

theorem cutFirst?_eq_none {text : List Char} (h : ∀ d ∈ text, separates d = false) :
    cutFirst? separates text = none := by
  have hnil : text.dropWhile (fun d => !separates d) = [] :=
    List.dropWhile_eq_nil_iff.mpr fun d hd => by rw [h d hd, Bool.not_false]
  rw [cutFirst?, hnil]

end Separator

section Character

variable {c : Char} {text before after : List Char}

theorem cutFirst?_append_cons (h : c ∉ before) (after : List Char) :
    cutFirst? (· == c) (before ++ c :: after) = some (before, after) := by
  have hbefore : ∀ d ∈ before, (d == c) = false := fun d hd => by
    rw [beq_eq_false_iff_ne]
    rintro rfl
    exact h hd
  exact cutFirst?_append hbefore (beq_self_eq_true c) after

theorem cutFirst?_eq_none_iff : cutFirst? (· == c) text = none ↔ c ∉ text := by
  constructor
  · intro h hmem
    obtain ⟨before, after, rfl, hbefore⟩ := List.eq_append_cons_of_mem hmem
    rw [cutFirst?_append_cons hbefore] at h
    cases h
  · intro h
    refine cutFirst?_eq_none fun d hd => ?_
    rw [beq_eq_false_iff_ne]
    rintro rfl
    exact h hd

theorem cutFirst?_eq_some_iff :
    cutFirst? (· == c) text = some (before, after) ↔ text = before ++ c :: after ∧ c ∉ before := by
  constructor
  · intro h
    have hmem : c ∈ text := by
      by_contra hmem
      rw [cutFirst?_eq_none_iff.mpr hmem] at h
      cases h
    obtain ⟨first, rest, rfl, hfirst⟩ := List.eq_append_cons_of_mem hmem
    rw [cutFirst?_append_cons hfirst] at h
    cases h
    exact ⟨rfl, hfirst⟩
  · rintro ⟨rfl, hbefore⟩
    exact cutFirst?_append_cons hbefore after

theorem cutLast?_eq_none_iff : cutLast? (· == c) text = none ↔ c ∉ text := by
  rw [cutLast?, Option.map_eq_none_iff, cutFirst?_eq_none_iff, List.mem_reverse]

theorem cutLast?_eq_some_iff :
    cutLast? (· == c) text = some (before, after) ↔ text = before ++ c :: after ∧ c ∉ after := by
  have hcut : cutLast? (· == c) text = some (before, after) ↔
      cutFirst? (· == c) text.reverse = some (after.reverse, before.reverse) := by
    rw [cutLast?, Option.map_eq_some_iff]
    constructor
    · rintro ⟨⟨first, second⟩, h, heq⟩
      obtain ⟨rfl, rfl⟩ := Prod.mk.inj heq
      rw [h, List.reverse_reverse, List.reverse_reverse]
    · intro h
      exact ⟨_, h, by simp only [List.reverse_reverse]⟩
  rw [hcut, cutFirst?_eq_some_iff, List.mem_reverse, List.reverse_eq_iff]
  simp

end Character

@[simp] theorem after?_append (start : String) (rest : List Char) :
    after? start (start.toList ++ rest) = some rest :=
  after?_eq_some_iff.mpr rfl

theorem after?_eq_none_iff {start : String} {text : List Char} :
    after? start text = none ↔ ¬start.toList <+: text := by
  rw [Option.eq_none_iff_forall_ne_some]
  constructor
  · rintro h ⟨rest, hrest⟩
    exact h rest (after?_eq_some_iff.mpr hrest.symm)
  · intro h rest hrest
    exact h ⟨rest, (after?_eq_some_iff.mp hrest).symm⟩

theorem after?_eq_none {start : String} {text : List Char} (hstart : start.toList ≠ [])
    (h : start.toList.head? ≠ text.head?) : after? start text = none := by
  refine Option.eq_none_iff_forall_ne_some.mpr fun rest hrest => h ?_
  rw [after?_eq_some_iff.mp hrest, List.head?_append_of_ne_nil _ hstart]

theorem between?_eq_some_iff {quote : Char} {text inner : List Char} :
    between? quote text = some inner ↔ text = quote :: (inner ++ [quote]) := by
  cases text with
  | nil => simp [between?]
  | cons c rest =>
    rw [between?, Option.ite_none_right_eq_some, List.cons.injEq]
    constructor
    · rintro ⟨⟨hc, hlast⟩, hinner⟩
      obtain ⟨before, rfl⟩ := List.getLast?_eq_some_iff.mp hlast
      rw [List.dropLast_concat, Option.some.injEq] at hinner
      exact ⟨hc, by rw [hinner]⟩
    · rintro ⟨hc, rfl⟩
      exact ⟨⟨hc, List.getLast?_concat⟩, by rw [List.dropLast_concat]⟩

theorem dropTrailing_append {c : Char} {text : List Char} (h : text.getLast? ≠ some c) :
    dropTrailing c (text ++ [c]) = text := by
  have hkeep : text.reverse.dropWhile (· == c) = text.reverse := by
    cases hreverse : text.reverse with
    | nil => rfl
    | cons d rest =>
      have hd : text.getLast? = some d := by rw [← List.head?_reverse, hreverse, List.head?_cons]
      refine List.dropWhile_cons_of_neg ?_
      rintro heq
      exact h (by rw [hd, beq_iff_eq.mp heq])
  rw [dropTrailing, List.reverse_append, List.reverse_singleton, List.singleton_append,
    List.dropWhile_cons, if_pos (beq_self_eq_true c), hkeep, List.reverse_reverse]

/-! ## Pieces -/

theorem trim_subset (text : List Char) : trim text ⊆ text := by
  have hend : trim text <+: trimStart text := trimEnd_prefix (trimStart text)
  exact (hend.sublist.trans (List.dropWhile_sublist isBlank)).subset

/-- Nothing is in a piece that was not in the text, nor what the text was cut at. -/
theorem forall_mem_of_mem_splitOnP {α : Type} {separates : α → Bool} {text piece : List α}
    (h : piece ∈ text.splitOnP separates) : ∀ c ∈ piece, c ∈ text ∧ separates c = false := by
  induction text generalizing piece with
  | nil =>
    rw [List.splitOnP_nil, List.mem_singleton] at h
    subst h
    exact nofun
  | cons d text ih =>
    have hlater : ∀ piece ∈ text.splitOnP separates, ∀ c ∈ piece, c ∈ d :: text ∧ separates c = false :=
      fun piece hpiece c hc => ⟨List.mem_cons_of_mem _ (ih hpiece c hc).1, (ih hpiece c hc).2⟩
    rw [List.splitOnP_cons_eq_if_modifyHead] at h
    split at h
    next =>
      rcases List.mem_cons.mp h with rfl | hpiece
      · exact nofun
      · exact hlater piece hpiece
    next hd =>
      obtain ⟨first, more, hpieces⟩ := List.exists_cons_of_ne_nil (List.splitOnP_ne_nil separates text)
      rw [hpieces] at h hlater
      rw [List.modifyHead_cons] at h
      rcases List.mem_cons.mp h with rfl | hpiece
      · exact List.forall_mem_cons.mpr
          ⟨⟨List.mem_cons_self, by simpa using hd⟩, hlater first List.mem_cons_self⟩
      · exact hlater piece (List.mem_cons_of_mem _ hpiece)

theorem notMem_of_mem_splitOn {c : Char} {text piece : List Char} (h : piece ∈ text.splitOn c) :
    c ∉ piece := by
  rw [List.splitOn_eq_splitOnP] at h
  intro hc
  simpa using (forall_mem_of_mem_splitOnP h c hc).2

theorem subset_of_mem_splitOn {c : Char} {text piece : List Char} (h : piece ∈ text.splitOn c) :
    piece ⊆ text := by
  rw [List.splitOn_eq_splitOnP] at h
  exact fun d hd => (forall_mem_of_mem_splitOnP h d hd).1

/-- Texts that were each ended by a separator are found again between the separators. -/
theorem splitOn_flatMap_ended {c : Char} {texts : List (List Char)} (h : ∀ text ∈ texts, c ∉ text) :
    (texts.flatMap fun text => text ++ [c]).splitOn c = texts ++ [[]] := by
  induction texts with
  | nil => rfl
  | cons text texts ih =>
    rw [List.flatMap_cons, List.append_assoc, List.singleton_append,
      List.splitOn_append_cons_self_of_not_mem (h text List.mem_cons_self),
      ih fun other hother => h other (List.mem_cons_of_mem _ hother), List.cons_append]

theorem notMem_intercalate {separator c : Char} (hc : c ≠ separator) {pieces : List (List Char)}
    (h : ∀ piece ∈ pieces, c ∉ piece) : c ∉ [separator].intercalate pieces := by
  induction pieces with
  | nil => exact List.not_mem_nil
  | cons piece pieces ih =>
    cases pieces with
    | nil =>
      rw [List.intercalate_singleton]
      exact h piece List.mem_cons_self
    | cons next pieces =>
      rw [List.intercalate_cons_cons]
      exact List.not_mem_append
        (List.not_mem_append (h piece List.mem_cons_self) (fun hmem => hc (List.mem_singleton.mp hmem)))
        (ih fun other hother => h other (List.mem_cons_of_mem _ hother))

theorem intercalate_concat {separator : Char} {pieces : List (List Char)} (h : pieces ≠ []) (last : List Char) :
    [separator].intercalate (pieces ++ [last]) = [separator].intercalate pieces ++ separator :: last := by
  induction pieces with
  | nil => exact absurd rfl h
  | cons piece pieces ih =>
    cases pieces with
    | nil => simp
    | cons next pieces =>
      rw [List.cons_append, List.intercalate_cons_of_ne_nil (List.append_ne_nil_of_right_ne_nil _ (by simp)),
        ih (List.cons_ne_nil _ _), List.intercalate_cons_of_ne_nil (List.cons_ne_nil _ _), ← List.append_assoc]

/-! ## Lines -/

theorem exists_prefix_of_mem_linesOfPieces {pieces : List (List Char)} {line : List Char}
    (h : line ∈ linesOfPieces pieces) : ∃ piece ∈ pieces, line <+: piece := by
  fun_induction linesOfPieces pieces with
  | case1 => cases h
  | case2 last hlast => cases h
  | case3 last hlast => exact ⟨last, List.mem_cons_self, by rw [List.mem_singleton.mp h]⟩
  | case4 first next more ih =>
    rcases List.mem_cons.mp h with rfl | hmem
    · refine ⟨first, List.mem_cons_self, ?_⟩
      unfold dropReturn
      split
      · exact List.dropLast_prefix first
      · exact List.prefix_rfl
    · obtain ⟨piece, hpiece, hstart⟩ := ih hmem
      exact ⟨piece, List.mem_cons_of_mem _ hpiece, hstart⟩

theorem feed_notMem_of_mem_lines {text line : List Char} (h : line ∈ lines text) : '\n' ∉ line := by
  obtain ⟨piece, hpiece, hstart⟩ := exists_prefix_of_mem_linesOfPieces h
  exact fun hfeed => notMem_of_mem_splitOn hpiece (hstart.subset hfeed)

theorem subset_of_mem_lines {text line : List Char} (h : line ∈ lines text) : line ⊆ text := by
  obtain ⟨piece, hpiece, hstart⟩ := exists_prefix_of_mem_linesOfPieces h
  exact List.Subset.trans hstart.subset (subset_of_mem_splitOn hpiece)

theorem dropReturn_eq_self {line : List Char} (h : line.getLast? ≠ some '\r') : dropReturn line = line :=
  if_neg h

/-- Nothing of a text that ends with a line feed, or is empty, runs over into what follows. -/
theorem lines_append {first : List Char} (h : ∀ c ∈ first.getLast?, c = '\n') (second : List Char) :
    lines (first ++ second) = lines first ++ lines second := by
  cases hlast : first.getLast? with
  | none =>
    rw [List.getLast?_eq_none_iff.mp hlast]
    rfl
  | some c =>
    obtain rfl := h c hlast
    obtain ⟨before, rfl⟩ := List.getLast?_eq_some_iff.mp hlast
    have hnil : lines [] = [] := rfl
    rw [List.append_assoc, List.singleton_append, lines_append_lineFeed, lines_append_lineFeed, hnil,
      List.append_nil]

theorem eq_lineFeed_of_getLast? {text : String} (h : text = "" ∨ text.toList.getLast? = some '\n') :
    ∀ c ∈ text.toList.getLast?, c = '\n' := by
  rcases h with rfl | hlast
  · rintro c ⟨⟩
  · rw [hlast]
    rintro c ⟨⟩
    rfl

/-- A text that starts like a line has a first line that starts so. -/
theorem exists_lines_append_eq_cons {start : List Char} (hne : start ≠ []) (hfeed : '\n' ∉ start)
    (hreturn : start.getLast? ≠ some '\r') (rest : List Char) :
    ∃ line more, lines (start ++ rest) = (start ++ line) :: more := by
  by_cases hrest : '\n' ∈ rest
  · obtain ⟨before, after, rfl, hbefore⟩ := List.eq_append_cons_of_mem hrest
    have hpiece : '\n' ∉ start ++ before := List.not_mem_append hfeed hbefore
    rw [← List.append_assoc, lines_append_lineFeed, List.splitOn_eq_singleton hpiece, List.map_singleton,
      List.singleton_append, dropReturn]
    split
    next hlast =>
      have hbefore : before ≠ [] := by
        rintro rfl
        exact hreturn (by rwa [List.append_nil] at hlast)
      exact ⟨before.dropLast, _, by rw [List.dropLast_append_of_ne_nil hbefore]⟩
    next => exact ⟨before, _, rfl⟩
  · have hline : (start ++ rest).isEmpty = false :=
      List.isEmpty_eq_false_iff.mpr (List.append_ne_nil_of_left_ne_nil hne rest)
    rw [lines, List.splitOn_eq_singleton (List.not_mem_append hfeed hrest), linesOfPieces, hline,
      if_neg Bool.false_ne_true]
    exact ⟨rest, [], rfl⟩

/-- A text that starts at the margin has a first line that does. -/
theorem exists_lines_eq_cons {c : Char} (h : isBlank c = false) (rest : List Char) :
    ∃ line more, lines (c :: rest) = (c :: line) :: more := by
  have hfeed : '\n' ∉ [c] := by
    intro hmem
    obtain rfl := List.mem_singleton.mp hmem
    exact absurd h (by decide)
  have hreturn : [c].getLast? ≠ some '\r' := by
    rintro ⟨⟩
    exact absurd h (by decide)
  exact exists_lines_append_eq_cons (List.cons_ne_nil c []) hfeed hreturn rest

theorem lines_flatMap_of_ended {β : Type} {parts : List β} {text : β → List Char}
    (h : ∀ part ∈ parts, ∀ c ∈ (text part).getLast?, c = '\n') :
    lines (parts.flatMap text) = parts.flatMap fun part => lines (text part) := by
  induction parts with
  | nil => rfl
  | cons part parts ih =>
    rw [List.flatMap_cons, lines_append (h part List.mem_cons_self),
      ih fun other hother => h other (List.mem_cons_of_mem _ hother), List.flatMap_cons]

/-- Texts that were each written on a line of their own are the lines again, but for carriage returns at their
ends, and nothing of them runs over into what follows. -/
theorem lines_flatMap_append {texts : List (List Char)} (hfeed : ∀ text ∈ texts, '\n' ∉ text) (rest : List Char) :
    lines ((texts.flatMap fun text => text ++ ['\n']) ++ rest) = texts.map dropReturn ++ lines rest := by
  induction texts with
  | nil => rfl
  | cons text texts ih =>
    rw [List.flatMap_cons, List.append_assoc, List.append_assoc, List.singleton_append, lines_append_lineFeed,
      List.splitOn_eq_singleton (hfeed text List.mem_cons_self),
      ih fun other hother => hfeed other (List.mem_cons_of_mem _ hother), List.map_singleton,
      List.singleton_append, List.map_cons, List.cons_append]

theorem lines_flatMap {texts : List (List Char)} (hfeed : ∀ text ∈ texts, '\n' ∉ text)
    (hreturn : ∀ text ∈ texts, text.getLast? ≠ some '\r') :
    lines (texts.flatMap fun text => text ++ ['\n']) = texts := by
  have hkeep : ∀ text ∈ texts, dropReturn text = text := fun text htext => dropReturn_eq_self (hreturn text htext)
  have hlines := lines_flatMap_append hfeed []
  rwa [List.append_nil, List.map_congr_left hkeep, List.map_id', show lines [] = [] from rfl,
    List.append_nil] at hlines

theorem toList_join_ended (texts : List String) :
    (String.join (texts.map fun line => line ++ "\n")).toList =
      (texts.map String.toList).flatMap fun line => line ++ ['\n'] := by
  simp [List.flatMap_def, Function.comp_def]

theorem trim_dropReturn (line : List Char) : trim (dropReturn line) = trim line := by
  unfold dropReturn
  split
  next hlast =>
    obtain ⟨before, rfl⟩ := List.getLast?_eq_some_iff.mp hlast
    rw [List.dropLast_concat, trim_concat (by decide)]
  next => rfl

/-! ## Words and lines -/

/-- A text without white space in it, and with something in it. -/
structure IsWord (text : String) : Prop where
  ne_empty : text ≠ ""
  no_blank : ∀ c ∈ text.toList, isBlank c = false

instance (text : String) : Decidable (IsWord text) :=
  decidable_of_iff (text ≠ "" ∧ text.toList.all fun c => !isBlank c)
    ⟨fun ⟨hne, hall⟩ => ⟨hne, by simpa using hall⟩, fun h => ⟨h.ne_empty, by simpa using h.no_blank⟩⟩

theorem IsWord.toList_ne_nil {text : String} (h : IsWord text) : text.toList ≠ [] :=
  fun hnil => h.ne_empty (String.toList_eq_nil_iff.mp hnil)

theorem IsWord.trim_toList {text : String} (h : IsWord text) : trim text.toList = text.toList :=
  trim_eq_self_of_forall h.no_blank

theorem isWord_of_mem_words {text word : List Char} (h : word ∈ words text) : IsWord (String.ofList word) := by
  obtain ⟨hpiece, hne⟩ := List.mem_filter.mp h
  refine ⟨fun hempty => ?_, fun c hc => ?_⟩
  · rw [String.ofList_eq_empty_iff] at hempty
    simp [hempty] at hne
  · rw [String.toList_ofList] at hc
    exact (forall_mem_of_mem_splitOnP hpiece c hc).2

/-- A text on one line that ends in something else than white space. -/
structure IsLine (text : List Char) : Prop where
  ne_nil : text ≠ []
  no_feed : '\n' ∉ text
  last : ∀ c ∈ text.getLast?, isBlank c = false

instance (text : List Char) : Decidable (IsLine text) :=
  decidable_of_iff (text ≠ [] ∧ '\n' ∉ text ∧ text.getLast?.all fun c => !isBlank c)
    ⟨fun ⟨hne, hfeed, hlast⟩ => ⟨hne, hfeed, by simpa [Option.all_eq_true] using hlast⟩,
      fun h => ⟨h.ne_nil, h.no_feed, by simpa [Option.all_eq_true] using h.last⟩⟩

namespace IsLine

variable {text : List Char}

theorem append (h : IsLine text) {before : List Char} (hbefore : '\n' ∉ before) : IsLine (before ++ text) where
  ne_nil := List.append_ne_nil_of_right_ne_nil _ h.ne_nil
  no_feed := fun hmem => (List.mem_append.mp hmem).elim hbefore h.no_feed
  last := fun c hc => h.last c (by rwa [List.getLast?_append_of_ne_nil _ h.ne_nil] at hc)

theorem cons (h : IsLine text) {c : Char} (hc : c ≠ '\n') : IsLine (c :: text) := by
  show IsLine ([c] ++ text)
  exact h.append fun hmem => hc (List.mem_singleton.mp hmem).symm

theorem getLast?_ne_return (h : IsLine text) : text.getLast? ≠ some '\r' :=
  fun hlast => absurd (h.last _ hlast) (by decide)

theorem isBlankText_eq_false (h : IsLine text) : isBlankText text = false := by
  cases hlast : text.getLast? with
  | none => exact absurd (List.getLast?_eq_none_iff.mp hlast) h.ne_nil
  | some c =>
    rw [isBlankText, List.all_eq_false]
    exact ⟨c, List.mem_of_mem_getLast? hlast, by simp [h.last c hlast]⟩

end IsLine

theorem feed_notMem_of_no_blank {text : List Char} (h : ∀ c ∈ text, isBlank c = false) : '\n' ∉ text :=
  fun hmem => absurd (h _ hmem) (by decide)

theorem IsWord.isLine {text : String} (h : IsWord text) : IsLine text.toList where
  ne_nil := h.toList_ne_nil
  no_feed := feed_notMem_of_no_blank h.no_blank
  last := fun c hc => h.no_blank c (List.mem_of_mem_getLast? hc)

end UpdatePosture.Text
