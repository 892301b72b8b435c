import Mathlib

/-!
# Sections

The outputs that are read line by line have one shape: some lines open a section, and the lines up to the next
such line belong to it. `sections` cuts a list that way. The readers work in one pass and keep the sections
found so far, the latest first (`grow`). Main statements: such a pass ends with one result for each section,
which depends on the lines of that section alone (`foldl_grow`), and a field that lines set one after the other
ends up as the last of them says (`foldl_field`).
-/

namespace UpdatePosture

variable {α κ σ : Type}

/-- The sections of a list, each with the key that its first item has. What stands before the first section
belongs to none. -/
def sections (opens : α → Option κ) : List α → List (κ × List α)
  | [] => []
  | item :: items =>
      match opens item with
      | some key => (key, items.takeWhile fun item => (opens item).isNone) :: sections opens items
      | none => sections opens items

/-- Takes an item into the results for the sections so far, which are listed last first. -/
def grow (opens : α → Option κ) (start : κ → σ) (extend : σ → α → σ) (results : List σ) (item : α) :
    List σ :=
  match opens item with
  | some key => start key :: results
  | none => results.modifyHead fun result => extend result item

variable {opens : α → Option κ}

@[simp] theorem sections_nil : sections opens [] = [] := rfl

theorem sections_cons_of_eq_some {item : α} {key : κ} (h : opens item = some key) (items : List α) :
    sections opens (item :: items) =
      (key, items.takeWhile fun item => (opens item).isNone) :: sections opens items := by
  rw [sections, h]

theorem sections_cons_of_eq_none {item : α} (h : opens item = none) (items : List α) :
    sections opens (item :: items) = sections opens items := by
  rw [sections, h]

/-- One pass over the items adds a result for each section, and goes on with the last result of before until
the first section opens. -/
theorem foldl_grow_onto (start : κ → σ) (extend : σ → α → σ) (items : List α) (results : List σ) :
    items.foldl (grow opens start extend) results =
      ((sections opens items).map fun found => found.2.foldl extend (start found.1)).reverse ++
        results.modifyHead fun result =>
          (items.takeWhile fun item => (opens item).isNone).foldl extend result := by
  induction items generalizing results with
  | nil => cases results <;> rfl
  | cons item items ih =>
    rw [List.foldl_cons, ih]
    cases h : opens item with
    | none => simp [grow, sections_cons_of_eq_none h, h, Function.comp_def]
    | some key => cases results <;> simp [grow, sections_cons_of_eq_some h, h]

theorem foldl_grow (start : κ → σ) (extend : σ → α → σ) (items : List α) :
    items.foldl (grow opens start extend) [] =
      ((sections opens items).map fun found => found.2.foldl extend (start found.1)).reverse := by
  rw [foldl_grow_onto, List.modifyHead_nil, List.append_nil]

theorem sections_eq_nil {items : List α} (h : ∀ item ∈ items, opens item = none) :
    sections opens items = [] := by
  induction items with
  | nil => rfl
  | cons item items ih =>
    rw [sections_cons_of_eq_none (h item List.mem_cons_self)]
    exact ih fun other hother => h other (List.mem_cons_of_mem _ hother)

/-- The items up to the first one that opens a section, and what is left. -/
theorem exists_eq_takeWhile_append (opens : α → Option κ) (items : List α) :
    ∃ after, items = (items.takeWhile fun item => (opens item).isNone) ++ after ∧
      ∀ item ∈ after.head?, (opens item).isSome := by
  refine ⟨items.dropWhile fun item => (opens item).isNone, List.takeWhile_append_dropWhile.symm, ?_⟩
  intro item hitem
  have hnot := List.head?_dropWhile_not (fun item => (opens item).isNone) items
  rw [Option.mem_def.mp hitem] at hnot
  simpa using hnot

theorem takeWhile_append_of_isSome_head {before after : List α}
    (h : ∀ item ∈ after.head?, (opens item).isSome) :
    (before ++ after).takeWhile (fun item => (opens item).isNone) =
      before.takeWhile fun item => (opens item).isNone := by
  induction before with
  | nil =>
    cases after with
    | nil => rfl
    | cons item after =>
      obtain ⟨key, hkey⟩ := Option.isSome_iff_exists.mp (h item rfl)
      simp [hkey]
  | cons item before ih => simp only [List.cons_append, List.takeWhile_cons, ih]

/-- Cutting a list where a section opens cuts no section in two. -/
theorem sections_append {before after : List α} (h : ∀ item ∈ after.head?, (opens item).isSome) :
    sections opens (before ++ after) = sections opens before ++ sections opens after := by
  induction before with
  | nil => rfl
  | cons item before ih =>
    rw [List.cons_append]
    cases hopens : opens item with
    | none => rw [sections_cons_of_eq_none hopens, sections_cons_of_eq_none hopens, ih]
    | some key =>
      rw [sections_cons_of_eq_some hopens, sections_cons_of_eq_some hopens, ih,
        takeWhile_append_of_isSome_head h, List.cons_append]

/-- No section runs over from one part of a list into the next, if every part starts with a section. -/
theorem sections_flatMap_of_head {β : Type} {parts : List β} {items : β → List α}
    (h : ∀ part ∈ parts, ∀ item ∈ (items part).head?, (opens item).isSome) :
    sections opens (parts.flatMap items) = parts.flatMap fun part => sections opens (items part) := by
  induction parts with
  | nil => rfl
  | cons part parts ih =>
    have h' : ∀ other ∈ parts, ∀ item ∈ (items other).head?, (opens item).isSome := fun other hother =>
      h other (List.mem_cons_of_mem _ hother)
    have hhead : ∀ item ∈ (parts.flatMap items).head?, (opens item).isSome := by
      intro item hitem
      rw [List.head?_flatMap] at hitem
      obtain ⟨other, hother, hitem⟩ := List.exists_of_findSome?_eq_some hitem
      exact h' other hother item hitem
    rw [List.flatMap_cons, sections_append hhead, ih h', List.flatMap_cons]

/-- Lines that were written section by section are cut into these sections again. -/
theorem sections_flatMap {β : Type} {parts : List β} {first : β → α} {key : β → κ} {rest : β → List α}
    (hfirst : ∀ part ∈ parts, opens (first part) = some (key part))
    (hrest : ∀ part ∈ parts, ∀ item ∈ rest part, opens item = none) :
    sections opens (parts.flatMap fun part => first part :: rest part) =
      parts.map fun part => (key part, rest part) := by
  have hpart : ∀ part ∈ parts, sections opens (first part :: rest part) = [(key part, rest part)] := by
    intro part hmem
    rw [sections_cons_of_eq_some (hfirst part hmem), sections_eq_nil (hrest part hmem),
      List.takeWhile_eq_self_iff.mpr]
    intro item hitem
    rw [hrest part hmem item hitem, Option.isNone_none]
  rw [sections_flatMap_of_head, List.flatMap_congr hpart, List.map_eq_flatMap]
  rintro part hmem item ⟨⟩
  rw [hfirst part hmem, Option.isSome_some]

theorem sections_map {β : Type} (image : β → α) (items : List β) :
    sections opens (items.map image) =
      (sections (fun item => opens (image item)) items).map fun found =>
        (found.1, found.2.map image) := by
  induction items with
  | nil => rfl
  | cons item items ih =>
    rw [List.map_cons, sections, sections]
    cases opens (image item) with
    | none => exact ih
    | some key => rw [ih, List.takeWhile_map]; rfl

/-- Where a section among others comes from: the item that opens it, and its items up to the next opening. -/
theorem exists_of_sections_eq {items : List α} {key : κ} {body : List α}
    {earlier later : List (κ × List α)} (h : sections opens items = earlier ++ (key, body) :: later) :
    ∃ before first after, items = before ++ first :: (body ++ after) ∧ opens first = some key ∧
      (∀ item ∈ body, opens item = none) ∧ (∀ item ∈ after.head?, (opens item).isSome) ∧
      sections opens after = later := by
  induction items generalizing earlier with
  | nil => simp at h
  | cons item items ih =>
    cases hopens : opens item with
    | none =>
      rw [sections_cons_of_eq_none hopens] at h
      obtain ⟨before, first, after, rfl, hrest⟩ := ih h
      exact ⟨item :: before, first, after, rfl, hrest⟩
    | some key' =>
      rw [sections_cons_of_eq_some hopens] at h
      cases earlier with
      | cons found earlier =>
        -- this item opens a section before the one that is asked for
        obtain ⟨before, first, after, rfl, hrest⟩ := ih (List.cons.inj h).2
        exact ⟨item :: before, first, after, rfl, hrest⟩
      | nil =>
        obtain ⟨hfound, hlater⟩ := List.cons.inj h
        obtain ⟨rfl, hbody⟩ := Prod.mk.inj hfound
        obtain ⟨after, hitems, hafter⟩ := exists_eq_takeWhile_append opens items
        rw [hbody] at hitems
        have hnone : ∀ item ∈ body, opens item = none := by
          intro item hitem
          rw [← hbody] at hitem
          simpa using List.mem_takeWhile_imp hitem
        refine ⟨[], item, after, by rw [← hitems]; rfl, hopens, hnone, hafter, ?_⟩
        rw [← hlater, hitems, sections_append hafter, sections_eq_nil hnone, List.nil_append]

theorem exists_of_mem_sections {items body : List α} {key : κ} (h : (key, body) ∈ sections opens items) :
    ∃ before first after, items = before ++ first :: (body ++ after) ∧ opens first = some key ∧
      ∀ item ∈ body, opens item = none := by
  obtain ⟨earlier, later, hcut⟩ := List.append_of_mem h
  obtain ⟨before, first, after, hitems, hfirst, hbody, -⟩ := exists_of_sections_eq hcut
  exact ⟨before, first, after, hitems, hfirst, hbody⟩

theorem exists_mem_sections {items : List α} {item : α} {key : κ} (hitem : item ∈ items)
    (h : opens item = some key) : ∃ body, (key, body) ∈ sections opens items := by
  obtain ⟨before, after, rfl⟩ := List.append_of_mem hitem
  have hhead : ∀ first ∈ (item :: after).head?, (opens first).isSome := by
    rintro first ⟨⟩
    rw [h]
    rfl
  rw [sections_append hhead, sections_cons_of_eq_some h]
  exact ⟨_, List.mem_append_right _ List.mem_cons_self⟩

/-! ## Fields -/

section Field

variable {β γ : Type} {field : σ → β} {step : σ → α → σ}

/-- A field of a state that some parts of the items set, and that nothing else touches, is as the last of these
parts says. -/
theorem foldl_field_of_parts {parts : α → List γ} {tells? : γ → Option β}
    (hstep : ∀ state item, field (step state item) = ((parts item).filterMap tells?).getLast?.getD (field state))
    (items : List α) (state : σ) :
    field (items.foldl step state) = ((items.flatMap parts).filterMap tells?).getLast?.getD (field state) := by
  induction items generalizing state with
  | nil => rfl
  | cons item items ih =>
    rw [List.foldl_cons, ih, hstep, List.flatMap_cons, List.filterMap_append, List.getLast?_append]
    cases ((items.flatMap parts).filterMap tells?).getLast? <;> rfl

theorem foldl_field {tells? : α → Option β}
    (hstep : ∀ state item, field (step state item) = (tells? item).getD (field state)) (items : List α)
    (state : σ) : field (items.foldl step state) = (items.filterMap tells?).getLast?.getD (field state) := by
  -- the only part of an item is the item itself
  have hstep' : ∀ state item,
      field (step state item) = ([item].filterMap tells?).getLast?.getD (field state) := by
    intro state item
    rw [hstep]
    cases htells : tells? item <;> simp [htells]
  rw [foldl_field_of_parts hstep', List.flatMap_singleton']

/-- A field that starts without a value has one only if some item says something, and is as the last of these reads. -/
theorem foldl_field_of_none {field : σ → Option β} {tells? : α → Option γ} {read : γ → Option β}
    (hstep : ∀ state item, field (step state item) = ((tells? item).map read).getD (field state)) {state : σ}
    (hnone : field state = none) (items : List α) :
    field (items.foldl step state) = ((items.filterMap tells?).getLast?).bind read := by
  rw [foldl_field hstep, hnone, ← List.map_filterMap, List.getLast?_map]
  cases (items.filterMap tells?).getLast? <;> rfl

/-- The last of the items that say something. -/
theorem getLast?_filterMap_eq_some_iff {tells? : α → Option β} {items : List α} {told : β} :
    (items.filterMap tells?).getLast? = some told ↔
      ∃ before item after, items = before ++ item :: after ∧ tells? item = some told ∧
        ∀ later ∈ after, tells? later = none := by
  rw [List.getLast?_filterMap, List.findSome?_eq_some_iff]
  constructor
  · rintro ⟨after, item, before, hitems, htold, hafter⟩
    refine ⟨before.reverse, item, after.reverse, ?_, htold, fun later hlater => ?_⟩
    · rw [List.reverse_eq_iff.mp hitems, List.reverse_append, List.reverse_cons, List.append_assoc,
        List.singleton_append]
    · exact hafter later (List.mem_reverse.mp hlater)
  · rintro ⟨before, item, after, rfl, htold, hafter⟩
    refine ⟨after.reverse, item, before.reverse, ?_, htold, fun later hlater => ?_⟩
    · rw [List.reverse_append, List.reverse_cons, List.append_assoc, List.singleton_append]
    · exact hafter later (List.mem_reverse.mp hlater)

end Field

end UpdatePosture
