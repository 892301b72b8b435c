import Mathlib
import UpdatePosture.Json.Record

/-!
# Written records

A record that is written with all its fields, each once and in their order, gives back the value of every field.
Main statement: `fields?_record`; with it stand one lemma for each shape that a field can have.
-/

namespace UpdatePosture.Json

/-! ## Fields -/

/-- A key that no two members share stands before one value only. -/
theorem filter_key_eq {members : List (String × Json)} (hnodup : (members.map (·.1)).Nodup) {key : String}
    {value : Json} (h : (key, value) ∈ members) : members.filter (·.1 == key) = [(key, value)] := by
  induction members with
  | nil => cases h
  | cons member members ih =>
    rw [List.map_cons, List.nodup_cons] at hnodup
    obtain ⟨hfirst, hlater⟩ := hnodup
    rcases List.mem_cons.mp h with rfl | hmem
    · have hnone : members.filter (·.1 == key) = [] := by
        refine List.filter_eq_nil_iff.mpr fun other hother heq => hfirst ?_
        exact List.mem_map.mpr ⟨other, hother, beq_iff_eq.mp heq⟩
      rw [List.filter_cons, if_pos (beq_self_eq_true key), hnone]
    · have hne : ¬(member.1 == key) = true := by
        intro heq
        refine hfirst (List.mem_map.mpr ⟨(key, value), hmem, ?_⟩)
        exact (beq_iff_eq.mp heq).symm
      rw [List.filter_cons, if_neg hne, ih hlater hmem]

theorem ofMembers?_of_mem {members : List (String × Json)} (hnodup : (members.map (·.1)).Nodup) {field : Field}
    {value : Json} (h : (field.name, value) ∈ members) :
    field.ofMembers? (members.map fun (key, value) => (some key, value)) = some value := by
  have hfilter : (members.map fun (key, value) => (some key, value)).filter (·.1 == some field.name) =
      [(some field.name, value)] := by
    rw [List.filter_map]
    have hkeys : members.filter ((·.1 == some field.name) ∘ fun (key, value) => (some key, value)) =
        members.filter (·.1 == field.name) := rfl
    rw [hkeys, filter_key_eq hnodup h]
    rfl
  rw [Field.ofMembers?, hfilter]

/-- The fields from one on find their values among all members. -/
theorem mapM_ofMembers? {members : List (String × Json)} (hnodup : (members.map (·.1)).Nodup)
    {fields : List Field} {later : List (String × Json)} (hlater : later ⊆ members)
    (hnames : later.map (·.1) = fields.map (·.name)) :
    fields.mapM (·.ofMembers? (members.map fun (key, value) => (some key, value))) = some (later.map (·.2)) := by
  induction fields generalizing later with
  | nil =>
    obtain rfl : later = [] := List.map_eq_nil_iff.mp hnames
    rfl
  | cons field fields ih =>
    cases later with
    | nil => cases hnames
    | cons member later =>
      obtain ⟨hname, hnames⟩ := List.cons.inj hnames
      have hmember : (field.name, member.2) ∈ members := by
        have hkey : field.name = member.1 := hname.symm
        rw [hkey]
        exact hlater List.mem_cons_self
      rw [List.mapM_cons, ofMembers?_of_mem hnodup hmember,
        ih (List.subset_of_cons_subset hlater) hnames]
      rfl

/-- A record gives back the values of all its fields. -/
theorem fields?_record {fields : List Field} {members : List (String × Json)}
    (hnodup : (fields.map (·.name)).Nodup) (hnames : members.map (·.1) = fields.map (·.name)) :
    (record members).fields? fields = some (members.map (·.2)) := by
  have hkeys : (members.map fun (key, value) => ((some key : Option String), value)).all (·.1.isSome) := by
    rw [List.all_map]
    exact List.all_eq_true.mpr fun _ _ => rfl
  rw [record, fields?, if_pos hkeys]
  exact mapM_ofMembers? (hnames ▸ hnodup) (List.Subset.refl _) hnames

/-! ## Values of fields -/

@[simp] theorem bool?_bool (value : Bool) : bool? (bool value) = some value := rfl

@[simp] theorem string?_ofString (text : String) : string? (ofString text) = some text := rfl

theorem word?_ofNat {value : Nat} (h : value < Text.wordBound) : word? (ofNat value) = some value := by
  rw [ofNat, word?, Option.filter_some, if_pos (by simpa using h)]

theorem choice?_ofString {α : Type} (ofName? : String → Option α) (name : String) :
    choice? ofName? (ofString name) = ofName? name := rfl

theorem nullable?_elim (text : Option String) : nullable? string? (text.elim null ofString) = some text := by
  cases text <;> rfl

section Lists

variable {α : Type} {write : α → Json} {read : Json → Option α}

theorem mapM_map_eq_some {items : List α} (h : ∀ item ∈ items, read (write item) = some item) :
    (items.map write).mapM read = some items := by
  induction items with
  | nil => rfl
  | cons item items ih =>
    obtain ⟨hitem, hitems⟩ := List.forall_mem_cons.mp h
    rw [List.map_cons, List.mapM_cons, hitem, ih hitems]
    rfl

theorem list?_array_map {items : List α} (h : ∀ item ∈ items, read (write item) = some item) :
    list? read (array (items.map write)) = some items :=
  mapM_map_eq_some h

end Lists

theorem list?_ofStrings (texts : List String) : list? string? (ofStrings texts) = some texts :=
  list?_array_map fun _ _ => rfl

theorem mapM_word? {values : List Nat} (h : ∀ value ∈ values, value < Text.wordBound) :
    (values.map ofNat).mapM word? = some values :=
  mapM_map_eq_some fun value hvalue => word?_ofNat (h value hvalue)

end UpdatePosture.Json
