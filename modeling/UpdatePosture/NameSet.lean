/-!
# Sets of names

A set of names is listed in ascending order of their characters, each name once.
-/

namespace UpdatePosture

structure NameSet where
  toList : List String
  ascending : toList.Pairwise (· < ·)
  deriving DecidableEq, Repr

namespace NameSet

/-- Puts a name into its place in an ascending list that does not hold it, or leaves the list as it is. -/
def insertInto (name : String) : List String → List String
  | [] => [name]
  | first :: rest =>
      if name < first then name :: first :: rest
      else if first < name then first :: insertInto name rest
      else first :: rest

theorem eq_of_not_lt {a b : String} (hab : ¬a < b) (hba : ¬b < a) : a = b :=
  String.le_antisymm (String.not_lt.1 hba) (String.not_lt.1 hab)

theorem mem_insertInto {name other : String} {names : List String} :
    other ∈ insertInto name names ↔ other = name ∨ other ∈ names := by
  fun_induction insertInto name names with
  | case1 => simp
  | case2 => simp
  | case3 first rest _ _ ih => simp [ih, or_left_comm]
  | case4 first rest h h' =>
    have := eq_of_not_lt h h'
    simp [this]

theorem ascending_insertInto {name : String} {names : List String} (h : names.Pairwise (· < ·)) :
    (insertInto name names).Pairwise (· < ·) := by
  fun_induction insertInto name names with
  | case1 => simp
  | case2 first rest hlt =>
    refine List.pairwise_cons.2 ⟨fun other hmem => ?_, h⟩
    rcases List.mem_cons.1 hmem with rfl | hmem
    · exact hlt
    · exact String.lt_trans hlt ((List.pairwise_cons.1 h).1 other hmem)
  | case3 first rest _ hlt ih =>
    obtain ⟨hfirst, hrest⟩ := List.pairwise_cons.1 h
    refine List.pairwise_cons.2 ⟨fun other hmem => ?_, ih hrest⟩
    rcases mem_insertInto.1 hmem with rfl | hmem
    · exact hlt
    · exact hfirst other hmem
  | case4 => exact h

instance : EmptyCollection NameSet := ⟨⟨[], .nil⟩⟩

def insert (set : NameSet) (name : String) : NameSet :=
  ⟨insertInto name set.toList, ascending_insertInto set.ascending⟩

/-- The names that occur in the list. -/
def ofList (names : List String) : NameSet :=
  names.foldl insert ∅

instance : Membership String NameSet := ⟨fun set name => name ∈ set.toList⟩

theorem mem_insert {set : NameSet} {name other : String} :
    other ∈ set.insert name ↔ other = name ∨ other ∈ set :=
  mem_insertInto

theorem not_mem_empty {name : String} : name ∉ (∅ : NameSet) :=
  List.not_mem_nil

theorem mem_foldl_insert {names : List String} {set : NameSet} {name : String} :
    name ∈ names.foldl insert set ↔ name ∈ set ∨ name ∈ names := by
  induction names generalizing set with
  | nil => simp
  | cons first names ih => rw [List.foldl_cons, ih, mem_insert, List.mem_cons, or_left_comm, or_assoc]

theorem mem_ofList {names : List String} {name : String} : name ∈ ofList names ↔ name ∈ names := by
  rw [ofList, mem_foldl_insert, or_iff_right not_mem_empty]

end NameSet

end UpdatePosture
