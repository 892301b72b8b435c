import Mathlib
import UpdatePosture.Apt.Stanzas
import UpdatePosture.Proofs.Sections
import UpdatePosture.Proofs.Text.Numeral

/-!
# What stanzas tell

The details of packages are read in one pass, with one stanza under way, but what comes out is told by each stanza
alone (`Tells`): a blank line ends a stanza even if it is not complete, so that nothing of it is left for the next
one. Main statement: the size of a version is known exactly if a stanza tells it, and is then the one that the last
such stanza tells (`size?_read_stanzas`).
-/

namespace UpdatePosture.Apt

open Text

/-! ## Stanzas -/

/-- The stanzas of a text: the lines between its blank lines. -/
def stanzas (text : String) : List (List (List Char)) :=
  (lines text.toList).splitOnP isBlankText

/-- The last line of the stanza that starts with the label goes on with the value. -/
def LastLabelled (label : String) (stanza : List (List Char)) (value : List Char) : Prop :=
  ∃ before after, stanza = before ++ (label.toList ++ value) :: after ∧ ∀ line ∈ after, ¬label.toList <+: line

/-- A number below 2^64 in ASCII digits, behind one plus sign or none. -/
def SpellsSize (text : List Char) (size : Nat) : Prop :=
  ∃ digits, (text = digits ∨ text = '+' :: digits) ∧ digits ≠ [] ∧ (∀ c ∈ digits, c.isDigit) ∧
    Nat.ofDigitChars 10 digits 0 = size ∧ size < 2 ^ 64

/-- The stanza has all three fields, and they tell the size of the version. -/
structure Tells (stanza : List (List Char)) (key : VersionKey) (size : Nat) : Prop where
  package : ∃ value, LastLabelled "Package:" stanza value ∧ key.package = String.ofList (trim value)
  version : ∃ value, LastLabelled "Version:" stanza value ∧ key.version = String.ofList (trim value)
  size : ∃ value, LastLabelled "Size:" stanza value ∧ SpellsSize (trim value) size

/-- Whether a line ends a stanza or is one of its three fields. -/
def matters (line : List Char) : Bool :=
  isBlankText line || ["Package:", "Version:", "Size:"].any (startsWith · line)

example : matters "Installed-Size: 5".toList = false ∧ matters " Size: 5".toList = false := by decide

/-- What is known of the size of a version. -/
def Sizes.size? (sizes : Sizes) (key : VersionKey) : Option Nat :=
  (sizes.entries.find? (·.1 == key)).map (·.2)

theorem size?_eq_some_iff {text : List Char} {size : Nat} : Text.size? text = some size ↔ SpellsSize text size := by
  have hword (digits : List Char) : word? digits = some size ↔
      digits ≠ [] ∧ (∀ c ∈ digits, c.isDigit) ∧ Nat.ofDigitChars 10 digits 0 = size ∧ size < 2 ^ 64 := by
    rw [word?_eq_some_iff, digits?_eq_some_iff, and_assoc, and_assoc]
    rfl
  constructor
  · intro h
    unfold Text.size? at h
    split at h
    next digits => exact ⟨digits, .inr rfl, (hword digits).mp h⟩
    next => exact ⟨text, .inl rfl, (hword text).mp h⟩
  · rintro ⟨digits, rfl | rfl, hdigits⟩
    · -- digits do not start with a sign
      unfold Text.size?
      split
      next rest => exact absurd (hdigits.2.1 '+' List.mem_cons_self) (by decide)
      next => exact (hword text).mpr hdigits
    · exact (hword digits).mpr hdigits

theorem getLast?_filterMap_after? {label : String} {stanza : List (List Char)} {value : List Char} :
    (stanza.filterMap (after? label)).getLast? = some value ↔ LastLabelled label stanza value := by
  rw [getLast?_filterMap_eq_some_iff]
  constructor
  · rintro ⟨before, line, after, rfl, hline, hafter⟩
    rw [after?_eq_some_iff.mp hline]
    exact ⟨before, after, rfl, fun later hlater => after?_eq_none_iff.mp (hafter later hlater)⟩
  · rintro ⟨before, after, rfl, hafter⟩
    exact ⟨before, _, after, rfl, after?_append label value,
      fun later hlater => after?_eq_none_iff.mpr (hafter later hlater)⟩

namespace Stanza

/-- What is known of a stanza from its lines. -/
def ofLines (lines : List (List Char)) : Stanza :=
  lines.foldl add empty

/-- No line has two labels, so each field is set apart from the others. -/
theorem add_eq (stanza : Stanza) (line : List Char) :
    stanza.add line =
      { package := ((after? "Package:" line).map fun value => some (String.ofList (trim value))).getD stanza.package
        version := ((after? "Version:" line).map fun value => some (String.ofList (trim value))).getD stanza.version
        size := ((after? "Size:" line).map fun value => Text.size? (trim value)).getD stanza.size } := by
  have hother {label other : String} {value : List Char} (hlabel : label.toList ≠ []) (hother : other.toList ≠ [])
      (hne : other.toList.head? ≠ label.toList.head?) (h : after? label line = some value) :
      after? other line = none := by
    refine after?_eq_none hother ?_
    rwa [after?_eq_some_iff.mp h, List.head?_append_of_ne_nil _ hlabel]
  unfold add
  split
  next value hpackage =>
    have hversion : after? "Version:" line = none := hother (by decide) (by decide) (by decide) hpackage
    have hsize : after? "Size:" line = none := hother (by decide) (by decide) (by decide) hpackage
    rw [hpackage, hversion, hsize]
    rfl
  next hpackage =>
    split
    next value hversion =>
      have hsize : after? "Size:" line = none := hother (by decide) (by decide) (by decide) hversion
      rw [hpackage, hversion, hsize]
      rfl
    next hversion =>
      rw [hpackage, hversion]
      cases after? "Size:" line <;> rfl

/-- Each field is as the last line with its label says. -/
theorem ofLines_eq (lines : List (List Char)) :
    ofLines lines =
      { package := ((lines.filterMap (after? "Package:")).getLast?).map fun value => String.ofList (trim value)
        version := ((lines.filterMap (after? "Version:")).getLast?).map fun value => String.ofList (trim value)
        size := ((lines.filterMap (after? "Size:")).getLast?).bind fun value => Text.size? (trim value) } := by
  have hpackage : (ofLines lines).package =
      ((lines.filterMap (after? "Package:")).getLast?).bind fun value => some (String.ofList (trim value)) :=
    foldl_field_of_none (fun stanza line => by rw [add_eq]) rfl lines
  have hversion : (ofLines lines).version =
      ((lines.filterMap (after? "Version:")).getLast?).bind fun value => some (String.ofList (trim value)) :=
    foldl_field_of_none (fun stanza line => by rw [add_eq]) rfl lines
  have hsize : (ofLines lines).size =
      ((lines.filterMap (after? "Size:")).getLast?).bind fun value => Text.size? (trim value) :=
    foldl_field_of_none (fun stanza line => by rw [add_eq]) rfl lines
  calc ofLines lines
      = ⟨(ofLines lines).package, (ofLines lines).version, (ofLines lines).size⟩ := rfl
    _ = _ := by rw [hpackage, hversion, hsize, Option.map_eq_bind, Option.map_eq_bind]; rfl

/-- What the lines of a stanza tell, if they are complete. -/
def told? (lines : List (List Char)) : Option (VersionKey × Nat) :=
  (ofLines lines).size?

theorem told?_eq_some_iff {lines : List (List Char)} {key : VersionKey} {size : Nat} :
    told? lines = some (key, size) ↔ Tells lines key size := by
  constructor
  · intro h
    obtain ⟨package, hpackage, h⟩ := Option.bind_eq_some_iff.mp h
    obtain ⟨version, hversion, h⟩ := Option.bind_eq_some_iff.mp h
    obtain ⟨told, hsize, h⟩ := Option.bind_eq_some_iff.mp h
    cases h
    rw [ofLines_eq] at hpackage hversion hsize
    obtain ⟨value, hvalue, rfl⟩ := Option.map_eq_some_iff.mp hpackage
    obtain ⟨value', hvalue', rfl⟩ := Option.map_eq_some_iff.mp hversion
    obtain ⟨value'', hvalue'', hspells⟩ := Option.bind_eq_some_iff.mp hsize
    exact {
      package := ⟨value, getLast?_filterMap_after?.mp hvalue, rfl⟩
      version := ⟨value', getLast?_filterMap_after?.mp hvalue', rfl⟩
      size := ⟨value'', getLast?_filterMap_after?.mp hvalue'', size?_eq_some_iff.mp hspells⟩ }
  · rintro ⟨⟨package, hpackage, hname⟩, ⟨version, hversion, hstring⟩, ⟨told, htold, hspells⟩⟩
    obtain ⟨name, string⟩ := key
    simp only at hname hstring
    rw [told?, ofLines_eq, getLast?_filterMap_after?.mpr hpackage, getLast?_filterMap_after?.mpr hversion,
      getLast?_filterMap_after?.mpr htold, hname, hstring]
    simp [Stanza.size?, size?_eq_some_iff.mpr hspells]

end Stanza

namespace Sizes

/-- The lines up to the first blank one add to the stanza that is under way, and every later stanza is recorded by
itself. -/
theorem record_foldl_step {lines : List (List Char)} {first : List (List Char)} {more : List (List (List Char))}
    (h : lines.splitOnP isBlankText = first :: more) (sizes : Sizes) (stanza : Stanza) :
    (lines.foldl step (sizes, stanza)).1.record (lines.foldl step (sizes, stanza)).2 =
      more.foldl (fun sizes lines => sizes.record (.ofLines lines)) (sizes.record (first.foldl Stanza.add stanza)) := by
  induction lines generalizing first more sizes stanza with
  | nil =>
    cases h
    rfl
  | cons line lines ih =>
    obtain ⟨next, later, hlines⟩ := List.exists_cons_of_ne_nil (List.splitOnP_ne_nil isBlankText lines)
    rw [List.splitOnP_cons_eq_if_modifyHead, hlines] at h
    rw [List.foldl_cons]
    cases hblank : isBlankText line with
    | true =>
      -- nothing is under way after the blank line
      rw [hblank, if_pos rfl] at h
      cases h
      rw [step, if_pos hblank, ih hlines]
      rfl
    | false =>
      rw [hblank, if_neg Bool.false_ne_true, List.modifyHead_cons] at h
      cases h
      rw [step, if_neg (by simp [hblank]), ih hlines, List.foldl_cons]

theorem entries_foldl_record (stanzas : List (List (List Char))) (sizes : Sizes) :
    (stanzas.foldl (fun sizes lines => sizes.record (.ofLines lines)) sizes).entries =
      (stanzas.filterMap Stanza.told?).reverse ++ sizes.entries := by
  induction stanzas generalizing sizes with
  | nil => rfl
  | cons lines stanzas ih =>
    have hrecord : (sizes.record (.ofLines lines)).entries = (Stanza.told? lines).toList ++ sizes.entries := rfl
    rw [List.foldl_cons, ih, hrecord]
    cases htold : Stanza.told? lines with
    | none => rw [List.filterMap_cons_none htold]; rfl
    | some told => rw [List.filterMap_cons_some htold, List.reverse_cons, List.append_assoc]; rfl

/-- What is read is told by one stanza each, the latest first. -/
theorem entries_read_eq (text : String) :
    (read text).entries = ((stanzas text).filterMap Stanza.told?).reverse := by
  obtain ⟨first, more, hlines⟩ :=
    List.exists_cons_of_ne_nil (List.splitOnP_ne_nil isBlankText (lines text.toList))
  have hread : read text = (stanzas text).foldl (fun sizes lines => sizes.record (.ofLines lines)) empty := by
    rw [stanzas, hlines]
    exact record_foldl_step hlines empty .empty
  rw [hread, entries_foldl_record, empty, List.append_nil]

/-- What a stanza tells of one version. -/
def toldOf? (key : VersionKey) (lines : List (List Char)) : Option Nat :=
  (Stanza.told? lines).bind fun told => if told.1 = key then some told.2 else none

theorem toldOf?_eq_some_iff {key : VersionKey} {lines : List (List Char)} {size : Nat} :
    toldOf? key lines = some size ↔ Tells lines key size := by
  rw [← Stanza.told?_eq_some_iff, toldOf?, Option.bind_eq_some_iff]
  constructor
  · rintro ⟨⟨toldKey, toldSize⟩, htold, h⟩
    obtain ⟨hkey, hsize⟩ := Option.ite_none_right_eq_some.mp h
    cases hkey
    cases hsize
    exact htold
  · intro htold
    exact ⟨_, htold, if_pos rfl⟩

theorem toldOf?_eq_none_iff {key : VersionKey} {lines : List (List Char)} :
    toldOf? key lines = none ↔ ∀ size, ¬Tells lines key size := by
  rw [Option.eq_none_iff_forall_ne_some]
  exact forall_congr' fun size => not_congr toldOf?_eq_some_iff

/-- Of several sizes of a version the latest is found. -/
theorem size?_read (text : String) (key : VersionKey) :
    (read text).size? key = ((stanzas text).filterMap (toldOf? key)).getLast? := by
  have hfound (entries : List (VersionKey × Nat)) : (entries.find? (·.1 == key)).map (·.2) =
      entries.findSome? fun told => if told.1 = key then some told.2 else none := by
    rw [List.find?_eq_findSome?_guard, List.map_findSome?]
    refine congrArg (List.findSome? · entries) (funext fun told => ?_)
    by_cases hkey : told.1 = key <;> simp [Option.guard, hkey]
  have htold : (stanzas text).filterMap (toldOf? key) =
      ((stanzas text).filterMap Stanza.told?).filterMap fun told =>
        if told.1 = key then some told.2 else none := by
    rw [List.filterMap_filterMap]
    rfl
  rw [size?, entries_read_eq, hfound, htold, List.getLast?_filterMap]

theorem size?_read_eq_some_iff {text : String} {key : VersionKey} {size : Nat} :
    (read text).size? key = some size ↔
      ∃ before stanza after, stanzas text = before ++ stanza :: after ∧ Tells stanza key size ∧
        ∀ later ∈ after, ∀ other, ¬Tells later key other := by
  rw [size?_read, getLast?_filterMap_eq_some_iff]
  simp only [toldOf?_eq_some_iff, toldOf?_eq_none_iff]

/-- Only blank lines and the three fields are taken in. -/
theorem step_of_not_matters {line : List Char} (h : matters line = false) (state : Sizes × Stanza) :
    step state line = state := by
  obtain ⟨hblank, hlabels⟩ := Bool.or_eq_false_iff.mp h
  have hnone : ∀ label ∈ ["Package:", "Version:", "Size:"], after? label line = none := by
    intro label hlabel
    have hstarts := List.any_eq_false.mp hlabels label hlabel
    simpa [startsWith] using hstarts
  have hadd : state.2.add line = state.2 := by
    rw [Stanza.add_eq, hnone _ (by decide), hnone _ (by decide), hnone _ (by decide)]
    rfl
  rw [step, if_neg (by simp [hblank]), hadd]

theorem read_congr {first second : String}
    (h : (lines first.toList).filter matters = (lines second.toList).filter matters) : read first = read second := by
  have hfilter (text : String) (state : Sizes × Stanza) :
      ((lines text.toList).filter matters).foldl step state = (lines text.toList).foldl step state := by
    rw [List.foldl_filter]
    refine List.foldl_ext _ _ _ fun state line _ => ?_
    cases hmatters : matters line with
    | true => rw [if_pos rfl]
    | false => rw [if_neg Bool.false_ne_true, step_of_not_matters hmatters]
  simp only [read]
  rw [← hfilter first, ← hfilter second, h]

end Sizes

/-- The size of a version is the one that the last of the stanzas about it tells, and no stanza takes part in what
another one tells. Lines that are neither blank nor one of the three fields are of no account. -/
theorem size?_read_stanzas (text : String) :
    (∀ key size, (Sizes.read text).size? key = some size ↔
      ∃ before stanza after, stanzas text = before ++ stanza :: after ∧ Tells stanza key size ∧
        ∀ later ∈ after, ∀ other, ¬Tells later key other) ∧
    ∀ other : String, (lines other.toList).filter matters = (lines text.toList).filter matters →
      Sizes.read other = Sizes.read text :=
  ⟨fun _ _ => Sizes.size?_read_eq_some_iff, fun _ h => Sizes.read_congr h⟩

end UpdatePosture.Apt
