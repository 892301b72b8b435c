import UpdatePosture.Text.Lines
import UpdatePosture.Text.Numeral

/-!
# Download sizes

The details of packages come in stanzas, separated by blank lines. Of each stanza the fields for the
package, the version and the size matter; a stanza tells a size only if it has all three. The last field of
a name counts, and a later stanza about the same version counts over an earlier one.
-/

namespace UpdatePosture.Apt

open Text

/-- A version of a package. -/
structure VersionKey where
  package : String
  version : String
  deriving DecidableEq, Repr

/-- What is known of the stanza that is being read. -/
structure Stanza where
  package : Option String
  version : Option String
  size : Option Nat
  deriving DecidableEq, Repr

namespace Stanza

def empty : Stanza := ⟨none, none, none⟩

/-- Takes a line into the stanza. A size that cannot be read makes the size unknown again. -/
def add (stanza : Stanza) (line : List Char) : Stanza :=
  match after? "Package:" line with
  | some value => { stanza with package := some (String.ofList (trim value)) }
  | none =>
      match after? "Version:" line with
      | some value => { stanza with version := some (String.ofList (trim value)) }
      | none =>
          match after? "Size:" line with
          | some value => { stanza with size := Text.size? (trim value) }
          | none => stanza

/-- The size that a complete stanza tells. -/
def size? (stanza : Stanza) : Option (VersionKey × Nat) := do
  return (⟨← stanza.package, ← stanza.version⟩, ← stanza.size)

end Stanza

/-- The sizes of versions; of several for one version the first counts. -/
structure Sizes where
  entries : List (VersionKey × Nat)
  deriving DecidableEq, Repr

namespace Sizes

def empty : Sizes := ⟨[]⟩

/-- The size of a version, 0 if it is not known. -/
def get (sizes : Sizes) (package version : String) : Nat :=
  ((sizes.entries.find? (·.1 == ⟨package, version⟩)).map (·.2)).getD 0

/-- Sizes with others, found later, that count over them. -/
def updatedBy (earlier later : Sizes) : Sizes :=
  ⟨later.entries ++ earlier.entries⟩

/-- Adds what a stanza tells. -/
def record (sizes : Sizes) (stanza : Stanza) : Sizes :=
  ⟨stanza.size?.toList ++ sizes.entries⟩

/-- Takes a line into the stanza that is being read, or ends that stanza at a blank line. -/
def step (state : Sizes × Stanza) (line : List Char) : Sizes × Stanza :=
  if isBlankText line then (state.1.record state.2, .empty) else (state.1, state.2.add line)

/-- Reads the sizes out of stanzas. -/
def read (text : String) : Sizes :=
  let (sizes, last) := (lines text.toList).foldl step (empty, .empty)
  sizes.record last

end Sizes

end UpdatePosture.Apt
