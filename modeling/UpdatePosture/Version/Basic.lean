import UpdatePosture.Text.Numeral

/-!
# Package versions

A version is written `epoch:upstream-revision`; the epoch and the revision may be missing. The epoch is
cut at the first colon and the revision at the last hyphen.
-/

namespace UpdatePosture

structure Version where
  epoch : Nat
  upstream : String
  /-- Empty when there is none. -/
  revision : String
  deriving DecidableEq, Repr

namespace Version

open Text

/-- The version with this epoch whose upstream part and revision are written in `rest`, provided the
upstream part starts with a digit. -/
def ofRest? (epoch : Nat) (rest : List Char) : Option Version :=
  let (upstream, revision) := (cutLast? (· == '-') rest).getD (rest, [])
  if upstream.head?.any Char.isDigit then
    some ⟨epoch, String.ofList upstream, String.ofList revision⟩
  else none

/-- Reads a version; white space around it does not count. -/
def parse? (raw : String) : Option Version :=
  let text := trim raw.toList
  match cutFirst? (· == ':') text with
  | none => ofRest? 0 text
  | some (epoch, rest) => do ofRest? (← word? epoch) rest

/-- Writes a version, leaving out an epoch of zero and an empty revision. -/
def display (version : Version) : String :=
  (if version.epoch = 0 then "" else s!"{version.epoch}:") ++ version.upstream ++
    if version.revision = "" then "" else "-" ++ version.revision

instance : ToString Version := ⟨display⟩

example : parse? "1:2.3-4-5ubuntu1 " = some ⟨1, "2.3-4", "5ubuntu1"⟩ := by decide +kernel
example : parse? "2-" = some ⟨0, "2", ""⟩ ∧ parse? "v2" = none ∧ parse? ":2" = none := by decide +kernel
example : (Version.mk 0 "2" "").display = "2" ∧ (Version.mk 3 "2" "1").display = "3:2-1" := by
  decide +kernel

end Version

end UpdatePosture
