import UpdatePosture.Json.Basic
import UpdatePosture.Text.Numeral

/-!
# Records in JSON

Readers for the shapes that documents are made of. A record is written as an object, or as an array of its
fields in their order. An object may have members that the record does not know; a field of the record may
stand in it only once.
-/

namespace UpdatePosture.Json

def bool? : Json → Option Bool
  | bool value => some value
  | _ => none

def string? : Json → Option String
  | string text => text
  | _ => none

/-- A natural number of at most 64 bits. -/
def word? : Json → Option Nat
  | number value => value.filter (· < Text.wordBound)
  | _ => none

/-- A value, or null in its place. -/
def nullable? {α : Type} (read : Json → Option α) : Json → Option (Option α)
  | null => some none
  | value => (read value).map some

/-- An array of values of one kind. -/
def list? {α : Type} (read : Json → Option α) : Json → Option (List α)
  | array items => items.mapM read
  | _ => none

/-- One of several names, written as a string or as an object that has the name for its only key and null
for its value. -/
def choice? {α : Type} (ofName? : String → Option α) : Json → Option α
  | string text => text.bind ofName?
  | object [(key, null)] => key.bind ofName?
  | _ => none

/-- A field of a record, and what stands for it where it is missing; `none` if it has to be there. -/
structure Field where
  name : String
  inObject : Option Json
  /-- For an array that ends before the field. -/
  inArray : Option Json

namespace Field

def required (name : String) : Field := ⟨name, none, none⟩

/-- A field that counts as null where an object lacks it. -/
def nullable (name : String) : Field := ⟨name, some .null, none⟩

/-- A field that may be missing everywhere. -/
def optional (name : String) (value : Json) : Field := ⟨name, some value, some value⟩

/-- The value of the field in an object. -/
def ofMembers? (field : Field) (members : List (Option String × Json)) : Option Json :=
  match members.filter (·.1 == some field.name) with
  | [] => field.inObject
  | [(_, value)] => some value
  | _ => none

end Field

/-- The values of the fields in an array. -/
def arrayFields? : List Field → List Json → Option (List Json)
  | [], [] => some []
  | [], _ :: _ => none
  | field :: fields, [] => do return (← field.inArray) :: (← arrayFields? fields [])
  | _ :: fields, value :: values => (arrayFields? fields values).map (value :: ·)

/-- The values of the fields of a record. -/
def fields? (fields : List Field) : Json → Option (List Json)
  | array items => arrayFields? fields items
  | object members =>
      if members.all (·.1.isSome) then fields.mapM (·.ofMembers? members) else none
  | _ => none

end UpdatePosture.Json
