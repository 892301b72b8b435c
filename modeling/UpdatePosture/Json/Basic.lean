/-!
# JSON values

The values that this library reads and writes. Two kinds of literal are legal JSON and yet never of use
here, and a value keeps no more of them than that they are there: numbers other than plain natural numbers,
and strings with one half of a surrogate pair, which no text spells.
-/

namespace UpdatePosture

inductive Json where
  | null
  | bool (value : Bool)
  /-- `none` for a number with a sign, a fraction or an exponent. -/
  | number (value : Option Nat)
  /-- `none` for a string that no text spells. -/
  | string (text : Option String)
  | array (items : List Json)
  /-- The members in their order, repeated keys included. -/
  | object (members : List (Option String × Json))
  deriving Inhabited, Repr

namespace Json

def ofNat (value : Nat) : Json := number (some value)

def ofString (text : String) : Json := string (some text)

def ofStrings (texts : List String) : Json := array (texts.map ofString)

/-- An object with these members. -/
def record (members : List (String × Json)) : Json :=
  object (members.map fun (key, value) => (some key, value))

end Json

end UpdatePosture
