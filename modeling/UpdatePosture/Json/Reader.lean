import UpdatePosture.Json.Token

/-!
# Reading JSON

A text is one JSON value, with gaps around it and nothing else. Tokens are taken one by one by a machine
whose state holds the containers that are open around the place reached, so nesting may be as deep as the
text is long.
-/

namespace UpdatePosture.Json

/-- A container whose next value is being read. What it holds so far is listed last first. -/
inductive Frame where
  | array (items : List Json)
  | object (members : List (Option String × Json)) (key : Option String)

/-- What may come next, inside the containers `outer`, of which the innermost is first. -/
inductive ReaderState where
  /-- A value. -/
  | valueDue (outer : List Frame)
  /-- A value, or the end of an array that is still empty. -/
  | arrayStart (outer : List Frame)
  /-- A comma, or the end of an array. -/
  | arrayMore (items : List Json) (outer : List Frame)
  /-- A key, or the end of an object that is still empty. -/
  | objectStart (outer : List Frame)
  /-- A key. -/
  | keyDue (members : List (Option String × Json)) (outer : List Frame)
  /-- The colon after a key. -/
  | colonDue (members : List (Option String × Json)) (key : Option String) (outer : List Frame)
  /-- A comma, or the end of an object. -/
  | objectMore (members : List (Option String × Json)) (outer : List Frame)
  /-- Nothing. -/
  | done (value : Json)

namespace ReaderState

/-- A value is complete. -/
def complete (value : Json) : List Frame → ReaderState
  | [] => done value
  | .array items :: outer => arrayMore (value :: items) outer
  | .object members key :: outer => objectMore ((key, value) :: members) outer

/-- The token is the first of a value. -/
def start (outer : List Frame) : Token → Option ReaderState
  | .openArray => some (arrayStart outer)
  | .openObject => some (objectStart outer)
  | .null => some (complete .null outer)
  | .bool value => some (complete (.bool value) outer)
  | .number value => some (complete (.number value) outer)
  | .string text => some (complete (.string text) outer)
  | .closeArray | .closeObject | .comma | .colon => none

/-- Takes one token. -/
def step : ReaderState → Token → Option ReaderState
  | valueDue outer, token => start outer token
  | arrayStart outer, .closeArray => some (complete (.array []) outer)
  | arrayStart outer, token => start (.array [] :: outer) token
  | arrayMore items outer, .comma => some (valueDue (.array items :: outer))
  | arrayMore items outer, .closeArray => some (complete (.array items.reverse) outer)
  | objectStart outer, .closeObject => some (complete (.object []) outer)
  | objectStart outer, .string text => some (colonDue [] text outer)
  | keyDue members outer, .string text => some (colonDue members text outer)
  | colonDue members key outer, .colon => some (valueDue (.object members key :: outer))
  | objectMore members outer, .comma => some (keyDue members outer)
  | objectMore members outer, .closeObject => some (complete (.object members.reverse) outer)
  | _, _ => none

end ReaderState

/-- The value that the tokens spell. -/
def ofTokens? (tokens : List Token) : Option Json :=
  match tokens.foldlM ReaderState.step (.valueDue []) with
  | some (.done value) => some value
  | _ => none

/-- The value that a text spells. -/
def parse? (text : String) : Option Json :=
  (tokens? text.toList).bind ofTokens?

end UpdatePosture.Json
