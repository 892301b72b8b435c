import UpdatePosture.Json.Token

/-!
# Writing JSON

A value is written as its tokens, one after the other without gaps. In a string only quotes, backslashes
and control characters are escaped; control characters with an escape of one letter use it.
-/

namespace UpdatePosture.Json

def hexDigit (n : Nat) : Char :=
  if n < 10 then Char.ofNat (48 + n) else Char.ofNat (87 + n)

/-- One character of a string literal. -/
def quoted (c : Char) : List Char :=
  if c = '"' then ['\\', '"']
  else if c = '\\' then ['\\', '\\']
  else if c = '\x08' then ['\\', 'b']
  else if c = '\x0c' then ['\\', 'f']
  else if c = '\n' then ['\\', 'n']
  else if c = '\r' then ['\\', 'r']
  else if c = '\t' then ['\\', 't']
  else if c.toNat < 0x20 then ['\\', 'u', '0', '0', hexDigit (c.toNat / 16), hexDigit (c.toNat % 16)]
  else [c]

/-- The text of a token. A number or string of which only its presence is known is written as one that reads
back as such. -/
def Token.text : Token → List Char
  | openArray => ['[']
  | closeArray => [']']
  | openObject => ['\x7b']
  | closeObject => ['\x7d']
  | comma => [',']
  | colon => [':']
  | null => "null".toList
  | bool true => "true".toList
  | bool false => "false".toList
  | number (some value) => Nat.toDigits 10 value
  | number none => "-0".toList
  | string (some text) => '"' :: text.toList.flatMap quoted ++ ['"']
  | string none => "\"\\ud800\"".toList

mutual

/-- The tokens of a value. -/
def tokens : Json → List Token
  | null => [.null]
  | bool value => [.bool value]
  | number value => [.number value]
  | string text => [.string text]
  | array items => .openArray :: itemTokens items
  | object members => .openObject :: memberTokens members

/-- The items of an array and its end. -/
def itemTokens : List Json → List Token
  | [] => [.closeArray]
  | item :: items => tokens item ++ moreItemTokens items

/-- The items after the first, each after a comma, and the end of the array. -/
def moreItemTokens : List Json → List Token
  | [] => [.closeArray]
  | item :: items => .comma :: (tokens item ++ moreItemTokens items)

/-- A key and its value. -/
def memberToken : Option String × Json → List Token
  | (key, value) => .string key :: .colon :: tokens value

/-- The members of an object and its end. -/
def memberTokens : List (Option String × Json) → List Token
  | [] => [.closeObject]
  | member :: members => memberToken member ++ moreMemberTokens members

/-- The members after the first, each after a comma, and the end of the object. -/
def moreMemberTokens : List (Option String × Json) → List Token
  | [] => [.closeObject]
  | member :: members => .comma :: (memberToken member ++ moreMemberTokens members)

end

/-- The value as text. -/
def render (value : Json) : String :=
  String.ofList (value.tokens.flatMap Token.text)

end UpdatePosture.Json
