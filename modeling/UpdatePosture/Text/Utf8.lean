/-!
# UTF-8

Bytes to characters, with the place and extent of what is not UTF-8. Bytes are cut from the left into
characters and flaws; a flaw is the longest start of some character that the next byte cannot continue,
so it is one to three bytes long, or it is cut off by the end of the bytes.
-/

namespace UpdatePosture.Text.Utf8

/-- What stands at one place of a byte string. -/
inductive Piece where
  | character (c : Char)
  /-- Bytes that start a character, or none, and that the byte after them does not continue. -/
  | broken (width : Nat)
  /-- The start of a character, up to the end of the bytes. -/
  | cutOff
  deriving DecidableEq, Repr

/-- A byte with a smallest and a greatest value. -/
structure ByteRange where
  low : UInt8
  high : UInt8

namespace ByteRange

def contains (range : ByteRange) (byte : UInt8) : Bool :=
  range.low ≤ byte && byte ≤ range.high

/-- Every byte after the second of a character lies here. -/
def continuation : ByteRange := ⟨0x80, 0xbf⟩

end ByteRange

/-- The bits that a first byte contributes, and the ranges of the bytes that have to follow it. The second
byte is restricted where a character would be written longer than needed, be a surrogate, or be too large. -/
def follow? (first : UInt8) : Option (Nat × List ByteRange) :=
  let bits (base : UInt8) := (first - base).toNat
  if first < 0x80 then some (first.toNat, [])
  else if first < 0xc2 then none
  else if first < 0xe0 then some (bits 0xc0, [.continuation])
  else if first = 0xe0 then some (0, [⟨0xa0, 0xbf⟩, .continuation])
  else if first = 0xed then some (bits 0xe0, [⟨0x80, 0x9f⟩, .continuation])
  else if first < 0xf0 then some (bits 0xe0, [.continuation, .continuation])
  else if first = 0xf0 then some (0, [⟨0x90, 0xbf⟩, .continuation, .continuation])
  else if first < 0xf4 then some (bits 0xf0, [.continuation, .continuation, .continuation])
  else if first = 0xf4 then some (bits 0xf0, [⟨0x80, 0x8f⟩, .continuation, .continuation])
  else none

/-- Reads the bytes that are still due; `value` holds the bits so far, `width` the bytes so far. -/
def continued (value width : Nat) : List ByteRange → List UInt8 → Piece × List UInt8
  | [], bytes => (.character (Char.ofNat value), bytes)
  | _ :: _, [] => (.cutOff, [])
  | range :: due, byte :: bytes =>
      if range.contains byte then continued (value * 64 + (byte - 0x80).toNat) (width + 1) due bytes
      else (.broken width, byte :: bytes)

/-- The piece that starts with `first`, and the bytes after it. -/
def piece (first : UInt8) (bytes : List UInt8) : Piece × List UInt8 :=
  match follow? first with
  | none => (.broken 1, bytes)
  | some (value, due) => continued value 1 due bytes

theorem length_continued_le (value width : Nat) (due : List ByteRange) (bytes : List UInt8) :
    (continued value width due bytes).2.length ≤ bytes.length := by
  fun_induction continued value width due bytes <;> grind

theorem length_piece_le (first : UInt8) (bytes : List UInt8) :
    (piece first bytes).2.length ≤ bytes.length := by
  unfold piece
  split
  · exact Nat.le_refl _
  · exact length_continued_le ..

/-- Adds the pieces of `bytes` to those `found` before, which are listed last first. -/
def piecesOnto (found : List Piece) : List UInt8 → List Piece
  | [] => found.reverse
  | first :: bytes => piecesOnto ((piece first bytes).1 :: found) (piece first bytes).2
termination_by bytes => bytes.length
decreasing_by exact Nat.lt_succ_of_le (length_piece_le first bytes)

/-- The pieces of a byte string, from left to right. -/
def pieces (bytes : List UInt8) : List Piece :=
  piecesOnto [] bytes

/-- Where bytes stop being UTF-8. -/
structure Flaw where
  /-- How many bytes before it are UTF-8. -/
  index : Nat
  /-- Its length; `none` when the bytes end inside a character. -/
  width : Option Nat
  deriving DecidableEq, Repr

def Flaw.message (flaw : Flaw) : String :=
  match flaw.width with
  | some width => s!"invalid utf-8 sequence of {width} bytes from index {flaw.index}"
  | none => s!"incomplete utf-8 byte sequence from index {flaw.index}"

def Piece.character? : Piece → Option Char
  | .character c => some c
  | _ => none

/-- The character a reader sees in the place of a piece: a flaw shows as the replacement character. -/
def Piece.shown (piece : Piece) : Char :=
  piece.character?.getD '\ufffd'

/-- The text that the bytes spell, or their first flaw. -/
def decode (bytes : List UInt8) : Except Flaw String :=
  let all := pieces bytes
  let sound := all.takeWhile fun piece => piece.character?.isSome
  let text := String.ofList (sound.map Piece.shown)
  match (all.drop sound.length).head? with
  | some (.broken width) => .error ⟨text.utf8ByteSize, some width⟩
  | some .cutOff => .error ⟨text.utf8ByteSize, none⟩
  | _ => .ok text

/-- The text that the bytes spell, with a replacement character for each flaw. -/
def decodeLossy (bytes : List UInt8) : String :=
  String.ofList ((pieces bytes).map Piece.shown)

/-- The bytes of a text. -/
def encode (text : String) : List UInt8 :=
  text.toList.flatMap String.utf8EncodeChar

end UpdatePosture.Text.Utf8
