/-!
# The order of version fragments

A fragment is the upstream part or the revision of a package version, as bytes. It is cut into segments: a
run of bytes that are no digits, then a run of digits, either of which may be empty. Two fragments compare
segment by segment, text before number, and the shorter one goes on with empty segments.

In text a tilde sorts before the end of the run, the end before letters, and letters before all other
bytes. A run of digits compares as a number: leading zeros do not count, and then more digits are greater.
-/

namespace UpdatePosture.Version

/-- Compares position by position; the list that ends first goes on with `filler`. -/
def comparePadded {α : Type} (compareItems : α → α → Ordering) (filler : α) :
    List α → List α → Ordering
  | [], [] => .eq
  | x :: xs, [] => (compareItems x filler).then (comparePadded compareItems filler xs [])
  | [], y :: ys => (compareItems filler y).then (comparePadded compareItems filler [] ys)
  | x :: xs, y :: ys => (compareItems x y).then (comparePadded compareItems filler xs ys)
termination_by left right => left.length + right.length

def isDigitByte (byte : UInt8) : Bool :=
  48 ≤ byte && byte ≤ 57

def isLetterByte (byte : UInt8) : Bool :=
  (65 ≤ byte && byte ≤ 90) || (97 ≤ byte && byte ≤ 122)

/-- The byte that sorts before the end of a run. -/
def tilde : UInt8 := 126

/-- The rank of a byte among the bytes of a text run. The end of a run has rank 0. -/
def byteRank (byte : UInt8) : Int :=
  if byte = tilde then -1
  else if isDigitByte byte then 0
  else if isLetterByte byte then byte.toNat
  else byte.toNat + 256

/-- The order of runs that hold no digits. -/
def compareTexts (left right : List UInt8) : Ordering :=
  comparePadded compare 0 (left.map byteRank) (right.map byteRank)

/-- A run of digits without its leading zeros. -/
def significant (digits : List UInt8) : List UInt8 :=
  digits.dropWhile (· == 48)

/-- The order of runs of digits, of any length. -/
def compareDigits (left right : List UInt8) : Ordering :=
  (compare (significant left).length (significant right).length).then
    (compare (significant left) (significant right))

/-- A run of bytes that are no digits and the run of digits after it. -/
structure Segment where
  text : List UInt8
  digits : List UInt8
  deriving DecidableEq, Repr

def Segment.empty : Segment := ⟨[], []⟩

def Segment.compare (left right : Segment) : Ordering :=
  (compareTexts left.text right.text).then (compareDigits left.digits right.digits)

/-- The segments of a fragment. Only the first may have no text, and only the last no digits. -/
def segments : List UInt8 → List Segment
  | [] => []
  | byte :: bytes =>
      if isDigitByte byte then
        ⟨[], byte :: bytes.takeWhile isDigitByte⟩ :: segments (bytes.dropWhile isDigitByte)
      else
        let numbered := bytes.dropWhile fun b => !isDigitByte b
        ⟨byte :: bytes.takeWhile fun b => !isDigitByte b, numbered.takeWhile isDigitByte⟩ ::
          segments (numbered.dropWhile isDigitByte)
termination_by bytes => bytes.length
decreasing_by
  · exact Nat.lt_succ_of_le (List.dropWhile_sublist _).length_le
  · exact Nat.lt_succ_of_le ((List.dropWhile_sublist _).trans (List.dropWhile_sublist _)).length_le

/-- The order of fragments. -/
def compareFragments (left right : List UInt8) : Ordering :=
  comparePadded Segment.compare .empty (segments left) (segments right)

end UpdatePosture.Version
