/-!
# Blank characters

The one notion of white space that every reader of this library uses: the Unicode property
`White_Space`. A no-break space and a next-line control count; a zero-width space, a byte order mark
and the ASCII separators 1C to 1F do not.
-/

namespace UpdatePosture.Text

/-- The code points with the Unicode property `White_Space`, as inclusive ranges. -/
def blankRanges : List (Nat × Nat) :=
  [(0x09, 0x0d), (0x20, 0x20), (0x85, 0x85), (0xa0, 0xa0), (0x1680, 0x1680), (0x2000, 0x200a),
   (0x2028, 0x2029), (0x202f, 0x202f), (0x205f, 0x205f), (0x3000, 0x3000)]

/-- Whether a character is white space. -/
def isBlank (c : Char) : Bool :=
  blankRanges.any fun range => range.1 ≤ c.toNat && c.toNat ≤ range.2

example : isBlank '\n' = true ∧ isBlank '\u00a0' = true ∧ isBlank '\u3000' = true := by decide
example : isBlank '\u200b' = false ∧ isBlank '\ufeff' = false ∧ isBlank '\x1c' = false := by decide
/-- The property has 25 code points. -/
example : (blankRanges.map fun range => range.2 + 1 - range.1).sum = 25 := by decide

end UpdatePosture.Text
