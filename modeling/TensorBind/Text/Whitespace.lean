/-!
# White space

The characters that carry the White_Space property of the Unicode
standard, and texts without them at either end.
-/

namespace TensorBind.Text

/-- The code points with the White_Space property, as ranges with both
ends, in order. -/
def whitespaceRanges : List (Nat × Nat) :=
  [(0x9, 0xd), (0x20, 0x20), (0x85, 0x85), (0xa0, 0xa0), (0x1680, 0x1680),
   (0x2000, 0x200a), (0x2028, 0x2029), (0x202f, 0x202f),
   (0x205f, 0x205f), (0x3000, 0x3000)]

/-- Whether a character is white space. -/
def isWhitespace (c : Char) : Bool :=
  whitespaceRanges.any fun (first, last) =>
    decide (first ≤ c.toNat) && decide (c.toNat ≤ last)

/-- **A text without the white space at its two ends.** -/
def trim (text : List Char) : List Char :=
  ((text.dropWhile isWhitespace).reverse.dropWhile isWhitespace).reverse

end TensorBind.Text
