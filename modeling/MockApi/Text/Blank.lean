import MockApi.Text.Basic

/-!
# Blank code points

The white space of Unicode together with the four ASCII information separators. One set serves
trimming, the gaps between tokens of a condition and the gaps inside a placeholder.
-/

namespace MockApi.Text

/-- The ranges of blank code points, both ends included. -/
def blankRanges : List (Nat × Nat) :=
  [(0x09, 0x0D), (0x1C, 0x20), (0x85, 0x85), (0xA0, 0xA0), (0x1680, 0x1680), (0x2000, 0x200A),
    (0x2028, 0x2029), (0x202F, 0x202F), (0x205F, 0x205F), (0x3000, 0x3000)]

/-- Whether a code point is white space. -/
def isBlank (c : Nat) : Bool := blankRanges.any fun (low, high) ↦ low ≤ c && c ≤ high

/-- The text without the white space at its ends. -/
def trim (t : Text) : Text := trimWhile isBlank t

end MockApi.Text
