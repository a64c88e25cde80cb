/-!
# Blank characters and trimming

The blanks are the characters of Unicode's `White_Space` property.  Tool lists,
settings and engineer names are trimmed by them, and a chamber enumeration
skips them.
-/

namespace RuncardReview
namespace Text

/-- The code points of `White_Space`, as inclusive ranges in ascending order. -/
def blankRanges : List (Nat × Nat) :=
  [(0x09, 0x0D), (0x20, 0x20), (0x85, 0x85), (0xA0, 0xA0), (0x1680, 0x1680),
    (0x2000, 0x200A), (0x2028, 0x2029), (0x202F, 0x202F), (0x205F, 0x205F),
    (0x3000, 0x3000)]

/-- Membership of a code point in a list of inclusive ranges. -/
def inRanges (n : Nat) (ranges : List (Nat × Nat)) : Bool :=
  ranges.any fun r => decide (r.1 ≤ n) && decide (n ≤ r.2)

/-- A character of the `White_Space` property. -/
def isBlank (c : Char) : Bool :=
  inRanges c.toNat blankRanges

def trimChars (s : List Char) : List Char :=
  ((s.dropWhile isBlank).reverse.dropWhile isBlank).reverse

def trim (s : String) : String :=
  String.ofList (trimChars s.toList)

end Text
end RuncardReview
