/-!
# Blank characters

The characters with the Unicode property `White_Space`, and the removal of them from both ends of
a text.
-/

namespace BlockScript.Text

/-- The ranges of blank characters, in increasing order. -/
def blankRanges : List (Nat × Nat) :=
  [(0x9, 0xD), (0x20, 0x20), (0x85, 0x85), (0xA0, 0xA0), (0x1680, 0x1680), (0x2000, 0x200A),
   (0x2028, 0x2029), (0x202F, 0x202F), (0x205F, 0x205F), (0x3000, 0x3000)]

/-- Whether a code point lies in one of the ranges. -/
def inRanges (ranges : List (Nat × Nat)) (n : Nat) : Bool :=
  ranges.any fun (low, high) ↦ decide (low ≤ n) && decide (n ≤ high)

/-- Whether a character is blank. -/
def isBlank (c : Char) : Bool :=
  inRanges blankRanges c.toNat

/-- A text without the blank characters at its two ends. -/
def trim (text : String) : String :=
  String.ofList ((text.toList.dropWhile isBlank).reverse.dropWhile isBlank).reverse

end BlockScript.Text
