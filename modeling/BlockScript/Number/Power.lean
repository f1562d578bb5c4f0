/-!
# Powers of two and of ten

The natural powers that decimal and binary numbers are scaled by, and the bounds of words.
-/

namespace BlockScript

/-- `2 ^ k`. -/
def twoTo (k : Nat) : Nat :=
  Nat.pow 2 k

/-- `10 ^ k`. -/
def tenTo (k : Nat) : Nat :=
  Nat.pow 10 k

/-- Whether an integer is a signed 32-bit word. -/
def fitsInt32 (n : Int) : Bool :=
  decide (-0x80000000 ≤ n) && decide (n < 0x80000000)

/-- The signed 32-bit word nearest to an integer. -/
def clampInt32 (n : Int) : Int32 :=
  if n < -0x80000000 then Int32.minValue
  else if n < 0x80000000 then Int32.ofInt n
  else Int32.maxValue

end BlockScript
