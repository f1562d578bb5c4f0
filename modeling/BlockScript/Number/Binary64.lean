import BlockScript.Number.Power

/-!
# Double precision numbers as bit patterns

A number is its 64-bit interchange pattern: one sign bit, eleven exponent bits, fifty-two
fraction bits. A finite pattern denotes `± m · 2 ^ q`, with `m` and `q` read off by
`Binary64.significand` and `Binary64.exponent`, and every operation here is **exact** integer
arithmetic on `m` and `q` followed by one rounding (`Binary64.ofRatio`), to nearest with ties to
the even significand. Nothing rests on the machine's floating point unit, so every fact about a
number can be computed in the logic.
-/

namespace BlockScript

/-- A double precision number, given by its interchange bit pattern. Two patterns are the same
term exactly when they agree bit for bit; the numeric comparison is `Binary64.same`. -/
structure Binary64 where
  /-- The interchange pattern. -/
  bits : UInt64
deriving DecidableEq, Repr, Inhabited

namespace Binary64

/-! ### The parts of a pattern -/

/-- Whether the sign bit is set. -/
def negative (x : Binary64) : Bool :=
  decide (twoTo 63 ≤ x.bits.toNat)

/-- The pattern without its sign bit. Magnitudes are ordered as the numbers they denote. -/
def magnitude (x : Binary64) : Nat :=
  x.bits.toNat % twoTo 63

/-- The magnitude of both infinities; the magnitudes above it are not numbers. -/
def infinityMagnitude : Nat :=
  0x7FF * twoTo 52

/-- The number with a given sign and magnitude. -/
def ofMagnitude (negative : Bool) (magnitude : Nat) : Binary64 :=
  ⟨UInt64.ofNat ((if negative then twoTo 63 else 0) + magnitude)⟩

/-- Zero with the sign bit clear. -/
def zero : Binary64 :=
  ⟨0⟩

/-- Infinity with the given sign. -/
def infinity (negative : Bool) : Binary64 :=
  ofMagnitude negative infinityMagnitude

/-- The canonical pattern that is not a number. -/
def notANumber : Binary64 :=
  ofMagnitude false (infinityMagnitude + twoTo 51)

/-- Whether the pattern denotes no number at all. -/
def isNaN (x : Binary64) : Bool :=
  decide (infinityMagnitude < x.magnitude)

/-- Whether the pattern is one of the two infinities. -/
def isInfinite (x : Binary64) : Bool :=
  decide (x.magnitude = infinityMagnitude)

/-- Whether the pattern is one of the two zeros. -/
def isZero (x : Binary64) : Bool :=
  decide (x.magnitude = 0)

/-- The integer `m` of a finite pattern `± m · 2 ^ q`. -/
def significand (x : Binary64) : Nat :=
  let fraction := x.magnitude % twoTo 52
  if x.magnitude / twoTo 52 = 0 then fraction else twoTo 52 + fraction

/-- The exponent `q` of a finite pattern `± m · 2 ^ q`. -/
def exponent (x : Binary64) : Int :=
  (max (x.magnitude / twoTo 52) 1 : Nat) - 1075

/-- The same number with the other sign. -/
def neg (x : Binary64) : Binary64 :=
  ofMagnitude (!x.negative) x.magnitude

/-- The numeric comparison: no pattern that is not a number equals anything, and the two zeros
are equal. -/
def same (x y : Binary64) : Bool :=
  !x.isNaN && !y.isNaN && (decide (x = y) || (x.isZero && y.isZero))

/-! ### Rounding a ratio -/

/-- The integer nearest to `num / den`, a tie going to the even one. -/
def roundHalfEven (num den : Nat) : Nat :=
  let low := num / den
  let twice := 2 * (num % den)
  if twice < den then low
  else if den < twice then low + 1
  else if low % 2 = 0 then low
  else low + 1

/-- `num / den` in units of `2 ^ q`, as a ratio of naturals. -/
def scaled (num den : Nat) (q : Int) : Nat × Nat :=
  if 0 ≤ q then (num, den * twoTo q.toNat) else (num * twoTo (-q).toNat, den)

/-- The unit in the last place of the rounded ratio, as a power of two: the quotient has 53 bits
in that unit, and no unit is finer than `2 ^ (-1074)`. -/
def unitOf (num den : Nat) : Int :=
  let guess : Int := (Nat.log2 num : Int) - (Nat.log2 den : Int) - 52
  let (n, d) := scaled num den guess
  max (if n / d < twoTo 52 then guess - 1 else guess) (-1074)

/-- The magnitude nearest to `num / den`, for a positive `den`. A carry out of the significand
runs into the exponent bits and gives the next power of two; past the largest finite magnitude
it gives infinity. -/
def magnitudeOfRatio (num den : Nat) : Nat :=
  if num = 0 then 0
  else
    let q := unitOf num den
    let (n, d) := scaled num den q
    min ((q + 1074).toNat * twoTo 52 + roundHalfEven n d) infinityMagnitude

/-- The number nearest to `± num / den`. -/
def ofRatio (negative : Bool) (num den : Nat) : Binary64 :=
  ofMagnitude negative (magnitudeOfRatio num den)

/-- The number nearest to an integer. -/
def ofInt (n : Int) : Binary64 :=
  ofRatio (decide (n < 0)) n.natAbs 1

/-- The number nearest to `10 ^ k`. -/
def powerOfTen (k : Nat) : Binary64 :=
  ofRatio false (tenTo k) 1

/-! ### Products, quotients and integer parts -/

/-- The absolute value of a finite number as a ratio of naturals. -/
def ratio (x : Binary64) : Nat × Nat :=
  if 0 ≤ x.exponent then (x.significand * twoTo x.exponent.toNat, 1)
  else (x.significand, twoTo (-x.exponent).toNat)

/-- The rounded product of two finite numbers. -/
def mul (x y : Binary64) : Binary64 :=
  let (a, b) := x.ratio
  let (c, d) := y.ratio
  ofRatio (x.negative != y.negative) (a * c) (b * d)

/-- The rounded quotient of two finite numbers, the divisor not zero. -/
def div (x y : Binary64) : Binary64 :=
  let (a, b) := x.ratio
  let (c, d) := y.ratio
  ofRatio (x.negative != y.negative) (a * d) (b * c)

/-- The integer part of a finite number, rounded toward zero. -/
def truncate (x : Binary64) : Int :=
  let (num, den) := x.ratio
  let whole : Int := (num / den : Nat)
  if x.negative then -whole else whole

/-- The integer part of a number as a signed 32-bit word: what lies outside the range goes to its
nearer end, and what is not a number goes to zero. -/
def toInt32 (x : Binary64) : Int32 :=
  if x.isNaN then 0
  else if x.isInfinite then if x.negative then Int32.minValue else Int32.maxValue
  else clampInt32 x.truncate

end Binary64

end BlockScript
