import BlockScript.Number.Binary64

/-!
# The fewest decimal digits that read back

A finite nonzero number `v = m · 2 ^ q` is what every real between its two neighbours' midpoints
rounds to, the midpoints included exactly when `m` is even. `Decimal.shortest` walks the decimal
grids `10 ^ (p - 1)`, `10 ^ (p - 2)`, …, where `10 ^ (p - 1) ≤ v < 10 ^ p`, and stops at the first
one that has a point in this interval. If a grid has a point there at all, then one of the two
points around `v` is such a point, so only those are tried; of two the nearer wins, and `Tie` says
which one of two equally near ones.

Everything is compared in naturals: the interval and the grid are put over one denominator.
-/

namespace BlockScript

/-- The decimal number `digits · 10 ^ exponent`. -/
structure Decimal where
  /-- The digits, read as a natural number. -/
  digits : Nat
  /-- The power of ten of the last digit. -/
  exponent : Int
deriving DecidableEq, Repr

/-- Which of two equally near decimals is taken. -/
inductive Tie where
  /-- The larger one. -/
  | up
  /-- The one whose last digit is even. -/
  | toEven
deriving DecidableEq, Repr

namespace Decimal

/-- The digits of a natural number, most significant first. -/
def digitChars (n : Nat) : List Char :=
  Nat.toDigits 10 n

/-- The position of the decimal point: a decimal with point `p` lies in `10 ^ (p - 1) ≤ d < 10 ^ p`
when it has a digit other than zero. -/
def point (d : Decimal) : Int :=
  (digitChars d.digits).length + d.exponent

/-- Drops trailing zero digits, at most `fuel` of them. -/
def trimZeros : Nat → Decimal → Decimal
  | 0, d => d
  | fuel + 1, d =>
    if d.digits ≠ 0 ∧ d.digits % 10 = 0 then trimZeros fuel ⟨d.digits / 10, d.exponent + 1⟩ else d

/-- The reals that round to a number, and the number itself, all over one denominator. -/
structure Interval where
  /-- The lower end. -/
  low : Nat
  /-- The number. -/
  value : Nat
  /-- The upper end. -/
  high : Nat
  /-- The common denominator. -/
  den : Nat
  /-- Whether the two ends belong to it. -/
  closed : Bool

/-- The interval of reals that round to a finite nonzero number. Below a power of two the spacing
halves, so the lower end is nearer there. -/
def Interval.ofBinary64 (x : Binary64) : Interval :=
  let m := x.significand
  let q := x.exponent - 2
  let lowGap := if m = twoTo 52 ∧ -1074 < x.exponent then 1 else 2
  let scale := if 0 ≤ q then twoTo q.toNat else 1
  { low := (4 * m - lowGap) * scale
    value := 4 * m * scale
    high := (4 * m + 2) * scale
    den := if 0 ≤ q then 1 else twoTo (-q).toNat
    closed := m % 2 = 0 }

/-- The interval in units of `10 ^ e`. -/
def Interval.inUnits (i : Interval) (e : Int) : Interval :=
  if 0 ≤ e then { i with den := i.den * tenTo e.toNat }
  else
    let scale := tenTo (-e).toNat
    { i with low := i.low * scale, value := i.value * scale, high := i.high * scale }

/-- Whether the integer `n` lies in an interval. -/
def Interval.holds (i : Interval) (n : Nat) : Bool :=
  let scaledN := n * i.den
  if i.closed then decide (i.low ≤ scaledN) && decide (scaledN ≤ i.high)
  else decide (i.low < scaledN) && decide (scaledN < i.high)

/-- The power of ten just above the number of an interval: every finite nonzero number exceeds
`10 ^ (-324)`, so scaling by `10 ^ 324` leaves a positive integer part to count digits of. -/
def Interval.point (i : Interval) : Int :=
  ((digitChars (i.value * tenTo 324 / i.den)).length : Int) - 324

/-- The integer of an interval nearest to its number, of the two around the number. -/
def Interval.nearest? (i : Interval) (tie : Tie) : Option Nat :=
  let low := i.value / i.den
  match i.holds low, i.holds (low + 1) with
  | false, false => none
  | true, false => some low
  | false, true => some (low + 1)
  | true, true =>
    let twice := 2 * (i.value % i.den)
    if twice < i.den then some low
    else if i.den < twice then some (low + 1)
    else match tie with
      | .up => some (low + 1)
      | .toEven => some (if low % 2 = 0 then low else low + 1)

/-- The first hit on the grids with `count`, `count + 1`, … digits, `fuel` grids in all. -/
def searchGrid (tie : Tie) (i : Interval) (point : Int) : Nat → Nat → Decimal
  | 0, count => ⟨(i.inUnits (point - count)).value / (i.inUnits (point - count)).den, point - count⟩
  | fuel + 1, count =>
    match (i.inUnits (point - count)).nearest? tie with
    | some n => ⟨n, point - count⟩
    | none => searchGrid tie i point fuel (count + 1)

/-- The shortest decimal that rounds to the absolute value of a finite number. Seventeen digits
always suffice. -/
def shortest (tie : Tie) (x : Binary64) : Decimal :=
  if x.isZero then ⟨0, 0⟩
  else
    let i := Interval.ofBinary64 x
    trimZeros 20 (searchGrid tie i i.point 17 1)

end Decimal

end BlockScript
