import BlockScript.Number.Shortest

/-!
# Number layouts

How a number is put on paper is a handful of decisions, held in one `Layout` record for each kind
of output. The digits are always the fewest that read back (`Decimal.shortest`); a layout says
which magnitudes are written out positionally, whether a whole number keeps a `.0`, whether a
positive power of ten has a sign, and how ties between two shortest decimals are settled.
-/

namespace BlockScript

/-- The decisions of a number format. -/
structure Layout where
  /-- Positional notation is used when the decimal point falls between these two positions; `none`
  means that it is used always. The position of `d.dd · 10 ^ e` is `e + 1`. -/
  positional : Option (Int × Int)
  /-- Whether a whole number in positional notation ends in `.0`. -/
  keepPoint : Bool
  /-- Whether a power of ten that is not negative is written with a `+`. -/
  signedPower : Bool
  /-- Which of two equally near shortest decimals is written. -/
  tie : Tie
deriving Repr

namespace Layout

/-- Digits with the point after the first `p` of them, zeros filling any gap. -/
def positionalText (keepPoint : Bool) (digits : List Char) (p : Int) : List Char :=
  let tail := if keepPoint then ['.', '0'] else []
  if p ≤ 0 then
    ['0', '.'] ++ List.replicate (-p).toNat '0' ++ digits
  else if (digits.length : Int) ≤ p then
    digits ++ List.replicate (p.toNat - digits.length) '0' ++ tail
  else
    digits.take p.toNat ++ ['.'] ++ digits.drop p.toNat

/-- Digits with the point after the first of them, and the power of ten that this leaves, without
leading zeros. -/
def exponentText (signedPower : Bool) (digits : List Char) (p : Int) : List Char :=
  let mantissa := match digits with
    | d :: e :: rest => d :: '.' :: e :: rest
    | few => few
  let exponent := p - 1
  let sign := if exponent < 0 then ['-'] else if signedPower then ['+'] else []
  mantissa ++ ['e'] ++ sign ++ Decimal.digitChars exponent.natAbs

/-- The text of a finite number without its sign. -/
def finiteText (layout : Layout) (x : Binary64) : List Char :=
  if x.isZero then
    if layout.keepPoint then ['0', '.', '0'] else ['0']
  else
    let d := Decimal.shortest layout.tie x
    let digits := Decimal.digitChars d.digits
    let p := d.point
    match layout.positional with
    | none => positionalText layout.keepPoint digits p
    | some (low, high) =>
      if low ≤ p ∧ p ≤ high then positionalText layout.keepPoint digits p
      else exponentText layout.signedPower digits p

/-- The text of a number. A negative zero keeps its sign. -/
def text (layout : Layout) (x : Binary64) : String :=
  if x.isNaN then "NaN"
  else
    let body := if x.isInfinite then "inf".toList else layout.finiteText x
    String.ofList (if x.negative then '-' :: body else body)

end Layout

end BlockScript
