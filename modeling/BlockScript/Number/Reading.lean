import BlockScript.Number.Binary64

/-!
# Reading numbers from text

The texts that count as numbers: an optional sign, then either one of the words `inf`,
`infinity` and `nan` in any mixture of cases, or decimal digits with an optional point among them
and an optional power of ten. At least one digit must stand beside the point; blanks, digit
separators and other radixes are not admitted. The result is the double nearest to the decimal
that is written, however many digits it has.
-/

namespace BlockScript.Numeral

/-- The value of a decimal digit, for the ten digits of this notation. -/
def digitValue (c : Char) : Nat :=
  c.toNat - '0'.toNat

/-- The natural number a list of digits spells. -/
def ofDigits (digits : List Char) : Nat :=
  digits.foldl (fun n c ↦ 10 * n + digitValue c) 0

/-- The number nearest to `± digits · 10 ^ e`. The exponent is compared with the range of the
format before any power of ten is taken: from `10 ^ 310` on everything is infinite, and up to
`10 ^ (-330)` everything is zero. -/
def nearest (negative : Bool) (digits : Nat) (e : Int) : Binary64 :=
  if digits = 0 then Binary64.ofMagnitude negative 0
  else
    let point : Int := (Nat.toDigits 10 digits).length + e
    if 310 < point then Binary64.infinity negative
    else if point < -330 then Binary64.ofMagnitude negative 0
    else if 0 ≤ e then Binary64.ofRatio negative (digits * tenTo e.toNat) 1
    else Binary64.ofRatio negative digits (tenTo (-e).toNat)

/-- A sign in front of a text: whether it is a minus, and what follows. -/
def splitSign : List Char → Bool × List Char
  | '-' :: rest => (true, rest)
  | '+' :: rest => (false, rest)
  | text => (false, text)

/-- The power of ten after the digits: nothing, or a mark, an optional sign and digits up to the
end of the text. -/
def exponentPart? : List Char → Option Int
  | [] => some 0
  | mark :: rest =>
    if mark = 'e' ∨ mark = 'E' then
      let (negative, digits) := splitSign rest
      if digits ≠ [] ∧ digits.all Char.isDigit then
        some (if negative then -(ofDigits digits : Int) else ofDigits digits)
      else none
    else none

/-- Digits, a point and digits, with what follows: the digits without the point, how many of them
stood after it, and the rest. -/
def mantissa (text : List Char) : List Char × Nat × List Char :=
  let whole := text.takeWhile Char.isDigit
  match text.dropWhile Char.isDigit with
  | '.' :: rest =>
    let fraction := rest.takeWhile Char.isDigit
    (whole ++ fraction, fraction.length, rest.dropWhile Char.isDigit)
  | rest => (whole, 0, rest)

/-- A number without its sign. -/
def unsigned? (negative : Bool) (text : List Char) : Option Binary64 :=
  let word := text.map Char.toLower
  if word = "inf".toList ∨ word = "infinity".toList then some (Binary64.infinity negative)
  else if word = "nan".toList then some Binary64.notANumber
  else
    match mantissa text with
    | (digits, places, rest) =>
      if digits = [] then none
      else (exponentPart? rest).map fun e ↦ nearest negative (ofDigits digits) (e - places)

/-- The number that a text spells, if it spells one. -/
def parse? (text : String) : Option Binary64 :=
  match splitSign text.toList with
  | (negative, rest) => unsigned? negative rest

end BlockScript.Numeral
