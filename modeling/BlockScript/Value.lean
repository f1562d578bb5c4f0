import BlockScript.Document.Decoder
import BlockScript.Number.Reading
import BlockScript.Text.Blank

/-!
# Values

The values that blocks hold and report: booleans, signed 32-bit integers, doubles and texts. Every
value can be read as an integer, as a number, as a truth value and as a text.

A text counts as the number it spells after blanks at its ends are dropped (`Numeral.parse?`), and
as zero when it spells none. The number of a double that is not a number is zero; a text that
*spells* `nan` does spell a number in the sense of `Numeral.parse?`, and keeps that reading.
-/

namespace BlockScript

/-- A value. -/
inductive Value where
  /-- A truth value. -/
  | boolean (value : Bool)
  /-- A signed 32-bit integer. -/
  | integer (value : Int32)
  /-- A double. -/
  | float (value : Binary64)
  /-- A text. -/
  | text (value : String)
deriving DecidableEq, Repr, Inhabited

namespace Value

/-- The number that a text counts as. -/
def numberOfText (text : String) : Binary64 :=
  (Numeral.parse? (Text.trim text)).getD Binary64.zero

/-- A value as an integer: doubles lose their fraction and are held within the range. -/
def toInt32 : Value → Int32
  | .boolean value => if value then 1 else 0
  | .integer value => value
  | .float value => value.toInt32
  | .text value => (numberOfText value).toInt32

/-- A value as a number. -/
def toNumber : Value → Binary64
  | .boolean value => Binary64.ofInt (if value then 1 else 0)
  | .integer value => Binary64.ofInt value.toInt
  | .float value => if value.isNaN then Binary64.zero else value
  | .text value => numberOfText value

/-- The lower-case form of a text's ASCII letters. -/
def lowerCase (text : String) : List Char :=
  text.toList.map Char.toLower

/-- A value as a truth value. The false texts are the empty one, `0`, and `false` in any mixture of
ASCII cases. -/
def toBool : Value → Bool
  | .boolean value => value
  | .integer value => value != 0
  | .float value => !value.isZero && !value.isNaN
  | .text value => !(value == "" || value == "0" || lowerCase value == "false".toList)

/-- Numbers shown to the user have the fewest digits that read back, in positional notation
throughout, and a point only where digits follow it. -/
def plainLayout : Layout where
  positional := none
  keepPoint := false
  signedPower := false
  tie := .up

/-- Numbers in descriptions always have a point or a power of ten; positional notation is used from
`0.0001` up to sixteen digits before the point. -/
def describedLayout : Layout where
  positional := some (-3, 16)
  keepPoint := true
  signedPower := false
  tie := .up

/-- A value as a text. -/
def toText : Value → String
  | .boolean value => if value then "true" else "false"
  | .integer value => toString value.toInt
  | .float value => plainLayout.text value
  | .text value => value

/-- The description of a value, with its kind. -/
def describe : Value → String
  | .boolean value => "Bool(" ++ (if value then "true" else "false") ++ ")"
  | .integer value => "Integer(" ++ toString value.toInt ++ ")"
  | .float value => "Float(" ++ describedLayout.text value ++ ")"
  | .text value => "String(" ++ Text.quoted value ++ ")"

/-- Whether two values are equal: they are of one kind, and doubles are compared as numbers. -/
def same : Value → Value → Bool
  | .float x, .float y => x.same y
  | a, b => decide (a = b)

/-- The value that a document stands for. A whole number outside the range of signed 32-bit words
becomes a double. -/
def ofDocument? : Document → Option Value
  | .boolean value => some (.boolean value)
  | .integer n => some (if fitsInt32 n then .integer (Int32.ofInt n) else .float (Binary64.ofInt n))
  | .float value => some (.float value)
  | .text value => some (.text value)
  | _ => none

/-- Reads a value. -/
def decode : Decoder Value :=
  Decoder.union "Value" fun _ d ↦ ofDocument? d

end Value

end BlockScript
