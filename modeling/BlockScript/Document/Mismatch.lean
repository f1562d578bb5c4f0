import BlockScript.Document.Basic
import BlockScript.Number.Layout
import BlockScript.Text.Quoted

/-!
# Why a document is refused

A document is refused either because its text is not well formed (`Refusal.malformed`) or because
it does not have the shape that was asked for (`Refusal.mismatch`). The causes of the second kind
are data; `Mismatch.message` puts them into words.
-/

namespace BlockScript

/-- What stands in a document, as far as a message tells it. -/
inductive Kind where
  /-- The word `null`. -/
  | null
  /-- A boolean. -/
  | boolean (value : Bool)
  /-- A whole number. -/
  | integer (value : Int)
  /-- Any other number. -/
  | float (value : Binary64)
  /-- A text. -/
  | text (value : String)
  /-- An array. -/
  | array
  /-- An object. -/
  | object
deriving DecidableEq, Repr

/-- What was asked for. -/
inductive Expectation where
  /-- A text. -/
  | text
  /-- A boolean. -/
  | boolean
  /-- A signed 32-bit word. -/
  | word
  /-- An object with keys of any name. -/
  | table
  /-- An array of any length. -/
  | list
  /-- The named record. -/
  | record (name : String)
  /-- The named record, as an array of its fields. -/
  | recordFields (name : String) (count : Nat)
  /-- What stands in an input slot of a block. -/
  | inputSlot
deriving DecidableEq, Repr

/-- The ways in which a well formed document can have the wrong shape. -/
inductive Mismatch where
  /-- Another kind of value stands there. -/
  | wrongKind (found : Kind) (expected : Expectation)
  /-- A whole number is no signed 32-bit word. -/
  | outOfRange (value : Int)
  /-- An array has too few items. -/
  | wrongLength (length : Nat) (expected : Expectation)
  /-- A record lacks a field. -/
  | missingField (name : String)
  /-- A record has a field twice. -/
  | duplicateField (name : String)
  /-- A value fits none of the alternatives of a union. -/
  | noAlternative (union : String)
  /-- The shape is right, but its content is refused for the reason given. -/
  | refused (reason : String)
deriving DecidableEq, Repr

/-- Numbers in messages have the fewest digits that read back and always a point, in positional
notation from `0.00001` up to sixteen digits before the point. A power of ten has its sign, as in
`1e+16`. -/
def Kind.numberLayout : Layout where
  positional := some (-4, 16)
  keepPoint := true
  signedPower := true
  tie := .toEven

/-- A kind of value, in words. -/
def Kind.message : Kind → String
  | .null => "null"
  | .boolean value => "boolean `" ++ (if value then "true" else "false") ++ "`"
  | .integer value => "integer `" ++ toString value ++ "`"
  | .float value => "floating point `" ++ numberLayout.text value ++ "`"
  | .text value => "string " ++ Text.quoted value
  | .array => "sequence"
  | .object => "map"

/-- What was asked for, in words. -/
def Expectation.message : Expectation → String
  | .text => "a string"
  | .boolean => "a boolean"
  | .word => "i32"
  | .table => "a map"
  | .list => "a sequence"
  | .record name => "struct " ++ name
  | .recordFields name count =>
    "struct " ++ name ++ " with " ++ toString count ++
      (if count = 1 then " element" else " elements")
  | .inputSlot => "an input array of shadow type, payload and obscured shadow"

/-- A mismatch, in words. -/
def Mismatch.message : Mismatch → String
  | .wrongKind found expected =>
    "invalid type: " ++ found.message ++ ", expected " ++ expected.message
  | .outOfRange value =>
    "invalid value: " ++ (Kind.integer value).message ++ ", expected " ++ Expectation.word.message
  | .wrongLength length expected =>
    "invalid length " ++ toString length ++ ", expected " ++ expected.message
  | .missingField name => "missing field `" ++ name ++ "`"
  | .duplicateField name => "duplicate field `" ++ name ++ "`"
  | .noAlternative union => "data did not match any variant of untagged enum " ++ union
  | .refused reason => reason

/-- Why a document is refused. -/
inductive Refusal where
  /-- Its text is not well formed, or cannot be read. -/
  | malformed
  /-- It has the wrong shape. -/
  | mismatch (cause : Mismatch)
deriving DecidableEq, Repr

namespace Document

/-- The kind of value at the root, when it can be told. -/
def kind? : Document → Option Kind
  | .null => some .null
  | .boolean value => some (.boolean value)
  | .integer value => some (.integer value)
  | .float value => some (.float value)
  | .text value => some (.text value)
  | .array _ => some .array
  | .object _ => some .object
  | .broken => none
  | .unreadable => none

/-- The refusal of a document whose root is not of the expected kind. -/
def unexpected (d : Document) (expected : Expectation) : Refusal :=
  match d.kind? with
  | some found => .mismatch (.wrongKind found expected)
  | none => .malformed

end Document

end BlockScript
