/-!
# Quoted texts of a document

A quoted text is read in two passes over octets. `Quotation.pieces` finds its end and resolves the
short escapes; this pass decides whether the text is well formed. `Quotation.text?` puts the pieces
together; a text that is well formed has no value when it holds half a surrogate pair, or octets
that are not the encoding of any text.
-/

namespace BlockScript.Quotation

/-- A piece of a quoted text. -/
inductive Piece where
  /-- An octet as it stands, or one that a short escape denotes. -/
  | octet (value : UInt8)
  /-- A 16-bit unit given by four hexadecimal digits. -/
  | unit (value : Nat)

/-- The value of a hexadecimal digit. -/
def hexValue? (b : UInt8) : Option Nat :=
  let n := b.toNat
  if 0x30 ≤ n ∧ n ≤ 0x39 then some (n - 0x30)
  else if 0x41 ≤ n ∧ n ≤ 0x46 then some (n - 0x41 + 10)
  else if 0x61 ≤ n ∧ n ≤ 0x66 then some (n - 0x61 + 10)
  else none

/-- The value of four hexadecimal digits. -/
def hexUnit? (a b c d : UInt8) : Option Nat := do
  let a ← hexValue? a
  let b ← hexValue? b
  let c ← hexValue? c
  let d ← hexValue? d
  return ((a * 16 + b) * 16 + c) * 16 + d

/-- The octet that a short escape denotes. -/
def shortEscape? (b : UInt8) : Option UInt8 :=
  match Char.ofNat b.toNat with
  | '"' => some 0x22
  | '\\' => some 0x5C
  | '/' => some 0x2F
  | 'b' => some 0x08
  | 'f' => some 0x0C
  | 'n' => some 0x0A
  | 'r' => some 0x0D
  | 't' => some 0x09
  | _ => none

/-- The pieces of a quoted text after its opening quote, and what follows its closing quote.
There is no result when the quote is not closed, when an escape is not one of the format's, or when
a control character stands in the text. -/
def pieces : List UInt8 → Option (List Piece × List UInt8)
  | [] => none
  | b :: rest =>
    if b = 0x22 then some ([], rest)
    else if b = 0x5C then
      match rest with
      | [] => none
      | e :: rest =>
        if e = 0x75 then
          match rest with
          | h₁ :: h₂ :: h₃ :: h₄ :: rest =>
            match hexUnit? h₁ h₂ h₃ h₄, pieces rest with
            | some u, some (ps, tail) => some (.unit u :: ps, tail)
            | _, _ => none
          | _ => none
        else
          match shortEscape? e, pieces rest with
          | some o, some (ps, tail) => some (.octet o :: ps, tail)
          | _, _ => none
    else if b < 0x20 then none
    else
      match pieces rest with
      | some (ps, tail) => some (.octet b :: ps, tail)
      | none => none

/-- What follows a quoted text is shorter than what followed its opening quote. -/
theorem length_pieces_lt {octets tail : List UInt8} {ps : List Piece}
    (h : pieces octets = some (ps, tail)) : tail.length < octets.length := by
  fun_induction pieces octets generalizing ps tail <;> simp_all <;> omega

/-- The octets of a text's pieces. A unit of the first half of the surrogate range must be followed
by one of the second half, and the two make one character; either half alone has no value. -/
def octets? : List Piece → Option (List UInt8)
  | [] => some []
  | .octet b :: rest => (octets? rest).map (b :: ·)
  | .unit u :: rest =>
    if 0xD800 ≤ u ∧ u < 0xDC00 then
      match rest with
      | .unit v :: rest =>
        if 0xDC00 ≤ v ∧ v < 0xE000 then
          let c := Char.ofNat (0x10000 + (u - 0xD800) * 0x400 + (v - 0xDC00))
          (octets? rest).map (String.utf8EncodeChar c ++ ·)
        else none
      | _ => none
    else if 0xDC00 ≤ u ∧ u < 0xE000 then none
    else (octets? rest).map (String.utf8EncodeChar (Char.ofNat u) ++ ·)

/-- The text that the pieces make up, if its octets are the encoding of one. -/
def text? (ps : List Piece) : Option String :=
  (octets? ps).bind fun octets ↦ String.fromUTF8? octets.toByteArray

end BlockScript.Quotation
