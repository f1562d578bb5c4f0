import BlockScript.Document.Figure
import BlockScript.Document.Quotation

/-!
# Tokens of a document's text

The text is a list of octets. `Token.scan` cuts it into punctuation, words, numbers and quoted
texts, and ends with `Token.bad` at the first octet that can start none of them or that breaks one
off. Scanning ends because every token leaves a shorter rest (`Token.length_next?_lt`).
-/

namespace BlockScript

/-- A piece of a document's text. -/
inductive Token where
  /-- An opening bracket. -/
  | openArray
  /-- A closing bracket. -/
  | closeArray
  /-- An opening brace. -/
  | openObject
  /-- A closing brace. -/
  | closeObject
  /-- A comma. -/
  | comma
  /-- A colon. -/
  | colon
  /-- A word or a number, with the document it stands for. -/
  | atom (value : Document)
  /-- A quoted text; `none` when it has no value. -/
  | text (value : Option String)
  /-- Where the text stops being well formed. -/
  | bad

namespace Token

/-! ### Words -/

/-- The words of the notation, by their octets, with the documents they stand for. -/
def words : List (List UInt8 × Document) :=
  [([0x6E, 0x75, 0x6C, 0x6C], .null),
   ([0x74, 0x72, 0x75, 0x65], .boolean true),
   ([0x66, 0x61, 0x6C, 0x73, 0x65], .boolean false)]

/-- The word that a text starts with, and what follows it. -/
def scanWord (octets : List UInt8) : Option (Document × List UInt8) :=
  (words.find? fun word ↦ word.1.isPrefixOf octets).map fun word ↦
    (word.2, octets.drop word.1.length)

/-- What follows a word is shorter than the text that starts with it. -/
theorem length_scanWord_lt {octets rest : List UInt8} {value : Document}
    (h : scanWord octets = some (value, rest)) : rest.length < octets.length := by
  unfold scanWord at h
  obtain ⟨word, hfind, hrest⟩ := Option.map_eq_some_iff.1 h
  obtain ⟨-, rfl⟩ : word.2 = value ∧ octets.drop word.1.length = rest := by simpa using hrest
  have hle : word.1.length ≤ octets.length :=
    (List.isPrefixOf_iff_prefix.1 (by simpa using List.find?_some hfind)).length_le
  have hpos : 0 < word.1.length := by
    have hmem := List.mem_of_find?_eq_some hfind
    simp only [words, List.mem_cons, List.not_mem_nil, or_false] at hmem
    rcases hmem with rfl | rfl | rfl <;> decide
  simp only [List.length_drop]
  omega

/-! ### All tokens -/

/-- The blanks between tokens: space, line feed, tab and carriage return. -/
def isSpace (b : UInt8) : Bool :=
  b == 0x20 || b == 0x0A || b == 0x09 || b == 0x0D

/-- The punctuation that an octet is. -/
def punctuation? (b : UInt8) : Option Token :=
  match Char.ofNat b.toNat with
  | '[' => some .openArray
  | ']' => some .closeArray
  | '\x7b' => some .openObject
  | '\x7d' => some .closeObject
  | ',' => some .comma
  | ':' => some .colon
  | _ => none

/-- The token that a text without leading blanks starts with, and what follows it. -/
def next? : List UInt8 → Option (Token × List UInt8)
  | [] => none
  | b :: rest =>
    match punctuation? b with
    | some token => some (token, rest)
    | none =>
      if b = 0x22 then
        (Quotation.pieces rest).map fun (pieces, tail) ↦ (.text (Quotation.text? pieces), tail)
      else if b = 0x2D ∨ Figure.isDigit b then
        (Figure.scan (b :: rest)).map fun (spelling, tail) ↦ (.atom spelling.value, tail)
      else (scanWord (b :: rest)).map fun (value, tail) ↦ (.atom value, tail)

/-- What follows a token is shorter than the text that starts with it. -/
theorem length_next?_lt {octets rest : List UInt8} {token : Token}
    (h : next? octets = some (token, rest)) : rest.length < octets.length := by
  revert h
  fun_cases next? octets with
  | case1 => simp
  | case2 _ tail =>
    simp only [Option.some.injEq, Prod.mk.injEq, List.length_cons]
    rintro ⟨-, rfl⟩
    omega
  | case3 tail =>
    intro h
    obtain ⟨⟨pieces, t⟩, hpieces, heq⟩ := Option.map_eq_some_iff.1 h
    obtain ⟨-, rfl⟩ := Prod.mk.inj heq
    have := Quotation.length_pieces_lt hpieces
    simp only [List.length_cons]
    omega
  | case4 b tail =>
    intro h
    obtain ⟨⟨spelling, t⟩, hnumber, heq⟩ := Option.map_eq_some_iff.1 h
    obtain ⟨-, rfl⟩ := Prod.mk.inj heq
    exact Figure.length_scan_lt hnumber
  | case5 b tail =>
    intro h
    obtain ⟨⟨value, t⟩, hword, heq⟩ := Option.map_eq_some_iff.1 h
    obtain ⟨-, rfl⟩ := Prod.mk.inj heq
    exact length_scanWord_lt hword

/-- The tokens of a text, up to the first place where it is not well formed. -/
def scan (octets : List UInt8) : List Token :=
  match octets with
  | [] => []
  | b :: rest =>
    if isSpace b then scan rest
    else
      match h : next? (b :: rest) with
      | none => [.bad]
      | some (token, tail) =>
        have _hlt : tail.length < (b :: rest).length := length_next?_lt h
        token :: scan tail
termination_by octets.length
decreasing_by
  · exact Nat.lt_succ_self rest.length
  · exact _hlt

end Token

end BlockScript
