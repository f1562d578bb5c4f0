import BlockScript.Document.Mismatch
import BlockScript.Document.Tree
import BlockScript.Table

/-!
# Decoders

A decoder takes the nesting that is still allowed and a document, and gives a value or a refusal. It
walks the document in order and stops at the first problem, whether the text's or its own.

Every container that a decoder enters takes one unit of room (`Decoder.enter`). An alternative of a
union is different: the value is taken in whole first (`Decoder.union`), after which the
alternatives are tried in turn, and their own refusals are forgotten.

An alternative is tried on the same document, by the same decoders that would read it off the text.
So a value that was taken in whole is assumed to be read exactly as the text is read that it was
taken from: taking it in loses nothing, of numbers, of keys, or of the order of members.
-/

namespace BlockScript

/-- Reads a value of type `α` off a document, in which as many more containers may be nested as the
first argument says. -/
abbrev Decoder (α : Type) :=
  Nat → Document → Except Refusal α

namespace Decoder

variable {α : Type}

/-! ### Single values -/

/-- A text. -/
def text : Decoder String
  | _, .text value => .ok value
  | _, d => .error (d.unexpected .text)

/-- A boolean. -/
def boolean : Decoder Bool
  | _, .boolean value => .ok value
  | _, d => .error (d.unexpected .boolean)

/-- A signed 32-bit word. -/
def word : Decoder Int32
  | _, .integer n =>
    if fitsInt32 n then .ok (Int32.ofInt n) else .error (.mismatch (.outOfRange n))
  | _, d => .error (d.unexpected .word)

/-- Nothing, written as `null`, or a value. -/
def optional (decode : Decoder α) : Decoder (Option α)
  | _, .null => .ok none
  | room, d => (decode room d).map some

/-- Any value, passed over: only its text must be well formed. -/
def skipped : Decoder Unit
  | _, d => if d.wellFormed then .ok () else .error .malformed

/-- Any value, taken in whole. -/
def anything : Decoder Unit
  | room, d => if d.readable room then .ok () else .error .malformed

/-! ### Containers -/

/-- What a container holds is decoded with one unit of room less; without room for it, the document
counts as malformed. -/
def enter (room : Nat) (inside : Nat → Except Refusal α) : Except Refusal α :=
  match room with
  | 0 => .error .malformed
  | room + 1 => inside room

/-- Every item of a list, in order. -/
def items (decode : Decoder α) (room : Nat) : List Document → Except Refusal (List α)
  | [] => .ok []
  | d :: rest => do
    let value ← decode room d
    let values ← items decode room rest
    return value :: values

/-- An array of values. -/
def list (decode : Decoder α) : Decoder (List α)
  | room, .array ds => enter room fun room ↦ items decode room ds
  | _, d => .error (d.unexpected .list)

/-- The members of an object, in order; `put` adds one to what was read so far. -/
def members {σ : Type} (put : σ → String → Document → Except Refusal σ) :
    σ → List (Option String × Document) → Except Refusal σ
  | sofar, [] => .ok sofar
  | _, (none, _) :: _ => .error .malformed
  | sofar, (some key, d) :: rest => do
    let sofar ← put sofar key d
    members put sofar rest

/-- An object as a table. Of two members with one key the later one counts, but both must
decode. -/
def table (decode : Decoder α) : Decoder (Table α)
  | room, .object ms => enter room fun room ↦
    members (fun t key d ↦ (decode room d).map (t.insert key)) Table.empty ms
  | _, d => .error (d.unexpected .table)

/-! ### Unions -/

/-- A value of a union: it is taken in whole, and `choose` finds the alternative it fits. What it
finds is assumed not to depend on whether the document is the text's or has been taken in. -/
def union (name : String) (choose : Nat → Document → Option α) : Decoder α
  | room, d =>
    if d.readable room then
      match choose room d with
      | some value => .ok value
      | none => .error (.mismatch (.noAlternative name))
    else .error .malformed

/-! ### Whole texts -/

/-- Decodes the document of a text, after which nothing but blanks may follow. -/
def decodeText (decode : Decoder α) (octets : List UInt8) : Except Refusal α := do
  let parsed := Document.parse octets
  let value ← decode Document.maxNesting parsed.root
  if parsed.trailing then .error .malformed else .ok value

end Decoder

end BlockScript
