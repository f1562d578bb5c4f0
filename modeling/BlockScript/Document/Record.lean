import BlockScript.Document.Decoder

/-!
# Records

A record has named fields in a fixed order. It is written either as an object, whose members may
stand in any order and among members of other names, which are passed over, or as an array of its
fields in their order, of which the last ones may be left out.

A `Schema` describes a record by its fields; what has been read so far is a draft of type `σ`, and
`Schema.finish` makes the record of a draft or names the field that is missing. `Schema.decode`
reads both written forms, so no record needs a reader of its own.
-/

namespace BlockScript

/-- One field of a record with drafts of type `σ`. -/
structure RecordField (σ : Type) where
  /-- The name of the field. -/
  name : String
  /-- Whether a draft has the field already. -/
  filled : σ → Bool
  /-- Reads the field and puts it into a draft. -/
  fill : Nat → Document → σ → Except Refusal σ

/-- The field that is decoded by `decode`, and kept in a draft by `get` and `set`. -/
def RecordField.ofField {σ α : Type} (name : String) (decode : Decoder α) (get : σ → Option α)
    (set : σ → α → σ) : RecordField σ where
  name := name
  filled draft := (get draft).isSome
  fill room d draft := (decode room d).map (set draft)

/-- A kind of record. -/
structure Schema (σ α : Type) where
  /-- The record's name in messages. -/
  name : String
  /-- The fields in order. -/
  fields : List (RecordField σ)
  /-- The draft before anything is read. -/
  blank : σ
  /-- The record of a draft, or the name of a field that it must have and lacks. -/
  finish : σ → Except String α

namespace Schema

variable {σ α : Type}

/-- One member of an object: a field that is not there yet, or a member to pass over. -/
def putMember (schema : Schema σ α) (room : Nat) (draft : σ) (key : String) (d : Document) :
    Except Refusal σ :=
  match schema.fields.find? fun f ↦ f.name == key with
  | some f =>
    if f.filled draft then .error (.mismatch (.duplicateField key))
    else f.fill room d draft
  | none => (Decoder.skipped room d).map fun _ ↦ draft

/-- The items of an array, into the fields in order. What is left over makes it malformed. -/
def putItems (room : Nat) : List (RecordField σ) → List Document → σ → Except Refusal σ
  | _, [], draft => .ok draft
  | [], _ :: _, _ => .error .malformed
  | f :: fields, d :: ds, draft => do
    let draft ← f.fill room d draft
    putItems room fields ds draft

/-- The record of a draft, or what is wrong with one that lacks a field. -/
def finishOr (schema : Schema σ α) (lacking : String → Mismatch) (draft : σ) : Except Refusal α :=
  match schema.finish draft with
  | .ok value => .ok value
  | .error field => .error (.mismatch (lacking field))

/-- The record of an object's draft. -/
def finishMembers (schema : Schema σ α) : σ → Except Refusal α :=
  schema.finishOr .missingField

/-- The record of an array's draft. The length that is reported is the position of the field that
is missing. -/
def finishItems (schema : Schema σ α) : σ → Except Refusal α :=
  schema.finishOr fun field ↦ .wrongLength (schema.fields.findIdx fun f ↦ f.name == field)
    (.recordFields schema.name schema.fields.length)

/-- Reads a record in either of its written forms. -/
def decode (schema : Schema σ α) : Decoder α
  | room, .object ms => Decoder.enter room fun room ↦ do
    let draft ← Decoder.members (schema.putMember room) schema.blank ms
    schema.finishMembers draft
  | room, .array ds => Decoder.enter room fun room ↦ do
    let draft ← putItems room schema.fields ds schema.blank
    schema.finishItems draft
  | _, d => .error (d.unexpected (.record schema.name))

end Schema

end BlockScript
