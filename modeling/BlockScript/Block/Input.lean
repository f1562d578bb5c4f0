import BlockScript.Value

/-!
# Input slots

What sits in an input slot of a block: another block, a literal value, a reference to a broadcast, a
variable or a list, or nothing.

A slot is written as an array of a shadow type, a payload and, optionally, an obscured shadow. Only
the payload matters: a text names a block, `null` or no payload leaves the slot empty, and an array
is a **primitive**, whose first item is a code that says what the other items are
(`Input.ofPrimitive`). The payload is a union, so it is taken in whole before it is read, with the
assumption that goes with that (`BlockScript.Document.Decoder`).
-/

namespace BlockScript

/-- A named reference to a broadcast, a variable or a list. -/
structure Reference where
  /-- The name. -/
  name : String
  /-- The identifier. -/
  id : String
deriving DecidableEq, Repr

/-- What sits in an input slot. -/
inductive Input where
  /-- The block with this identifier. -/
  | block (id : String)
  /-- A literal value. -/
  | value (value : Value)
  /-- A broadcast. -/
  | broadcast (ref : Reference)
  /-- A variable. -/
  | variable (ref : Reference)
  /-- A list. -/
  | list (ref : Reference)
  /-- Nothing. -/
  | empty
deriving DecidableEq, Repr

namespace Input

/-- The identifier of the block in a slot. -/
def blockId? : Input → Option String
  | .block id => some id
  | _ => none

/-- What can be wrong with a primitive. -/
inductive PrimitiveError where
  /-- It has fewer than two items. -/
  | tooShort (count : Nat)
  /-- It is a reference without identifier. -/
  | missingId (code : Int32)
  /-- Its code is none of the known ones. -/
  | unknownCode (code : Int32)
deriving DecidableEq, Repr

/-- What is wrong with a primitive, in words. -/
def PrimitiveError.message : PrimitiveError → String
  | .tooShort count => "primitive input needs at least 2 elements, got " ++ toString count
  | .missingId code => "reference input " ++ toString code.toInt ++ " is missing its id"
  | .unknownCode code => "unknown primitive input code " ++ toString code.toInt

/-- What a primitive stands for: the codes 4 to 10 are literals, 11 is a broadcast, 12 a variable
and 13 a list. Items past those that the code asks for have no meaning. -/
def ofPrimitive : List Value → Except PrimitiveError Input
  | code :: payload :: rest =>
    let c := code.toInt32
    if 4 ≤ c.toInt ∧ c.toInt ≤ 10 then .ok (.value payload)
    else if 11 ≤ c.toInt ∧ c.toInt ≤ 13 then
      match rest with
      | [] => .error (.missingId c)
      | id :: _ =>
        let ref : Reference := ⟨payload.toText, id.toText⟩
        if c = 11 then .ok (.broadcast ref)
        else if c = 12 then .ok (.variable ref)
        else .ok (.list ref)
    else .error (.unknownCode c)
  | few => .error (.tooShort few.length)

/-- What a payload other than `null` can be. -/
inductive Payload where
  /-- The identifier of a block. -/
  | id (value : String)
  /-- The items of a primitive. -/
  | primitive (items : List Value)

/-- The values of a list of documents, if each is one. -/
def valuesOf? : List Document → Option (List Value)
  | [] => some []
  | d :: rest => do
    let value ← Value.ofDocument? d
    let values ← valuesOf? rest
    return value :: values

/-- Reads a payload. -/
def decodePayload : Decoder Payload :=
  Decoder.union "T" fun _ d ↦
    match d with
    | .text id => some (.id id)
    | .array items => (valuesOf? items).map .primitive
    | _ => none

/-- What a payload puts into a slot. -/
def ofPayload : Option Payload → Except Refusal Input
  | none => .ok .empty
  | some (.id id) => .ok (.block id)
  | some (.primitive items) =>
    match ofPrimitive items with
    | .ok input => .ok input
    | .error problem => .error (.mismatch (.refused problem.message))

/-- Reads the items of a slot: the shadow type, the payload, and any further ones, which are taken
in and ignored. -/
def decodeItems (room : Nat) : List Document → Except Refusal Input
  | [] => .error (.mismatch (.wrongLength 0 .inputSlot))
  | shadow :: rest => do
    let _ ← Decoder.word room shadow
    match rest with
    | [] => .ok .empty
    | payload :: further => do
      let payload ← Decoder.optional decodePayload room payload
      let input ← ofPayload payload
      let _ ← Decoder.items Decoder.anything room further
      return input

/-- Reads an input slot. -/
def decode : Decoder Input
  | room, .array ds => Decoder.enter room fun room ↦ decodeItems room ds
  | _, d => .error (d.unexpected .inputSlot)

end Input

end BlockScript
