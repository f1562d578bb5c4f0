import BlockScript.Block.Input
import BlockScript.Document.Record

/-!
# Blocks

A block has an opcode, links to the block after it and to its parent, input slots, fields, two flags
and, for blocks that have to do with procedures, a mutation with the procedure's code. Blocks refer
to one another by identifiers only.
-/

namespace BlockScript

/-- The identifier of a block, unique within its target. -/
abbrev BlockId :=
  String

/-- A field of a block: a value that was chosen from a menu, with the identifier of the chosen thing
where it has one. -/
structure Field where
  /-- The value. -/
  value : Value
  /-- The identifier of the thing it names. -/
  id : Option String
deriving DecidableEq, Repr

/-- The part of a block that has to do with procedures. -/
structure Mutation where
  /-- The code of the procedure. -/
  proccode : Option String := none
  /-- Whether the procedure runs in warp mode, as written. -/
  warp : Option Value := none
deriving DecidableEq, Repr, Inhabited

/-- A block. -/
structure Block where
  /-- What the block does. -/
  opcode : String
  /-- The block after it in its sequence. -/
  next : Option BlockId := none
  /-- The block that encloses it or stands before it. -/
  parent : Option BlockId := none
  /-- The input slots by name. -/
  inputs : Table Input := Table.empty
  /-- The fields by name. -/
  fields : Table Field := Table.empty
  /-- Whether it is the placeholder of a slot. -/
  shadow : Bool := false
  /-- Whether it starts a script. -/
  topLevel : Bool := false
  /-- The procedure it has to do with. -/
  mutation : Option Mutation := none
deriving DecidableEq

/-- Whether a procedure runs in warp mode. -/
def Mutation.isWarp (m : Mutation) : Bool :=
  m.warp.elim false Value.toBool

namespace Block

/-- The opcode of a call for its effect. -/
def callOpcode : String :=
  "procedures_call"

/-- The opcode of a call for its value. -/
def callReturnOpcode : String :=
  "procedures_call_return"

/-- A block with a given next block. -/
def withNext (b : Block) (next : BlockId) : Block :=
  { b with next := some next }

/-- A block with a given procedure code. -/
def withProccode (b : Block) (code : String) : Block :=
  { b with mutation := some { b.mutation.getD {} with proccode := some code } }

/-- Whether a block calls a procedure, for its effect or for its value. -/
def isProcedureCall (b : Block) : Bool :=
  b.opcode == callOpcode || b.opcode == callReturnOpcode

/-- The code of the procedure that a block has to do with. -/
def proccode (b : Block) : Option String :=
  b.mutation.bind Mutation.proccode

/-- Whether a block's mutation asks for warp mode. -/
def isWarp (b : Block) : Bool :=
  b.mutation.elim false Mutation.isWarp

/-- The block in a named slot. -/
def inputBlock? (b : Block) (slot : String) : Option BlockId :=
  (b.inputs.get? slot).bind Input.blockId?

/-- The slot of the blocks that a control block encloses. -/
def substackSlot : String :=
  "SUBSTACK"

/-- The first of the blocks that a control block encloses. -/
def substack? (b : Block) : Option BlockId :=
  b.inputBlock? substackSlot

end Block

/-! ### Reading blocks -/

namespace Field

/-- The field that a document stands for: a value with `null` or an identifier after it, or a value
alone. -/
def ofDocument? : Document → Option Field
  | .array [value, .null] => (Value.ofDocument? value).map fun v ↦ ⟨v, none⟩
  | .array [value, .text id] => (Value.ofDocument? value).map fun v ↦ ⟨v, some id⟩
  | .array [value] => (Value.ofDocument? value).map fun v ↦ ⟨v, none⟩
  | _ => none

/-- Reads a field. -/
def decode : Decoder Field :=
  Decoder.union "T" fun _ d ↦ ofDocument? d

end Field

/-- What has been read of a mutation. -/
structure Mutation.Draft where
  /-- The code of the procedure. -/
  proccode : Option (Option String) := none
  /-- Whether the procedure runs in warp mode. -/
  warp : Option (Option Value) := none

/-- The written form of a mutation. -/
def Mutation.schema : Schema Mutation.Draft Mutation where
  name := "Mutation"
  fields := [
    .ofField "proccode" (Decoder.optional Decoder.text) (·.proccode)
      (fun m v ↦ { m with proccode := some v }),
    .ofField "warp" (Decoder.optional Value.decode) (·.warp)
      (fun m v ↦ { m with warp := some v })]
  blank := {}
  finish draft := .ok ⟨draft.proccode.join, draft.warp.join⟩

/-- Reads a mutation. -/
def Mutation.decode : Decoder Mutation :=
  Mutation.schema.decode

/-- What has been read of a block. -/
structure Block.Draft where
  /-- What the block does. -/
  opcode : Option String := none
  /-- The block after it. -/
  next : Option (Option BlockId) := none
  /-- The block that encloses it. -/
  parent : Option (Option BlockId) := none
  /-- The input slots. -/
  inputs : Option (Table Input) := none
  /-- The fields. -/
  fields : Option (Table Field) := none
  /-- Whether it is a placeholder. -/
  shadow : Option Bool := none
  /-- Whether it starts a script. -/
  topLevel : Option Bool := none
  /-- The procedure it has to do with. -/
  mutation : Option (Option Mutation) := none

/-- The block of a draft: only the opcode must be there. -/
def Block.Draft.finish (draft : Block.Draft) : Except String Block :=
  match draft.opcode with
  | none => .error "opcode"
  | some opcode => .ok {
      opcode
      next := draft.next.join
      parent := draft.parent.join
      inputs := draft.inputs.getD Table.empty
      fields := draft.fields.getD Table.empty
      shadow := draft.shadow.getD false
      topLevel := draft.topLevel.getD false
      mutation := draft.mutation.join }

/-- The written form of a block. -/
def Block.schema : Schema Block.Draft Block where
  name := "Block"
  fields := [
    .ofField "opcode" Decoder.text (·.opcode) (fun b v ↦ { b with opcode := some v }),
    .ofField "next" (Decoder.optional Decoder.text) (·.next) (fun b v ↦ { b with next := some v }),
    .ofField "parent" (Decoder.optional Decoder.text) (·.parent)
      (fun b v ↦ { b with parent := some v }),
    .ofField "inputs" (Decoder.table Input.decode) (·.inputs)
      (fun b v ↦ { b with inputs := some v }),
    .ofField "fields" (Decoder.table Field.decode) (·.fields)
      (fun b v ↦ { b with fields := some v }),
    .ofField "shadow" Decoder.boolean (·.shadow) (fun b v ↦ { b with shadow := some v }),
    .ofField "topLevel" Decoder.boolean (·.topLevel) (fun b v ↦ { b with topLevel := some v }),
    .ofField "mutation" (Decoder.optional Mutation.decode) (·.mutation)
      (fun b v ↦ { b with mutation := some v })]
  blank := {}
  finish := Block.Draft.finish

/-- Reads a block. -/
def Block.decode : Decoder Block :=
  Block.schema.decode

end BlockScript
