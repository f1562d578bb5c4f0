import BlockScript.Block.Basic

/-!
# Block graphs

The blocks of one target, by identifier. A graph is read from an object in which blocks stand beside
loose variable and list reporters, written as bare arrays; the latter are left out. Whatever is
neither makes the whole graph unreadable.
-/

namespace BlockScript

/-- The blocks of one target, by identifier. -/
abbrev Graph :=
  Table Block

namespace Graph

/-- The block after a given one in its sequence. -/
def next? (g : Graph) (id : BlockId) : Option BlockId :=
  (g.get? id).bind Block.next

/-- The identifiers of the blocks that start a script. -/
def topLevel (g : Graph) : List BlockId :=
  (g.toList.filter fun entry ↦ entry.2.topLevel).map Prod.fst

/-- The opcode of a procedure's definition. -/
def definitionOpcode : String :=
  "procedures_definition"

/-- The slot of a definition that holds the procedure's prototype. -/
def prototypeSlot : String :=
  "custom_block"

/-- The code of the procedure that a definition defines: its prototype has it. -/
def definedCode? (g : Graph) (definition : Block) : Option String :=
  (definition.inputBlock? prototypeSlot).bind fun id ↦ (g.get? id).bind Block.proccode

/-- The definition of a procedure. -/
def definition? (g : Graph) (code : String) : Option Block :=
  (g.toList.find? fun entry ↦
    entry.2.opcode == definitionOpcode && g.definedCode? entry.2 == some code).map Prod.snd

/-- The first block of the body of a procedure. -/
def procedureBody? (g : Graph) (code : String) : Option BlockId :=
  (g.definition? code).bind Block.next

/-- An entry of a written graph: a block, or the bare array of a loose reporter, which is not
kept. -/
def decodeEntry : Decoder (Option Block) :=
  Decoder.union "T" fun room d ↦
    match Block.decode room d, d with
    | .ok block, _ => some (some block)
    | .error _, .array _ => some none
    | .error _, _ => none

/-- Adds an entry; one that is not kept also takes away an earlier one of its key. -/
def putEntry (g : Graph) (key : String) : Option Block → Graph
  | some block => g.insert key block
  | none => g.erase key

/-- Reads a graph. -/
def decode : Decoder Graph
  | room, .object ms => Decoder.enter room fun room ↦
    Decoder.members (fun g key d ↦ (decodeEntry room d).map (putEntry g key)) Table.empty ms
  | _, d => .error (d.unexpected .table)

end Graph

end BlockScript
