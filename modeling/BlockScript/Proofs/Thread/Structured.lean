import BlockScript.Proofs.Thread.StackMachine
import Mathlib.Logic.Relation
import Mathlib.Order.WellFounded

/-!
# Structured execution

What a script does, said by recursion on its structure instead of by steps on a stack. `Runs` is
that semantics: a sequence is run block by block; a block that encloses others runs them first, and
a call runs the body of its procedure first. A sequence has one of three outcomes: it is completed,
or it is aborted, which a call catches, or the whole script is ended, which nothing catches.

The stack machine agrees with it (`Runs.finishes`). The statement carries what is to happen
afterwards as a stack: whatever the machine does from there, it also does from the start of the
sequence, after the blocks of the sequence. What happens afterwards depends on the outcome
(`Outcome.onto`), and this is where unwinding comes in: an aborted sequence leaves the machine where
unwinding the levels around it leads.

Three things are asked of the script, all about the blocks that can be reached from its first one
(`Structured`). They belong to the script's target or to no target, since the machine looks blocks
up everywhere but moves on in one target only; none of them is an endless loop; and there is no
infinite chain of them, which excludes recursion, and makes the semantics come to a result
(`exists_runs`).
-/

namespace BlockScript

/-! ### What blocks are, by their opcodes -/

namespace Block

/-- What a stop block ends, as it is written. -/
def stopOption? (b : Block) : Option String :=
  (b.fields.get? stopField).map fun field ↦ field.value.toText

/-- Whether a stop block ends the other scripts of its target. -/
def StopsOthers (b : Block) : Prop :=
  b.stopOption? = some "other scripts in sprite" ∨ b.stopOption? = some "other scripts in stage"

/-- A block that neither stops scripts nor is an endless loop nor calls a procedure. -/
structure IsPlain (b : Block) : Prop where
  /-- It does not stop scripts. -/
  not_stop : b.opcode ≠ stopOpcode
  /-- It is not an endless loop. -/
  not_forever : b.opcode ≠ foreverOpcode
  /-- It does not call a procedure. -/
  not_call : b.opcode ≠ callOpcode

variable {b : Block}

theorem command_of_stop (hop : b.opcode = stopOpcode) : b.command = b.stopCommand := by
  rw [command, if_pos hop]

theorem command_stopAll (hop : b.opcode = stopOpcode) (hoption : b.stopOption? = some "all") :
    b.command = .stopAll := by
  rw [command_of_stop hop, stopCommand]
  rw [stopOption?] at hoption
  rw [hoption]
  rfl

theorem command_stopOthers (hop : b.opcode = stopOpcode) (hoption : b.StopsOthers) :
    b.command = .stopOthers := by
  rw [command_of_stop hop, stopCommand]
  rcases hoption with hoption | hoption <;> rw [stopOption?] at hoption <;> rw [hoption] <;> rfl

theorem command_stopThis (hop : b.opcode = stopOpcode) (hall : b.stopOption? ≠ some "all")
    (hothers : ¬b.StopsOthers) : b.command = .stopThis := by
  rw [command_of_stop hop, stopCommand]
  split
  · exact absurd ‹_› hall
  · exact absurd (.inl ‹_›) hothers
  · exact absurd (.inr ‹_›) hothers
  · rfl

theorem command_call (hop : b.opcode = callOpcode) : b.command = .call := by
  rw [command, if_neg (by rw [hop]; decide), if_neg (by rw [hop]; decide), if_pos hop]

theorem command_plain (h : b.IsPlain) : b.command = .plain := by
  rw [command, if_neg h.not_stop, if_neg h.not_forever, if_neg h.not_call]

end Block

/-! ### The semantics -/

/-- How a sequence of blocks comes out. -/
inductive Outcome where
  /-- Its last block is finished. -/
  | completed
  /-- It was aborted, and so is what encloses it, up to a call. -/
  | aborted
  /-- The whole script is over. -/
  | ended
deriving DecidableEq, Repr

/-- **Running a sequence** that starts with a given block, if with any: the blocks that are come to,
and the outcome. -/
inductive Runs (w : World) (target : TargetId) : Option BlockId → List BlockId → Outcome → Prop
  /-- Nothing is left. -/
  | nil : Runs w target none [] .completed
  /-- A block that does not exist aborts. -/
  | missing {id : BlockId} (hid : w.resolve? target id = none) :
      Runs w target (some id) [id] .aborted
  /-- A block that stops all ends the script. -/
  | stopAll {id : BlockId} {b : Block} (hb : w.resolve? target id = some b)
      (hop : b.opcode = Block.stopOpcode) (hoption : b.stopOption? = some "all") :
      Runs w target (some id) [id] .ended
  /-- A block that stops other scripts goes on with the next block. -/
  | stopOthers {id : BlockId} {b : Block} {blocks : List BlockId} {outcome : Outcome}
      (hb : w.resolve? target id = some b) (hop : b.opcode = Block.stopOpcode)
      (hoption : b.StopsOthers) (hnext : Runs w target b.next blocks outcome) :
      Runs w target (some id) (id :: blocks) outcome
  /-- Any other stop block aborts. -/
  | stopThis {id : BlockId} {b : Block} (hb : w.resolve? target id = some b)
      (hop : b.opcode = Block.stopOpcode) (hall : b.stopOption? ≠ some "all")
      (hothers : ¬b.StopsOthers) : Runs w target (some id) [id] .aborted
  /-- A call of a procedure without a body goes on with the next block. -/
  | callNothing {id : BlockId} {b : Block} {blocks : List BlockId} {outcome : Outcome}
      (hb : w.resolve? target id = some b) (hop : b.opcode = Block.callOpcode)
      (hbody : b.proccode.bind (w.procedureBody? target) = none)
      (hnext : Runs w target b.next blocks outcome) :
      Runs w target (some id) (id :: blocks) outcome
  /-- A call runs the body of its procedure and goes on with the next block, also when the body was
  aborted. -/
  | call {id body : BlockId} {b : Block} {inner blocks : List BlockId} {outcome outcome' : Outcome}
      (hb : w.resolve? target id = some b) (hop : b.opcode = Block.callOpcode)
      (hbody : b.proccode.bind (w.procedureBody? target) = some body)
      (hinner : Runs w target (some body) inner outcome) (hcaught : outcome ≠ .ended)
      (hnext : Runs w target b.next blocks outcome') :
      Runs w target (some id) (id :: (inner ++ blocks)) outcome'
  /-- A call whose body ends the script. -/
  | callEnded {id body : BlockId} {b : Block} {inner : List BlockId}
      (hb : w.resolve? target id = some b) (hop : b.opcode = Block.callOpcode)
      (hbody : b.proccode.bind (w.procedureBody? target) = some body)
      (hinner : Runs w target (some body) inner .ended) :
      Runs w target (some id) (id :: inner) .ended
  /-- A plain block that encloses none goes on with the next block. -/
  | plain {id : BlockId} {b : Block} {blocks : List BlockId} {outcome : Outcome}
      (hb : w.resolve? target id = some b) (hop : b.IsPlain) (hbody : b.substack? = none)
      (hnext : Runs w target b.next blocks outcome) :
      Runs w target (some id) (id :: blocks) outcome
  /-- A plain block runs the blocks it encloses, once, and goes on with the next block. -/
  | enclose {id body : BlockId} {b : Block} {inner blocks : List BlockId} {outcome : Outcome}
      (hb : w.resolve? target id = some b) (hop : b.IsPlain) (hbody : b.substack? = some body)
      (hinner : Runs w target (some body) inner .completed)
      (hnext : Runs w target b.next blocks outcome) :
      Runs w target (some id) (id :: (inner ++ blocks)) outcome
  /-- What the enclosed blocks abort or end is aborted or ended for the block around them. -/
  | encloseBroken {id body : BlockId} {b : Block} {inner : List BlockId} {outcome : Outcome}
      (hb : w.resolve? target id = some b) (hop : b.IsPlain) (hbody : b.substack? = some body)
      (hinner : Runs w target (some body) inner outcome) (hbroken : outcome ≠ .completed) :
      Runs w target (some id) (id :: inner) outcome

/-! ### What can be reached -/

/-- One block leads to another: it stands right before it, or encloses a sequence, or calls a
procedure, that starts with it. -/
inductive World.Leads (w : World) (target : TargetId) (id : BlockId) : BlockId → Prop
  /-- The next block. -/
  | next {b : Block} {id' : BlockId} (hb : w.resolve? target id = some b)
      (hnext : b.next = some id') : World.Leads w target id id'
  /-- The first of the blocks that it encloses. -/
  | substack {b : Block} {id' : BlockId} (hb : w.resolve? target id = some b)
      (hbody : b.substack? = some id') : World.Leads w target id id'
  /-- The first block of the procedure that it calls. -/
  | body {b : Block} {id' : BlockId} (hb : w.resolve? target id = some b)
      (hop : b.opcode = Block.callOpcode)
      (hbody : b.proccode.bind (w.procedureBody? target) = some id') : World.Leads w target id id'

/-- One block can be reached from another. -/
def World.Reaches (w : World) (target : TargetId) : BlockId → BlockId → Prop :=
  Relation.ReflTransGen (w.Leads target)

/-- The block belongs to the target itself. -/
def World.Holds (w : World) (target : TargetId) (id : BlockId) : Prop :=
  ∃ g b, w.graph? target = some g ∧ g.get? id = some b

namespace World

variable {w : World} {target : TargetId} {id : BlockId} {b : Block}

/-- A block that its target holds is found there. -/
theorem get?_of_holds (h : w.Holds target id) (hb : w.resolve? target id = some b) :
    ∃ g, w.graph? target = some g ∧ g.get? id = some b := by
  obtain ⟨g, b', hg, hget⟩ := h
  rw [resolve?, hg, Option.bind_some, hget, Option.some_or] at hb
  exact ⟨g, hg, hget.trans hb⟩

theorem get?_of_not_holds (h : ¬w.Holds target id) :
    ((w.graph? target).bind fun g ↦ g.get? id) = none := by
  rcases hg : w.graph? target with - | g
  · rfl
  · rcases hget : g.get? id with - | b
    · exact hget
    · exact absurd ⟨g, b, hg, hget⟩ h

theorem next?_of_holds (h : w.Holds target id) (hb : w.resolve? target id = some b) :
    w.next? target id = b.next := by
  obtain ⟨g, hg, hget⟩ := get?_of_holds h hb
  rw [next?, hg, Option.bind_some, Graph.next?, hget, Option.bind_some]

theorem isCall_of_holds (h : w.Holds target id) (hb : w.resolve? target id = some b) :
    w.isCall target (some id) = (b.opcode == Block.callOpcode) := by
  obtain ⟨g, hg, hget⟩ := get?_of_holds h hb
  rw [isCall, Option.bind_some, hg, Option.bind_some, hget]
  rfl

theorem isCall_of_not_holds (h : ¬w.Holds target id) : w.isCall target (some id) = false := by
  rw [isCall, Option.bind_some, get?_of_not_holds h]
  rfl

/-- A block that is in no target is not in this one. -/
theorem not_holds_of_resolve? (h : w.resolve? target id = none) : ¬w.Holds target id := by
  rintro ⟨g, b, hg, hget⟩
  rw [resolve?, hg, Option.bind_some, hget] at h
  cases h

end World

/-- **A structured script**, by its first block. -/
structure Structured (w : World) (target : TargetId) (id : BlockId) : Prop where
  /-- What can be reached belongs to the target, or to no target at all. -/
  own : ∀ id', w.Reaches target id id' →
    w.Holds target id' ∨ ∀ other ∈ w.targets, other.blocks.get? id' = none
  /-- No endless loop can be reached. -/
  not_forever : ∀ id' b, w.Reaches target id id' → w.resolve? target id' = some b →
    b.opcode ≠ Block.foreverOpcode
  /-- There is no infinite chain. -/
  no_chain : ¬∃ chain : Nat → BlockId, chain 0 = id ∧
    ∀ n, w.Leads target (chain n) (chain (n + 1))

namespace Structured

variable {w : World} {target : TargetId} {id : BlockId} {b : Block}

/-- Where a structured script leads is structured. -/
theorem of_leads {id' : BlockId} (h : Structured w target id) (hleads : w.Leads target id id') :
    Structured w target id' where
  own := fun id'' hreaches ↦ h.own id'' (.head hleads hreaches)
  not_forever := fun id'' b hreaches ↦ h.not_forever id'' b (.head hleads hreaches)
  no_chain := by
    rintro ⟨chain, hzero, hchain⟩
    refine h.no_chain ⟨fun n ↦ n.casesOn id chain, rfl, fun n ↦ ?_⟩
    cases n with
    | zero =>
      show w.Leads target id (chain 0)
      rw [hzero]
      exact hleads
    | succ n => exact hchain n

/-- A block of a structured script that exists belongs to the script's own target. -/
theorem holds (h : Structured w target id) (hb : w.resolve? target id = some b) :
    w.Holds target id := by
  rcases h.own id .refl with hholds | hnone
  · exact hholds
  · -- In no target at all: then the block could not have been found.
    have hfind : w.targets.findSome? (fun other ↦ other.blocks.get? id) = none :=
      List.findSome?_eq_none_iff.2 hnone
    by_contra hnot
    rw [World.resolve?, World.get?_of_not_holds hnot, hfind] at hb
    cases hb

theorem next?_eq (h : Structured w target id) (hb : w.resolve? target id = some b) :
    w.next? target id = b.next :=
  World.next?_of_holds (h.holds hb) hb

theorem isCall_eq (h : Structured w target id) (hb : w.resolve? target id = some b) :
    w.isCall target (some id) = (b.opcode == Block.callOpcode) :=
  World.isCall_of_holds (h.holds hb) hb

theorem isPlain_of_ne (h : Structured w target id) (hb : w.resolve? target id = some b)
    (hstop : b.opcode ≠ Block.stopOpcode) (hcall : b.opcode ≠ Block.callOpcode) : b.IsPlain :=
  ⟨hstop, h.not_forever id b .refl hb, hcall⟩

/-- The next block of a structured script is the start of one. -/
theorem of_next (h : Structured w target id) (hb : w.resolve? target id = some b) :
    ∀ id' ∈ b.next, Structured w target id' :=
  fun _ hnext ↦ h.of_leads (.next hb hnext)

end Structured

/-! ### Steps at the blocks of a structured script -/

/-- A step at a block that exists carries its command out. -/
theorem Stack.step_of_resolve? {w : World} {target : TargetId} {id : BlockId} {b : Block}
    (rest : Stack) (hb : w.resolve? target id = some b) :
    Stack.step w target (some id :: rest) = Stack.perform w target id b rest := by
  rw [Stack.step, hb]

/-- A block that is in no target unwinds the levels around it. -/
theorem Stack.step_of_missing {w : World} {target : TargetId} {id : BlockId} (rest : Stack)
    (hid : w.resolve? target id = none) :
    Stack.step w target (some id :: rest) = Stack.unwind w target rest := by
  rw [Stack.step, hid]
  show Stack.unwind w target (some id :: rest) = _
  rw [Stack.unwind, World.isCall_of_not_holds (World.not_holds_of_resolve? hid)]
  rfl

namespace Structured

variable {w : World} {target : TargetId} {id : BlockId} {b : Block}

theorem step_stopOthers (h : Structured w target id) (rest : Stack)
    (hb : w.resolve? target id = some b) (hcommand : b.command = .stopOthers) :
    Stack.step w target (some id :: rest) = b.next :: rest := by
  rw [Stack.step_of_resolve? rest hb, Stack.perform, hcommand, ← h.next?_eq hb]

theorem step_stopThis (h : Structured w target id) (rest : Stack)
    (hb : w.resolve? target id = some b) (hop : b.opcode = Block.stopOpcode)
    (hcommand : b.command = .stopThis) :
    Stack.step w target (some id :: rest) = Stack.unwind w target rest := by
  rw [Stack.step_of_resolve? rest hb, Stack.perform, hcommand]
  show Stack.unwind w target (some id :: rest) = _
  rw [Stack.unwind, h.isCall_eq hb, hop]
  rfl

/-- A call enters the body of its procedure, and a plain block the blocks it encloses. -/
theorem step_enter {body : Option BlockId} (h : Structured w target id) (rest : Stack)
    (hb : w.resolve? target id = some b)
    (hbody : b.command = .call ∧ b.proccode.bind (w.procedureBody? target) = body ∨
      b.command = .plain ∧ b.substack? = body) :
    Stack.step w target (some id :: rest) =
      body.elim (b.next :: rest) fun body ↦ some body :: some id :: rest := by
  have henter : Stack.step w target (some id :: rest) = Stack.enter w target id rest body := by
    rcases hbody with ⟨hcommand, hbody⟩ | ⟨hcommand, hbody⟩ <;>
      rw [Stack.step_of_resolve? rest hb, Stack.perform, hcommand, ← hbody]
  rw [henter]
  cases body with
  | none => rw [Stack.enter, h.next?_eq hb, Option.elim_none]
  | some body => rfl

/-- Coming back to a block from what it entered finishes it. -/
theorem step_return (h : Structured w target id) (rest : Stack)
    (hb : w.resolve? target id = some b) (hcommand : b.command ≠ .forever) :
    Stack.step w target (none :: some id :: rest) = b.next :: rest := by
  have hloop : w.isLoop target (some id) = false := by
    rw [World.isLoop_some hb]
    exact beq_eq_false_iff_ne.2 hcommand
  rw [Stack.step, hloop, ← h.next?_eq hb]
  rfl

/-- Unwinding stops at a call, which is finished by that. -/
theorem unwind_call (h : Structured w target id) (rest : Stack)
    (hb : w.resolve? target id = some b) (hop : b.opcode = Block.callOpcode) :
    Stack.unwind w target (some id :: rest) = b.next :: rest := by
  rw [Stack.unwind, h.isCall_eq hb, hop, ← h.next?_eq hb]
  rfl

/-- Unwinding goes past any other block. -/
theorem unwind_of_ne (h : Structured w target id) (rest : Stack)
    (hb : w.resolve? target id = some b) (hop : b.opcode ≠ Block.callOpcode) :
    Stack.unwind w target (some id :: rest) = Stack.unwind w target rest := by
  rw [Stack.unwind, h.isCall_eq hb, beq_eq_false_iff_ne.2 hop]
  rfl

end Structured

/-! ### The machine agrees -/

/-- The machine comes to an end, by way of these blocks. -/
def Stack.Finishes (w : World) (target : TargetId) (stack : Stack) (blocks : List BlockId) : Prop :=
  ∃ n, Stack.after w target n stack = [] ∧ Stack.trace w target n stack = blocks

/-- One step more. -/
theorem Stack.Finishes.of_step {w : World} {target : TargetId} {stack stack' : Stack}
    {blocks : List BlockId} (h : Stack.Finishes w target stack' blocks)
    (hstep : Stack.step w target stack = stack') :
    Stack.Finishes w target stack (stack.head?.join.toList ++ blocks) := by
  obtain ⟨n, hend, rfl⟩ := h
  subst hstep
  exact ⟨n + 1, hend, rfl⟩

/-- Where a sequence with this outcome leaves the machine, given the levels around it. -/
def Outcome.onto (w : World) (target : TargetId) (rest : Stack) : Outcome → Stack
  | .completed => none :: rest
  | .aborted => Stack.unwind w target rest
  | .ended => []

namespace Runs

variable {w : World} {target : TargetId}

/-- **The machine agrees with the semantics.** By induction on the run: whatever the machine does
from where the sequence leaves it, it also does from the start of the sequence. -/
theorem finishes {start : Option BlockId} {blocks : List BlockId} {outcome : Outcome}
    (h : Runs w target start blocks outcome) :
    (∀ id ∈ start, Structured w target id) → ∀ (rest : Stack) (blocks' : List BlockId),
      Stack.Finishes w target (outcome.onto w target rest) blocks' →
        Stack.Finishes w target (start :: rest) (blocks ++ blocks') := by
  induction h with
  | nil => exact fun _ rest blocks' hrest ↦ hrest
  | @missing id hid =>
    intro hstart rest blocks' hrest
    exact hrest.of_step (Stack.step_of_missing rest hid)
  | @stopAll id b hb hop hoption =>
    intro hstart rest blocks' hrest
    refine hrest.of_step ?_
    rw [Stack.step_of_resolve? rest hb, Stack.perform, Block.command_stopAll hop hoption]
    rfl
  | @stopOthers id b blocks outcome hb hop hoption hnext ih =>
    intro hstart rest blocks' hrest
    have hid := hstart id rfl
    exact (ih (hid.of_next hb) rest blocks' hrest).of_step
      (hid.step_stopOthers rest hb (Block.command_stopOthers hop hoption))
  | @stopThis id b hb hop hall hothers =>
    intro hstart rest blocks' hrest
    exact hrest.of_step
      ((hstart id rfl).step_stopThis rest hb hop (Block.command_stopThis hop hall hothers))
  | @callNothing id b blocks outcome hb hop hbody hnext ih =>
    intro hstart rest blocks' hrest
    have hid := hstart id rfl
    exact (ih (hid.of_next hb) rest blocks' hrest).of_step
      (hid.step_enter rest hb (.inl ⟨Block.command_call hop, hbody⟩))
  | @call id body b inner blocks outcome outcome' hb hop hbody hinner hcaught hnext ih ih' =>
    intro hstart rest blocks' hrest
    have hid := hstart id rfl
    have hbody' : Structured w target body := hid.of_leads (.body hb hop hbody)
    have hfurther := ih' (hid.of_next hb) rest blocks' hrest
    -- An abort is caught: unwinding stops at the call, which is then where a return leaves it.
    have honto : Stack.Finishes w target (outcome.onto w target (some id :: rest))
        (blocks ++ blocks') := by
      cases outcome with
      | completed =>
        refine hfurther.of_step (hid.step_return rest hb ?_)
        rw [Block.command_call hop]
        exact Command.noConfusion
      | aborted =>
        show Stack.Finishes w target (Stack.unwind w target (some id :: rest)) _
        rw [hid.unwind_call rest hb hop]
        exact hfurther
      | ended => exact absurd rfl hcaught
    have hentered := ih (fun _ hmem ↦ Option.some.inj hmem ▸ hbody') (some id :: rest) _ honto
    rw [List.cons_append, List.append_assoc]
    exact hentered.of_step (hid.step_enter rest hb (.inl ⟨Block.command_call hop, hbody⟩))
  | @callEnded id body b inner hb hop hbody hinner ih =>
    intro hstart rest blocks' hrest
    have hid := hstart id rfl
    have hbody' : Structured w target body := hid.of_leads (.body hb hop hbody)
    have hentered := ih (fun _ hmem ↦ Option.some.inj hmem ▸ hbody') (some id :: rest) _ hrest
    exact hentered.of_step (hid.step_enter rest hb (.inl ⟨Block.command_call hop, hbody⟩))
  | @plain id b blocks outcome hb hop hbody hnext ih =>
    intro hstart rest blocks' hrest
    have hid := hstart id rfl
    exact (ih (hid.of_next hb) rest blocks' hrest).of_step
      (hid.step_enter rest hb (.inr ⟨Block.command_plain hop, hbody⟩))
  | @enclose id body b inner blocks outcome hb hop hbody hinner hnext ih ih' =>
    intro hstart rest blocks' hrest
    have hid := hstart id rfl
    have hbody' : Structured w target body := hid.of_leads (.substack hb hbody)
    have hreturn : Stack.step w target (none :: some id :: rest) = b.next :: rest := by
      refine hid.step_return rest hb ?_
      rw [Block.command_plain hop]
      exact Command.noConfusion
    have hfurther := (ih' (hid.of_next hb) rest blocks' hrest).of_step hreturn
    have hentered := ih (fun _ hmem ↦ Option.some.inj hmem ▸ hbody') (some id :: rest) _ hfurther
    rw [List.cons_append, List.append_assoc]
    exact hentered.of_step (hid.step_enter rest hb (.inr ⟨Block.command_plain hop, hbody⟩))
  | @encloseBroken id body b inner outcome hb hop hbody hinner hbroken ih =>
    intro hstart rest blocks' hrest
    have hid := hstart id rfl
    have hbody' : Structured w target body := hid.of_leads (.substack hb hbody)
    -- An abort goes past a plain block, and an end leaves nothing.
    have honto : outcome.onto w target (some id :: rest) = outcome.onto w target rest := by
      cases outcome with
      | completed => exact absurd rfl hbroken
      | aborted => exact hid.unwind_of_ne rest hb hop.not_call
      | ended => rfl
    have hentered := ih (fun _ hmem ↦ Option.some.inj hmem ▸ hbody') (some id :: rest) blocks'
      (honto ▸ hrest)
    exact hentered.of_step (hid.step_enter rest hb (.inr ⟨Block.command_plain hop, hbody⟩))

end Runs

/-! ### The semantics comes to a result -/

namespace Structured

variable {w : World} {target : TargetId} {id : BlockId}

/-- Without infinite chains one can argue from where a block leads to the block. -/
theorem acc (h : Structured w target id) : Acc (fun id' id ↦ w.Leads target id id') id := by
  by_contra hnot
  exact h.no_chain (not_acc_iff_exists_descending_chain.1 hnot)

/-- **Every structured script runs** to one of the three outcomes. -/
theorem exists_runs (h : Structured w target id) :
    ∃ blocks outcome, Runs w target (some id) blocks outcome := by
  induction h.acc with
  | intro id hacc ih =>
    have hleads : ∀ id', w.Leads target id id' →
        ∃ blocks outcome, Runs w target (some id') blocks outcome :=
      fun id' hleads ↦ ih id' hleads (h.of_leads hleads)
    cases hb : w.resolve? target id with
    | none => exact ⟨_, _, .missing hb⟩
    | some b =>
      -- The blocks after this one come first, since most cases go on with them.
      obtain ⟨blocks, outcome, hnext⟩ :
          ∃ blocks outcome, Runs w target b.next blocks outcome := by
        cases hnext : b.next with
        | none => exact ⟨_, _, .nil⟩
        | some id' => exact hleads id' (.next hb hnext)
      by_cases hstop : b.opcode = Block.stopOpcode
      · by_cases hall : b.stopOption? = some "all"
        · exact ⟨_, _, .stopAll hb hstop hall⟩
        · by_cases hothers : b.StopsOthers
          · exact ⟨_, _, .stopOthers hb hstop hothers hnext⟩
          · exact ⟨_, _, .stopThis hb hstop hall hothers⟩
      · by_cases hcall : b.opcode = Block.callOpcode
        · cases hbody : b.proccode.bind (w.procedureBody? target) with
          | none => exact ⟨_, _, .callNothing hb hcall hbody hnext⟩
          | some body =>
            obtain ⟨inner, outcome', hinner⟩ := hleads body (.body hb hcall hbody)
            by_cases hended : outcome' = .ended
            · exact ⟨_, _, .callEnded hb hcall hbody (hended ▸ hinner)⟩
            · exact ⟨_, _, .call hb hcall hbody hinner hended hnext⟩
        · have hplain := h.isPlain_of_ne hb hstop hcall
          cases hbody : b.substack? with
          | none => exact ⟨_, _, .plain hb hplain hbody hnext⟩
          | some body =>
            obtain ⟨inner, outcome', hinner⟩ := hleads body (.substack hb hbody)
            by_cases hcompleted : outcome' = .completed
            · exact ⟨_, _, .enclose hb hplain hbody (hcompleted ▸ hinner) hnext⟩
            · exact ⟨_, _, .encloseBroken hb hplain hbody hinner hcompleted⟩

/-- The machine that starts with nothing but the first block of a script comes to an end, by way of
the blocks of the semantics. -/
theorem finishes {blocks : List BlockId} {outcome : Outcome} (h : Structured w target id)
    (hrun : Runs w target (some id) blocks outcome) : Stack.Finishes w target [some id] blocks := by
  have hend : Stack.Finishes w target (outcome.onto w target []) [] := by
    cases outcome with
    | completed => exact ⟨1, rfl, rfl⟩
    | aborted => exact ⟨0, rfl, rfl⟩
    | ended => exact ⟨0, rfl, rfl⟩
  have hall := hrun.finishes (fun _ hmem ↦ Option.some.inj hmem ▸ h) [] [] hend
  rwa [List.append_nil] at hall

end Structured

end BlockScript
