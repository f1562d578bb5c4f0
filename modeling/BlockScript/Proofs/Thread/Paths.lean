import BlockScript.Proofs.Thread.Structured

/-!
# The stack is a path through the program

What the stack machine has on its stack is not any list of blocks. Each level is somewhere along a
**chain** of next blocks (`World.OnChain`), and where that chain starts is decided by what is below
the level: the first block of the script if there is nothing below, and otherwise the block that the
level below leads into (`World.inside?`), which is the body of a procedure for a call and the first
of the enclosed blocks for anything else. `Stack.IsPath` says this of a whole stack, innermost level
first.

One step keeps a path a path (`Stack.IsPath.step`), whichever of its ways it goes: moving on stays
on the chain, entering a sequence starts a new one, and leaving or unwinding levels uncovers a path
that was there before. A level that has another one above it has led into it, and so its block
exists; that is why the machine never returns to a level without a block.
-/

namespace BlockScript

/-! ### Commands and opcodes -/

namespace Block

variable {b : Block}

theorem stopCommand_cases (b : Block) :
    b.stopCommand = .stopAll ∨ b.stopCommand = .stopOthers ∨ b.stopCommand = .stopThis := by
  rw [stopCommand]
  split
  · exact .inl rfl
  · exact .inr (.inl rfl)
  · exact .inr (.inl rfl)
  · exact .inr (.inr rfl)

theorem command_eq_call_iff : b.command = .call ↔ b.opcode = callOpcode := by
  refine ⟨fun h ↦ ?_, command_call⟩
  by_contra hop
  rw [command, if_neg hop] at h
  split at h
  · rcases b.stopCommand_cases with hstop | hstop | hstop <;> rw [hstop] at h <;> cases h
  · split at h <;> cases h

theorem opcode_eq_forever (h : b.command = .forever) : b.opcode = foreverOpcode := by
  by_contra hop
  rw [command, if_neg hop] at h
  split at h
  · rcases b.stopCommand_cases with hstop | hstop | hstop <;> rw [hstop] at h <;> cases h
  · split at h <;> cases h

end Block

/-! ### Chains and where they start -/

namespace World

/-- **A chain of next blocks**: the place of a level whose sequence started with a given block. None
is on the chain once the chain has ended. -/
inductive OnChain (w : World) (target : TargetId) (first : BlockId) : Option BlockId → Prop
  /-- The block that it starts with. -/
  | first : OnChain w target first (some first)
  /-- What comes after a block on the chain, in the graph of one target. -/
  | next {id : BlockId} (h : OnChain w target first (some id)) :
      OnChain w target first (w.next? target id)

/-- The block that a level leads into: the first one of the procedure's body for a call, and the
first of the enclosed blocks for any other block. -/
def inside? (w : World) (target : TargetId) (b : Block) : Option BlockId :=
  if b.opcode = Block.callOpcode then b.proccode.bind (w.procedureBody? target) else b.substack?

variable {w : World} {target : TargetId} {b : Block}

theorem inside?_of_call (h : b.command = .call) :
    w.inside? target b = b.proccode.bind (w.procedureBody? target) := by
  rw [inside?, if_pos (Block.command_eq_call_iff.1 h)]

theorem inside?_of_ne_call (h : b.command ≠ .call) : w.inside? target b = b.substack? := by
  rw [inside?, if_neg (mt Block.command_eq_call_iff.2 h)]

/-- A loop that the machine returns to exists, and what it leads into is what it encloses. -/
theorem exists_of_isLoop {id : BlockId} (h : w.isLoop target (some id) = true) :
    ∃ b, w.resolve? target id = some b ∧ b.command = .forever ∧
      w.inside? target b = w.substack? target id := by
  rw [isLoop, Option.bind_some] at h
  obtain ⟨b, hb, hcommand⟩ := (Option.any_eq_true _ _).1 h
  have hforever : b.command = .forever := beq_iff_eq.1 hcommand
  refine ⟨b, hb, hforever, ?_⟩
  rw [inside?_of_ne_call (by rw [hforever]; exact Command.noConfusion), substack?, hb,
    Option.bind_some]

end World

/-! ### Paths -/

namespace Stack

/-- Where the sequence above a stack starts. -/
inductive Opens (w : World) (target : TargetId) (top : BlockId) : Stack → BlockId → Prop
  /-- The outermost sequence is the script. -/
  | script : Opens w target top [] top
  /-- Any other sequence is what the level below it leads into. -/
  | inside {id first : BlockId} {b : Block} {rest : Stack} (hb : w.resolve? target id = some b)
      (hentry : w.inside? target b = some first) : Opens w target top (some id :: rest) first

/-- **A path**: every level is on the chain that starts where the levels below lead. -/
inductive IsPath (w : World) (target : TargetId) (top : BlockId) : Stack → Prop
  /-- The end of the script. -/
  | nil : IsPath w target top []
  /-- A level above others. -/
  | cons {block : Option BlockId} {rest : Stack} {first : BlockId}
      (hopens : Opens w target top rest first) (hblock : w.OnChain target first block)
      (hrest : IsPath w target top rest) : IsPath w target top (block :: rest)

namespace IsPath

variable {w : World} {target : TargetId} {top id : BlockId} {b : Block} {stack rest : Stack}

/-- The start of a script is a path. -/
theorem start (w : World) (target : TargetId) (top : BlockId) : IsPath w target top [some top] :=
  .cons .script .first .nil

theorem tail {block : Option BlockId} (h : IsPath w target top (block :: rest)) :
    IsPath w target top rest := by
  obtain - | ⟨-, -, hrest⟩ := h
  exact hrest

/-- The top level moves on along its chain. -/
theorem advance (h : IsPath w target top (some id :: rest)) :
    IsPath w target top (w.next? target id :: rest) := by
  obtain - | ⟨hopens, hblock, hrest⟩ := h
  exact .cons hopens hblock.next hrest

/-- A new level where the top level leads. -/
theorem enter {body : BlockId} (h : IsPath w target top (some id :: rest))
    (hb : w.resolve? target id = some b) (hentry : w.inside? target b = some body) :
    IsPath w target top (some body :: some id :: rest) :=
  .cons (.inside hb hentry) .first h

/-- Unwinding uncovers a path, of which a call at the top moves on. -/
theorem unwind (h : IsPath w target top stack) :
    IsPath w target top (Stack.unwind w target stack) := by
  induction h with
  | nil => exact .nil
  | @cons block rest first hopens hblock hrest ih =>
    rw [Stack.unwind]
    split
    · rename_i hcall
      rcases block with - | id
      · cases hcall
      · exact advance (.cons hopens hblock hrest)
    · exact ih

theorem enterOrAdvance (h : IsPath w target top (some id :: rest))
    (hb : w.resolve? target id = some b) :
    IsPath w target top (Stack.enter w target id rest (w.inside? target b)) := by
  rcases hentry : w.inside? target b with - | body
  · exact h.advance
  · exact h.enter hb hentry

theorem loop (h : IsPath w target top (some id :: rest)) (hb : w.resolve? target id = some b) :
    IsPath w target top (Stack.loop id rest (w.inside? target b)) := by
  rcases hentry : w.inside? target b with - | body
  · exact h
  · exact h.enter hb hentry

theorem perform (h : IsPath w target top (some id :: rest)) (hb : w.resolve? target id = some b) :
    IsPath w target top (Stack.perform w target id b rest) := by
  rw [Stack.perform]
  cases hcommand : b.command with
  | stopAll => exact .nil
  | stopOthers => exact h.advance
  | stopThis => exact h.unwind
  | forever =>
    have hloop := h.loop hb
    rw [World.inside?_of_ne_call (by rw [hcommand]; exact Command.noConfusion)] at hloop
    exact hloop
  | call =>
    have henter := h.enterOrAdvance hb
    rw [World.inside?_of_call hcommand] at henter
    exact henter
  | plain =>
    have henter := h.enterOrAdvance hb
    rw [World.inside?_of_ne_call (by rw [hcommand]; exact Command.noConfusion)] at henter
    exact henter

/-- **One step** keeps the stack a path. -/
theorem step (h : IsPath w target top stack) : IsPath w target top (Stack.step w target stack) := by
  rcases stack with - | ⟨- | id, rest⟩
  · exact .nil
  · -- The sequence of the top level is over, and the level below is returned to.
    rcases rest with - | ⟨- | parent, rest⟩
    · exact .nil
    · exact h.tail.unwind
    · rw [Stack.step]
      split
      · rename_i hloop
        obtain ⟨b, hb, -, hentry⟩ := World.exists_of_isLoop hloop
        rw [← hentry]
        exact h.tail.loop hb
      · exact h.tail.advance
  · rw [Stack.step]
    rcases hb : w.resolve? target id with - | b
    · exact h.unwind
    · exact h.perform hb

/-! ### What a path says of its levels -/

/-- The outermost level is on the chain of the script. -/
theorem onChain_getLast? (h : IsPath w target top stack) {block : Option BlockId}
    (hlast : stack.getLast? = some block) : w.OnChain target top block := by
  induction h with
  | nil => cases hlast
  | @cons block' rest first hopens hblock hrest ih =>
    rcases rest with - | ⟨lower, rest⟩
    · obtain rfl : block' = block := Option.some.inj hlast
      obtain - | - := hopens
      exact hblock
    · exact ih hlast

/-- A level below another one has a block that exists and leads to the level above it. -/
theorem exists_of_getElem? (h : IsPath w target top stack) {i : Nat} {upper lower : Option BlockId}
    (hupper : stack[i]? = some upper) (hlower : stack[i + 1]? = some lower) :
    ∃ id b first, lower = some id ∧ w.resolve? target id = some b ∧
      w.inside? target b = some first ∧ w.OnChain target first upper := by
  induction h generalizing i with
  | nil => cases hupper
  | @cons block rest first hopens hblock hrest ih =>
    rcases i with - | i
    · obtain rfl : block = upper := Option.some.inj hupper
      obtain - | ⟨hb, hentry⟩ := hopens
      · cases hlower
      · exact ⟨_, _, _, (Option.some.inj hlower).symm, hb, hentry, hblock⟩
    · exact ih hupper hlower

/-! ### Other settings -/

/-- A path does not depend on the settings. -/
theorem under (h : IsPath w target top stack) (settings : Settings) :
    IsPath (w.under settings) target top stack := by
  have hchain : ∀ {first : BlockId} {block : Option BlockId}, w.OnChain target first block →
      (w.under settings).OnChain target first block := by
    intro first block hblock
    induction hblock with
    | first => exact .first
    | next _ ih => exact ih.next
  induction h with
  | nil => exact .nil
  | cons hopens hblock hrest ih =>
    refine .cons ?_ (hchain hblock) ih
    obtain - | ⟨hb, hentry⟩ := hopens
    · exact .script
    · exact .inside hb hentry

end IsPath

end Stack

end BlockScript
