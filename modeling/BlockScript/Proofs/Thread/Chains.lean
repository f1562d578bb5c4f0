import BlockScript.Activity.Compilation
import BlockScript.Proofs.Thread.Structured

/-!
# Compiled chains, as the interpreter sees them

A compiled program is a chain of next blocks, none of which encloses others or has to do with
procedures (`Chain`, which is what `StraightLine.follow` gives). The interpreter need not come to
all of the chain: a block can stop the script or be an endless loop without a body, and from a block
of another target there is no way on, since the next block is looked up in the script's own target.

`Straight` says of a program that nothing of the kind happens, and `Chain.straight_iff` that this is
exactly when the stack machine comes to the blocks of the program, all of them and no others, asks
nothing of other threads, and reaches an end.
-/

namespace BlockScript

/-! ### Chains -/

/-- **A chain**: blocks that a compiler of straight lines supports, each the next block of the one
before it, up to one without a next block. -/
inductive Chain (w : World) (target : TargetId) : BlockId → Program → Prop
  /-- The last block. -/
  | last {id : BlockId} {b : Block} (hb : w.resolve? target id = some b)
      (hsupported : StraightLine.isUnsupported b = false) (hnext : b.next = none) :
      Chain w target id [id]
  /-- A block before others. -/
  | cons {id id' : BlockId} {b : Block} {rest : Program} (hb : w.resolve? target id = some b)
      (hsupported : StraightLine.isUnsupported b = false) (hnext : b.next = some id')
      (hrest : Chain w target id' rest) : Chain w target id (id :: rest)

/-- What the compiler gives is a chain. -/
theorem chain_of_follow {e : Engine} {target : TargetId} (steps : Nat) : ∀ {id : BlockId}
    {program : Program}, StraightLine.follow e target steps id = .ok (.ok program) →
      Chain e.world target id program := by
  induction steps with
  | zero =>
    intro id program h
    cases h
  | succ steps ih =>
    intro id program h
    rw [StraightLine.follow] at h
    cases hb : e.resolve? target id with
    | none =>
      rw [hb] at h
      cases h
    | some b =>
      rw [hb] at h
      dsimp only at h
      cases hsupported : StraightLine.isUnsupported b with
      | true =>
        rw [hsupported] at h
        cases h
      | false =>
        rw [hsupported, if_neg Bool.false_ne_true] at h
        cases hnext : b.next with
        | none =>
          rw [hnext] at h
          cases h
          exact .last hb hsupported hnext
        | some id' =>
          rw [hnext] at h
          dsimp only at h
          -- What the rest of the chain failed with, this block fails with.
          rcases hfollow : StraightLine.follow e target steps id' with cause | (cause | rest)
          · rw [hfollow] at h
            cases h
          · rw [hfollow] at h
            cases h
          · rw [hfollow] at h
            cases h
            exact .cons hb hsupported hnext (ih hfollow)

/-- **Straight programs**: those that the interpreter goes through from end to end. -/
structure Straight (w : World) (target : TargetId) (program : Program) : Prop where
  /-- No block asks anything of other threads, and none is an endless loop. -/
  harmless : ∀ id ∈ program, ∀ b, w.resolve? target id = some b →
    b.command ≠ .stopAll ∧ b.command ≠ .stopOthers ∧ b.command ≠ .forever
  /-- Every block but the last belongs to the target itself and does not stop the script. -/
  onward : ∀ id ∈ program.dropLast,
    w.Holds target id ∧ ∀ b, w.resolve? target id = some b → b.command ≠ .stopThis

namespace StraightLine

variable {b : Block}

theorem substack?_eq_none (h : isUnsupported b = false) : b.substack? = none := by
  have hslot : b.inputs.contains Block.substackSlot = false := (Bool.or_eq_false_iff.1 h).1
  rw [Table.contains, Option.isSome_eq_false_iff, Option.isNone_iff_eq_none] at hslot
  rw [Block.substack?, Block.inputBlock?, hslot, Option.bind_none]

theorem opcode_ne_call (h : isUnsupported b = false) : b.opcode ≠ Block.callOpcode := by
  intro hop
  have hmark := (Bool.or_eq_false_iff.1 h).2
  rw [hop] at hmark
  exact absurd hmark (by decide)

theorem command_ne_call (h : isUnsupported b = false) : b.command ≠ .call := by
  intro hcommand
  rw [Block.command] at hcommand
  split at hcommand
  · rw [Block.stopCommand] at hcommand
    split at hcommand <;> cases hcommand
  · split at hcommand
    · cases hcommand
    · split at hcommand
      · exact opcode_ne_call h ‹_›
      · cases hcommand

end StraightLine

/-! ### One step at a block of a chain -/

namespace World

variable {w : World} {target : TargetId} {id : BlockId} {b : Block}

/-- There is no way on from a block of another target. -/
theorem next?_of_not_holds (h : ¬w.Holds target id) : w.next? target id = none := by
  have hnext : w.next? target id =
      ((w.graph? target).bind fun g ↦ g.get? id).bind Block.next := by
    rw [next?, Option.bind_assoc]
    rfl
  rw [hnext, get?_of_not_holds h, Option.bind_none]

theorem isCall_eq_false (hb : w.resolve? target id = some b) (hop : b.opcode ≠ Block.callOpcode) :
    w.isCall target (some id) = false := by
  by_cases hholds : w.Holds target id
  · rw [isCall_of_holds hholds hb]
    exact beq_eq_false_iff_ne.2 hop
  · exact isCall_of_not_holds hholds

end World

namespace Stack

variable {w : World} {target : TargetId} {id : BlockId} {b : Block}

/-- A supported block that stops the script is its end. -/
theorem step_stopThis (hb : w.resolve? target id = some b)
    (hsupported : StraightLine.isUnsupported b = false) (hcommand : b.command = .stopThis) :
    step w target [some id] = [] := by
  rw [step_of_resolve? [] hb, perform, hcommand]
  show unwind w target [some id] = []
  rw [unwind, World.isCall_eq_false hb (StraightLine.opcode_ne_call hsupported)]
  rfl

/-- A supported plain block moves on. -/
theorem step_plain (hb : w.resolve? target id = some b)
    (hsupported : StraightLine.isUnsupported b = false) (hcommand : b.command = .plain) :
    step w target [some id] = [w.next? target id] := by
  rw [step_of_resolve? [] hb, perform, hcommand, StraightLine.substack?_eq_none hsupported]
  rfl

/-- A supported endless loop has no body, and is come to again and again. -/
theorem step_forever (hb : w.resolve? target id = some b)
    (hsupported : StraightLine.isUnsupported b = false) (hcommand : b.command = .forever) :
    step w target [some id] = [some id] := by
  rw [step_of_resolve? [] hb, perform, hcommand, StraightLine.substack?_eq_none hsupported]
  rfl

/-- From an empty level there is nothing left to come to. -/
theorem trace_none (n : Nat) : trace w target n [none] = [] := by
  cases n with
  | zero => rfl
  | succ n => exact trace_nil n

theorem quiet_nil (n : Nat) : Quiet w target n [] := by
  induction n with
  | zero => trivial
  | succ n ih => exact ⟨rfl, ih⟩

/-- Where `n` steps lead to the end and ask nothing of other threads, no number of steps does. -/
theorem quiet_of_after_eq_nil {stack : Stack} {n : Nat} (hend : after w target n stack = [])
    (hquiet : Quiet w target n stack) (k : Nat) : Quiet w target k stack := by
  rcases Nat.le_total k n with hle | hle
  · obtain ⟨m, rfl⟩ := Nat.exists_eq_add_of_le hle
    exact ((quiet_add k m stack).1 hquiet).1
  · obtain ⟨m, rfl⟩ := Nat.exists_eq_add_of_le hle
    rw [quiet_add, hend]
    exact ⟨hquiet, quiet_nil m⟩

/-- A step asks nothing of other threads unless its block does. -/
theorem request?_eq_none_iff (rest : Stack) (hb : w.resolve? target id = some b) :
    request? w target (some id :: rest) = none ↔
      b.command ≠ .stopAll ∧ b.command ≠ .stopOthers := by
  rw [request?, hb, Option.map_some]
  cases b.command <;> simp

end Stack

/-! ### Straight programs -/

namespace Chain

variable {w : World} {target : TargetId} {id : BlockId} {program : Program}

theorem ne_nil (h : Chain w target id program) : program ≠ [] := by
  cases h <;> exact List.cons_ne_nil _ _

/-- All blocks of a chain exist. -/
theorem isSome_resolve? (h : Chain w target id program) :
    ∀ id' ∈ program, (w.resolve? target id').isSome = true := by
  induction h with
  | last hb _ _ =>
    intro id' hmem
    rw [List.mem_singleton.1 hmem, hb]
    rfl
  | cons hb _ _ _ ih =>
    intro id' hmem
    rcases List.mem_cons.1 hmem with rfl | hmem
    · rw [hb]
      rfl
    · exact ih id' hmem

/-- The first block of a chain is no call. -/
theorem isCall_eq_false (h : Chain w target id program) : w.isCall target (some id) = false := by
  cases h with
  | last hb hsupported _ =>
    exact World.isCall_eq_false hb (StraightLine.opcode_ne_call hsupported)
  | cons hb hsupported _ _ =>
    exact World.isCall_eq_false hb (StraightLine.opcode_ne_call hsupported)

end Chain

namespace Straight

variable {w : World} {target : TargetId} {id : BlockId} {b : Block} {rest : Program}

theorem singleton_iff (hb : w.resolve? target id = some b) :
    Straight w target [id] ↔
      b.command ≠ .stopAll ∧ b.command ≠ .stopOthers ∧ b.command ≠ .forever := by
  constructor
  · exact fun h ↦ h.harmless id List.mem_cons_self b hb
  · intro h
    refine ⟨fun id' hmem b' hb' ↦ ?_, fun id' hmem ↦ by cases hmem⟩
    obtain rfl := List.mem_singleton.1 hmem
    obtain rfl := Option.some.inj (hb.symm.trans hb')
    exact h

theorem cons_iff (hb : w.resolve? target id = some b) (hne : rest ≠ []) :
    Straight w target (id :: rest) ↔
      (b.command ≠ .stopAll ∧ b.command ≠ .stopOthers ∧ b.command ≠ .forever) ∧
        w.Holds target id ∧ b.command ≠ .stopThis ∧ Straight w target rest := by
  have hdrop : (id :: rest).dropLast = id :: rest.dropLast := List.dropLast_cons_of_ne_nil hne
  constructor
  · intro h
    have hid := h.onward id (hdrop ▸ List.mem_cons_self)
    refine ⟨h.harmless id List.mem_cons_self b hb, hid.1, hid.2 b hb, ?_, ?_⟩
    · exact fun id' hmem ↦ h.harmless id' (List.mem_cons_of_mem _ hmem)
    · exact fun id' hmem ↦ h.onward id' (hdrop ▸ List.mem_cons_of_mem _ hmem)
  · rintro ⟨hharmless, hholds, hstop, h⟩
    refine ⟨fun id' hmem b' hb' ↦ ?_, fun id' hmem ↦ ?_⟩
    · rcases List.mem_cons.1 hmem with rfl | hmem
      · obtain rfl := Option.some.inj (hb.symm.trans hb')
        exact hharmless
      · exact h.harmless id' hmem b' hb'
    · rw [hdrop] at hmem
      rcases List.mem_cons.1 hmem with rfl | hmem
      · refine ⟨hholds, fun b' hb' ↦ ?_⟩
        obtain rfl := Option.some.inj (hb.symm.trans hb')
        exact hstop
      · exact h.onward id' hmem

end Straight

/-! ### Going through a program -/

namespace Stack

variable {w : World} {target : TargetId}

/-- The machine goes through a program: it comes to the program's blocks, asks nothing of other
threads, and reaches an end. -/
def GoesThrough (w : World) (target : TargetId) (stack : Stack) (program : Program) : Prop :=
  ∃ n, after w target n stack = [] ∧ trace w target n stack = program ∧ Quiet w target n stack

namespace GoesThrough

variable {program : Program}

theorem nil_iff : GoesThrough w target [] program ↔ program = [] := by
  constructor
  · rintro ⟨n, -, rfl, -⟩
    exact trace_nil n
  · rintro rfl
    exact ⟨0, rfl, rfl, trivial⟩

theorem none_iff : GoesThrough w target [none] program ↔ program = [] := by
  constructor
  · rintro ⟨n, -, rfl, -⟩
    exact trace_none n
  · rintro rfl
    exact ⟨1, rfl, rfl, rfl, trivial⟩

theorem cons_iff {id : BlockId} {rest : Stack} :
    GoesThrough w target (some id :: rest) (id :: program) ↔
      request? w target (some id :: rest) = none ∧
        GoesThrough w target (step w target (some id :: rest)) program := by
  constructor
  · rintro ⟨n, hend, htrace, hquiet⟩
    cases n with
    | zero => cases hend
    | succ n => exact ⟨hquiet.1, n, hend, (List.cons.inj htrace).2, hquiet.2⟩
  · rintro ⟨hrequest, n, hend, htrace, hquiet⟩
    refine ⟨n + 1, hend, ?_, hrequest, hquiet⟩
    rw [trace, htrace]
    rfl

end GoesThrough

/-- Where a step leads nowhere else, there is no end. -/
theorem not_goesThrough_of_step_eq {stack : Stack} {program : Program} (hne : stack ≠ [])
    (hstep : step w target stack = stack) : ¬GoesThrough w target stack program := by
  have hstay : ∀ n, after w target n stack = stack := by
    intro n
    induction n with
    | zero => rfl
    | succ n ih =>
      rw [after, hstep]
      exact ih
  rintro ⟨n, hend, -⟩
  exact hne ((hstay n).symm.trans hend)

end Stack

namespace Chain

variable {w : World} {target : TargetId}

/-- What is left for a supported block that asks nothing of other threads and is no endless loop. -/
private theorem command_cases {b : Block} (hsupported : StraightLine.isUnsupported b = false)
    (hall : b.command ≠ .stopAll) (hothers : b.command ≠ .stopOthers)
    (hforever : b.command ≠ .forever) : b.command = .stopThis ∨ b.command = .plain := by
  have hcall := StraightLine.command_ne_call hsupported
  cases hcommand : b.command <;> simp_all

/-- A block that the machine goes on from is no endless loop. -/
private theorem command_ne_forever {id : BlockId} {b : Block} {rest : Program}
    (hb : w.resolve? target id = some b) (hsupported : StraightLine.isUnsupported b = false)
    (h : Stack.GoesThrough w target (Stack.step w target [some id]) rest) :
    b.command ≠ .forever := by
  intro hforever
  have hstep := Stack.step_forever hb hsupported hforever
  rw [hstep] at h
  exact Stack.not_goesThrough_of_step_eq (List.cons_ne_nil _ _) hstep h

/-- **Exactly the straight programs are gone through.** -/
theorem straight_iff {id : BlockId} {program : Program} (h : Chain w target id program) :
    Straight w target program ↔ Stack.GoesThrough w target [some id] program := by
  induction h with
  | @last id b hb hsupported hnext =>
    rw [Straight.singleton_iff hb, Stack.GoesThrough.cons_iff, Stack.request?_eq_none_iff [] hb]
    constructor
    · rintro ⟨hall, hothers, hforever⟩
      refine ⟨⟨hall, hothers⟩, ?_⟩
      rcases command_cases hsupported hall hothers hforever with hcommand | hcommand
      · rw [Stack.step_stopThis hb hsupported hcommand, Stack.GoesThrough.nil_iff]
      · have hnone : w.next? target id = none := by
          by_cases hholds : w.Holds target id
          · rw [World.next?_of_holds hholds hb, hnext]
          · exact World.next?_of_not_holds hholds
        rw [Stack.step_plain hb hsupported hcommand, hnone, Stack.GoesThrough.none_iff]
    · rintro ⟨⟨hall, hothers⟩, h⟩
      exact ⟨hall, hothers, command_ne_forever hb hsupported h⟩
  | @cons id id' b rest hb hsupported hnext hrest ih =>
    rw [Straight.cons_iff hb hrest.ne_nil, Stack.GoesThrough.cons_iff,
      Stack.request?_eq_none_iff [] hb]
    constructor
    · rintro ⟨⟨hall, hothers, hforever⟩, hholds, hstop, hstraight⟩
      have hplain := (command_cases hsupported hall hothers hforever).resolve_left hstop
      refine ⟨⟨hall, hothers⟩, ?_⟩
      rw [Stack.step_plain hb hsupported hplain, World.next?_of_holds hholds hb, hnext]
      exact ih.1 hstraight
    · rintro ⟨⟨hall, hothers⟩, h⟩
      have hforever := command_ne_forever hb hsupported h
      -- There is more of the program to come, so the machine must not be at its end by now.
      rcases command_cases hsupported hall hothers hforever with hcommand | hcommand
      · rw [Stack.step_stopThis hb hsupported hcommand, Stack.GoesThrough.nil_iff] at h
        exact absurd h hrest.ne_nil
      · rw [Stack.step_plain hb hsupported hcommand] at h
        have hholds : w.Holds target id := by
          by_contra hnot
          rw [World.next?_of_not_holds hnot, Stack.GoesThrough.none_iff] at h
          exact hrest.ne_nil h
        rw [World.next?_of_holds hholds hb, hnext] at h
        refine ⟨⟨hall, hothers, hforever⟩, hholds, ?_, ih.2 h⟩
        rw [hcommand]
        exact Command.noConfusion

end Chain

end BlockScript
