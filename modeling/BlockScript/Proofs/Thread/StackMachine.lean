import BlockScript.Proofs.Activity.Turns

/-!
# The interpreter as a stack machine

A thread that is interpreted carries a good deal with it that does not decide where it goes next:
the frames of its levels, its warp timer, whether it yielded. What does decide is the **stack** of
the blocks at work, innermost first, where `none` stands for a level whose sequence is over. This
module defines the machine on stacks (`Stack.step`) and shows that a thread follows it, at any time
and under any settings.

The machine has no loop flags: a level that is returned to is a loop just when its block is an
endless loop, and that a thread's frames say the same is part of the invariant `Stands`. The other
part is what a driver never does: its levels do not switch targets and do not wait for reporters.

* `Stands.stepBlock` is one step, and `Stands.turn` is one step and the yield that may follow;
* `Rests.exists_of_slice` and `Rests.slice_of_after_eq_nil` are a whole slice: it makes some number
  of steps, and comes to an end if the machine does within the turns that are granted;
* `Rests.exists_of_frames` is a thread's life over many frames, with whatever yields in between.
-/

namespace BlockScript

/-! ### The machine -/

namespace World

/-- The block after a given one, in the graph of one target. -/
def next? (w : World) (target : TargetId) (id : BlockId) : Option BlockId :=
  (w.graph? target).bind fun g ↦ g.next? id

/-- Whether a level with this block is a procedure call, in the graph of one target. -/
def isCall (w : World) (target : TargetId) (block : Option BlockId) : Bool :=
  ((block.bind fun id ↦ (w.graph? target).bind fun g ↦ g.get? id).map Block.opcode) ==
    some Block.callOpcode

/-- Whether a level with this block is an endless loop. -/
def isLoop (w : World) (target : TargetId) (block : Option BlockId) : Bool :=
  (block.bind (w.resolve? target)).any fun b ↦ b.command == .forever

end World

/-- The blocks at work, innermost first; none where a sequence is over. -/
abbrev Stack :=
  List (Option BlockId)

namespace Stack

/-- Drops levels until one is a procedure call, which moves on. -/
def unwind (w : World) (target : TargetId) : Stack → Stack
  | [] => []
  | block :: rest =>
    if w.isCall target block then (block.bind fun id ↦ w.next? target id) :: rest
    else unwind w target rest

/-- The stack after the block `id` entered the blocks given, or moved on where there are none. -/
def enter (w : World) (target : TargetId) (id : BlockId) (rest : Stack) : Option BlockId → Stack
  | some body => some body :: some id :: rest
  | none => w.next? target id :: rest

/-- The stack after an endless loop turned to the blocks it encloses, or to itself where there are
none. -/
def loop (id : BlockId) (rest : Stack) : Option BlockId → Stack
  | some body => some body :: some id :: rest
  | none => some id :: rest

/-- The stack after the command of a block. -/
def perform (w : World) (target : TargetId) (id : BlockId) (b : Block) (rest : Stack) : Stack :=
  match b.command with
  | .stopAll => []
  | .stopOthers => w.next? target id :: rest
  | .stopThis => unwind w target (some id :: rest)
  | .forever => loop id rest b.substack?
  | .call => enter w target id rest (b.proccode.bind (w.procedureBody? target))
  | .plain => enter w target id rest b.substack?

/-- One step. -/
def step (w : World) (target : TargetId) : Stack → Stack
  | [] => []
  | some id :: rest =>
    match w.resolve? target id with
    | none => unwind w target (some id :: rest)
    | some b => perform w target id b rest
  | [none] => []
  | none :: none :: rest => unwind w target (none :: rest)
  | none :: some parent :: rest =>
    if w.isLoop target (some parent) then loop parent rest (w.substack? target parent)
    else w.next? target parent :: rest

/-- What the next step asks of the other threads. -/
def request? (w : World) (target : TargetId) : Stack → Option StopRequest
  | some id :: _ =>
    match (w.resolve? target id).map Block.command with
    | some .stopAll => some .all
    | some .stopOthers => some (.others target)
    | _ => none
  | _ => none

/-- The stack after so many steps. -/
def after (w : World) (target : TargetId) : Nat → Stack → Stack
  | 0, stack => stack
  | n + 1, stack => after w target n (step w target stack)

/-- The blocks that so many steps come to. -/
def trace (w : World) (target : TargetId) : Nat → Stack → List BlockId
  | 0, _ => []
  | n + 1, stack => stack.head?.join.toList ++ trace w target n (step w target stack)

/-- Whether so many steps ask nothing of the other threads. -/
def Quiet (w : World) (target : TargetId) : Nat → Stack → Prop
  | 0, _ => True
  | n + 1, stack => request? w target stack = none ∧ Quiet w target n (step w target stack)

variable {w : World} {target : TargetId} {stack : Stack}

/-- Steps may be counted in two parts. -/
theorem after_add (m n : Nat) (stack : Stack) :
    after w target (m + n) stack = after w target n (after w target m stack) := by
  induction m generalizing stack with
  | zero => rw [Nat.zero_add, after]
  | succ m ih => rw [Nat.succ_add, after, ih, after]

/-- The blocks of two stretches follow each other. -/
theorem trace_add (m n : Nat) (stack : Stack) :
    trace w target (m + n) stack =
      trace w target m stack ++ trace w target n (after w target m stack) := by
  induction m generalizing stack with
  | zero => rw [Nat.zero_add, trace, after, List.nil_append]
  | succ m ih => rw [Nat.succ_add, trace, ih, trace, after, List.append_assoc]

/-- Steps ask nothing of other threads if neither part of them does. -/
theorem quiet_add (m n : Nat) (stack : Stack) :
    Quiet w target (m + n) stack ↔
      Quiet w target m stack ∧ Quiet w target n (after w target m stack) := by
  induction m generalizing stack with
  | zero => rw [Nat.zero_add, Quiet, after, true_and]
  | succ m ih => rw [Nat.succ_add, Quiet, ih, Quiet, after, and_assoc]

/-- An empty stack stays empty and comes to no block. -/
theorem after_nil (n : Nat) : after w target n [] = [] := by
  induction n with
  | zero => rfl
  | succ n ih => exact ih

theorem trace_nil (n : Nat) : trace w target n [] = [] := by
  induction n with
  | zero => rfl
  | succ n ih => exact ih

/-- Where `n` steps lead to the end, more steps come to the same blocks, and fewer to the first of
them. -/
theorem isPrefix_trace {n : Nat} (hend : after w target n stack = []) (k : Nat) :
    trace w target k stack <+: trace w target n stack := by
  rcases Nat.le_total k n with hle | hle
  · obtain ⟨m, rfl⟩ := Nat.exists_eq_add_of_le hle
    rw [trace_add]
    exact List.prefix_append _ _
  · obtain ⟨m, rfl⟩ := Nat.exists_eq_add_of_le hle
    have hsame : trace w target (n + m) stack = trace w target n stack := by
      rw [trace_add, hend, trace_nil, List.append_nil]
    exact hsame ▸ List.prefix_rfl

/-- All numbers of steps that lead to the end come to the same blocks. -/
theorem trace_eq_of_after_eq_nil {n k : Nat} (hn : after w target n stack = [])
    (hk : after w target k stack = []) : trace w target k stack = trace w target n stack :=
  (isPrefix_trace hn k).eq_of_length_le (isPrefix_trace hk n).length_le

/-- What has come to its end stays there. -/
theorem after_eq_nil_of_le {n k : Nat} (hn : after w target n stack = []) (hle : n ≤ k) :
    after w target k stack = [] := by
  obtain ⟨m, rfl⟩ := Nat.exists_eq_add_of_le hle
  rw [after_add, hn, after_nil]

end Stack

/-! ### Threads that stand where the machine stands -/

/-- What a driver keeps true of the top level. -/
structure World.AtTop (w : World) (target : TargetId) (level : InlineLevel) : Prop where
  /-- Pushing it did not switch the target. -/
  switched_eq : level.switched = false
  /-- It does not wait for a reporter. -/
  waiting_eq : level.frame.waitingReporter = false
  /-- It is flagged as a loop only if its block is one. -/
  isLoop_of_flag : level.frame.isLoop = true → w.isLoop target level.block = true

/-- What a driver keeps true of the levels below the top one. -/
structure World.Below (w : World) (target : TargetId) (level : InlineLevel) : Prop
    extends World.AtTop w target level where
  /-- It has a block to return to. -/
  isSome_block : level.block.isSome = true
  /-- It is flagged as a loop if its block is one. -/
  flag_of_isLoop : w.isLoop target level.block = true → level.frame.isLoop = true

/-- What a driver keeps true of all levels. -/
def World.Shape (w : World) (target : TargetId) : List InlineLevel → Prop
  | [] => True
  | top :: rest => w.AtTop target top ∧ ∀ level ∈ rest, w.Below target level

/-- What was decided about a thread from outside. -/
structure Lot where
  /-- Whether it is to be unwound at its next turn. -/
  killed : Bool
  /-- What came of compiling it. -/
  compilation : Compilation

/-- What was decided about a thread from outside. -/
def InlineThread.lot (t : InlineThread) : Lot :=
  ⟨t.killed, t.compilation⟩

/-- Threads with this lot are interpreted at their turns. -/
structure Lot.Interpreted (lot : Lot) : Prop where
  /-- They are not to be unwound. -/
  killed_eq : lot.killed = false
  /-- They are not compiled. -/
  not_compiled : ∀ program, lot.compilation ≠ .compiled program

/-- The turn of an interpreted thread is a slice. -/
theorem Lot.Interpreted.takeTurn_eq {t : InlineThread} (h : t.lot.Interpreted) (w : World)
    (deadline : Time) (shown : Readings) (turns : Nat) :
    t.takeTurn w deadline shown turns = InlineThread.slice w deadline shown turns none t.wake := by
  have hkilled : t.killed = false := h.killed_eq
  have hprogram : t.program? = none := by
    rw [InlineThread.program?]
    split
    · exact absurd ‹_› (h.not_compiled _)
    · rfl
  rw [InlineThread.takeTurn, hkilled, hprogram]
  rfl

/-- The thread is at work, and its levels have the blocks of the stack. -/
structure Stands (w : World) (target : TargetId) (lot : Lot) (stack : Stack) (t : InlineThread) :
    Prop where
  /-- The target it is on. -/
  target_eq : t.target = target
  /-- The blocks of its levels. -/
  blocks_eq : t.levels.map InlineLevel.block = stack
  /-- What holds of its levels. -/
  shape : w.Shape target t.levels
  /-- It runs, or waits for its next turn. -/
  live : t.status = .running ∨ t.status = .yield
  /-- Its lot is as it was. -/
  lot_eq : t.lot = lot

/-- The thread stands at the stack, or is done where the stack is empty. -/
def Rests (w : World) (target : TargetId) (lot : Lot) (stack : Stack) (t : InlineThread) : Prop :=
  if stack = [] then t.levels = [] ∧ t.status = .done ∧ t.target = target ∧ t.lot = lot
  else Stands w target lot stack t

namespace World.Shape

variable {w : World} {target : TargetId} {level : InlineLevel} {rest : List InlineLevel}

/-- A level that is left leaves a stack of the same shape. -/
theorem tail (h : w.Shape target (level :: rest)) : w.Shape target rest := by
  cases rest with
  | nil => trivial
  | cons parent rest =>
    exact ⟨(h.2 parent List.mem_cons_self).toAtTop,
      fun l hmem ↦ h.2 l (List.mem_cons_of_mem _ hmem)⟩

/-- Another block in place of the top level's. -/
theorem reuse (h : w.Shape target (level :: rest)) (block : Option BlockId) :
    w.Shape target (⟨block, level.frame.renewed, level.switched⟩ :: rest) :=
  ⟨⟨h.1.switched_eq, rfl, fun hflag ↦ by cases hflag⟩, h.2⟩

/-- A new level above one that can be returned to. -/
theorem push (h : w.Shape target (level :: rest)) (hbelow : w.Below target level) (block : BlockId)
    (mode : Bool) : w.Shape target (⟨some block, Frame.ofMode mode, false⟩ :: level :: rest) := by
  refine ⟨⟨rfl, rfl, fun hflag ↦ by cases hflag⟩, fun l hmem ↦ ?_⟩
  rcases List.mem_cons.1 hmem with rfl | hmem
  · exact hbelow
  · exact h.2 l hmem

end World.Shape

namespace Stands

variable {w : World} {target : TargetId} {lot : Lot} {stack : Stack} {t : InlineThread}
  {level : InlineLevel}
  {rest : List InlineLevel}

/-- Other levels are another stack, if they have the shape of one. -/
theorem withLevels (h : Stands w target lot stack t) {levels : List InlineLevel}
    (hshape : w.Shape target levels) :
    Stands w target lot (levels.map InlineLevel.block) (t.withLevels levels) :=
  ⟨h.target_eq, rfl, hshape, h.live, h.lot_eq⟩

/-- A thread that stands at a stack with a top has a top level. -/
theorem exists_levels {block : Option BlockId} {below : Stack}
    (h : Stands w target lot (block :: below) t) :
    ∃ level rest, t.levels = level :: rest ∧ level.block = block ∧
      rest.map InlineLevel.block = below := by
  have hblocks := h.blocks_eq
  cases hlevels : t.levels with
  | nil =>
    rw [hlevels] at hblocks
    cases hblocks
  | cons level rest =>
    rw [hlevels, List.map_cons] at hblocks
    exact ⟨level, rest, rfl, (List.cons.inj hblocks).1, (List.cons.inj hblocks).2⟩

/-- The shape, where the levels are known. -/
theorem shape_cons (h : Stands w target lot stack t) (hlevels : t.levels = level :: rest) :
    w.Shape target (level :: rest) :=
  hlevels ▸ h.shape

/-- The top level moves on. -/
theorem advance (h : Stands w target lot stack t) (hlevels : t.levels = level :: rest) :
    ∃ t', t.advance w = .ok t' ∧
      Stands w target lot ((level.block.bind fun id ↦ w.next? target id) ::
        rest.map InlineLevel.block) t' := by
  have hnext : t.nextBlock? w = level.block.bind fun id ↦ w.next? target id := by
    rw [InlineThread.nextBlock?, InlineThread.peek?, hlevels, h.target_eq]
    rfl
  refine ⟨_, ?_, h.withLevels
    ((h.shape_cons hlevels).reuse (level.block.bind fun id ↦ w.next? target id))⟩
  rw [InlineThread.advance, InlineThread.reuse, hlevels, hnext]

/-- **Leaving a level** drops the top of the stack, and does not fail. -/
theorem pop (h : Stands w target lot stack t) (hlevels : t.levels = level :: rest) :
    t.pop = .ok (level.block, t.withLevels rest) ∧
      Stands w target lot (rest.map InlineLevel.block) (t.withLevels rest) := by
  have hshape := h.shape_cons hlevels
  refine ⟨?_, h.withLevels hshape.tail⟩
  rw [InlineThread.pop, hlevels]
  show (if level.switched then _ else _) = _
  rw [hshape.1.switched_eq]
  rfl

/-- A block is pushed above a level that can be returned to. -/
theorem push (h : Stands w target lot stack t) (hlevels : t.levels = level :: rest)
    (hbelow : w.Below target level) (block : BlockId) :
    Stands w target lot (some block :: level.block :: rest.map InlineLevel.block)
      (t.push block none) := by
  have hpush : t.push block none =
      t.withLevels (⟨some block, Frame.ofMode t.inWarpMode, false⟩ :: level :: rest) := by
    show t.withLevels (_ :: t.levels) = _
    rw [hlevels]
  rw [hpush]
  exact h.withLevels ((h.shape_cons hlevels).push hbelow block _)

/-- The thread and the machine agree on what is a call. -/
theorem isCall (h : Stands w target lot stack t) (level : InlineLevel) :
    t.isCall w level = w.isCall target level.block := by
  rw [InlineThread.isCall, World.isCall, h.target_eq]

/-- Unwinding pops levels as the machine drops them. -/
theorem unwind (rounds : Nat) : ∀ {stack : Stack} {t : InlineThread}, Stands w target lot stack t →
    t.depth ≤ rounds →
      ∃ t', t.unwind w rounds = .ok t' ∧ Stands w target lot (Stack.unwind w target stack) t' := by
  induction rounds with
  | zero =>
    intro stack t h hle
    have hlevels : t.levels = [] := List.eq_nil_of_length_eq_zero (Nat.le_zero.1 hle)
    have hstack : stack = [] := by rw [← h.blocks_eq, hlevels, List.map_nil]
    subst hstack
    exact ⟨t, rfl, h⟩
  | succ rounds ih =>
    intro stack t h hle
    cases stack with
    | nil =>
      have hlevels : t.levels = [] := List.map_eq_nil_iff.1 h.blocks_eq
      refine ⟨t, ?_, h⟩
      rw [InlineThread.unwind, hlevels]
    | cons block below =>
      obtain ⟨level, rest, hlevels, rfl, rfl⟩ := h.exists_levels
      rw [InlineThread.unwind, hlevels]
      dsimp only
      rw [(h.shape_cons hlevels).1.waiting_eq, h.isCall, Stack.unwind]
      -- A call catches the stop and moves on; any other level is dropped.
      cases w.isCall target level.block with
      | true => exact h.advance hlevels
      | false =>
        obtain ⟨hpop, hstands⟩ := h.pop hlevels
        have hdepth : (t.withLevels rest).depth ≤ rounds := by
          rw [InlineThread.depth, hlevels, List.length_cons] at hle
          exact Nat.le_of_succ_le_succ hle
        obtain ⟨t', ht', h'⟩ := ih hstands hdepth
        refine ⟨t', ?_, h'⟩
        rw [hpop]
        exact ht'

/-- A thread without levels is done, and any other stays as it is. -/
theorem settle (h : Stands w target lot stack t) : Rests w target lot stack t.settle := by
  rw [Rests]
  cases stack with
  | nil =>
    have hlevels : t.levels = [] := List.map_eq_nil_iff.1 h.blocks_eq
    rw [if_pos rfl, InlineThread.settle, hlevels]
    exact ⟨rfl, rfl, h.target_eq, h.lot_eq⟩
  | cons block below =>
    obtain ⟨level, rest, hlevels, -, -⟩ := h.exists_levels
    have hsettle : t.settle = t := by rw [InlineThread.settle, hlevels]
    rw [if_neg (List.cons_ne_nil _ _), hsettle]
    exact h

/-- Stopping a script unwinds the stack to the next call. -/
theorem stopScript (h : Stands w target lot stack t) :
    ∃ t', t.stopScript w = .ok t' ∧ Rests w target lot (Stack.unwind w target stack) t' := by
  obtain ⟨t', ht', h'⟩ := unwind t.depth h (Nat.le_refl _)
  refine ⟨t'.settle, ?_, h'.settle⟩
  rw [InlineThread.stopScript, ht']
  rfl

/-- Leaving all levels comes to the end if so many may be left. -/
theorem unwindAll (rounds : Nat) : ∀ {stack : Stack} {t : InlineThread},
    Stands w target lot stack t → t.depth ≤ rounds →
      ∃ t', t.unwindAll rounds = .ok t' ∧ Stands w target lot [] t' := by
  induction rounds with
  | zero =>
    intro stack t h hle
    have hlevels : t.levels = [] := List.eq_nil_of_length_eq_zero (Nat.le_zero.1 hle)
    have hstack : stack = [] := by rw [← h.blocks_eq, hlevels, List.map_nil]
    exact ⟨t, rfl, hstack ▸ h⟩
  | succ rounds ih =>
    intro stack t h hle
    cases hlevels : t.levels with
    | nil =>
      have hpop : t.pop = .ok (none, t) := by rw [InlineThread.pop, hlevels]
      obtain ⟨t', ht', h'⟩ := ih h (by simp [InlineThread.depth, hlevels])
      refine ⟨t', ?_, h'⟩
      rw [InlineThread.unwindAll, hpop]
      exact ht'
    | cons level rest =>
      obtain ⟨hpop, hstands⟩ := h.pop hlevels
      have hdepth : (t.withLevels rest).depth ≤ rounds := by
        rw [InlineThread.depth, hlevels, List.length_cons] at hle
        exact Nat.le_of_succ_le_succ hle
      obtain ⟨t', ht', h'⟩ := ih hstands hdepth
      refine ⟨t', ?_, h'⟩
      rw [InlineThread.unwindAll, hpop]
      exact ht'

/-- Ending a thread leaves nothing on the stack. -/
theorem kill (h : Stands w target lot stack t) :
    ∃ t', t.kill w = .ok t' ∧ Rests w target lot [] t' := by
  obtain ⟨t₁, hall, h₁⟩ := unwindAll t.depth h (Nat.le_refl _)
  obtain ⟨t', hstop, h'⟩ := h₁.stopScript
  refine ⟨t', ?_, h'⟩
  rw [InlineThread.kill, hall]
  exact hstop

/-! ### Executing blocks -/

/-- A thread that yields stands where it stood. -/
theorem withStatus (h : Stands w target lot stack t) :
    Stands w target lot stack (t.withStatus .yield) :=
  ⟨h.target_eq, h.blocks_eq, h.shape, .inr rfl, h.lot_eq⟩

theorem withWarpTimer (h : Stands w target lot stack t) (timer : Option Time) :
    Stands w target lot stack (t.withWarpTimer timer) :=
  ⟨h.target_eq, h.blocks_eq, h.shape, h.live, h.lot_eq⟩

theorem yield (h : Stands w target lot stack t) : Stands w target lot stack t.yield :=
  (h.withWarpTimer none).withStatus

theorem shouldYield (h : Stands w target lot stack t) (now : Moment) :
    Stands w target lot stack (t.shouldYield w now).2 := by
  rw [InlineThread.shouldYield]
  split
  · exact h.withWarpTimer _
  · exact h

/-- Whether a thread yields or goes on, it stands where it stood. -/
theorem yieldIfDue (h : Stands w target lot stack t) (now : Moment) :
    Stands w target lot stack (t.yieldIfDue w now) := by
  rw [InlineThread.yieldIfDue]
  dsimp only
  split
  · exact (h.shouldYield now).yield
  · exact h.shouldYield now

/-- Writing to the top frame, other than to the flags that the machine depends on. -/
theorem modifyTopFrame (h : Stands w target lot stack t) (hlevels : t.levels = level :: rest)
    (change : Frame → Frame)
    (hwaiting : (change level.frame).waitingReporter = level.frame.waitingReporter)
    (hloop : (change level.frame).isLoop = level.frame.isLoop) :
    Stands w target lot stack (t.modifyTopFrame change) := by
  have hshape := h.shape_cons hlevels
  have hstack : stack = (({ level with frame := change level.frame } : InlineLevel) :: rest).map
      InlineLevel.block := by
    rw [← h.blocks_eq, hlevels]
    rfl
  rw [hstack, InlineThread.modifyTopFrame, hlevels]
  exact h.withLevels ⟨⟨hshape.1.switched_eq, hwaiting.trans hshape.1.waiting_eq,
    fun hflag ↦ hshape.1.isLoop_of_flag (hloop.symm.trans hflag)⟩, hshape.2⟩

end Stands

/-- A level whose block is no loop can be returned to. -/
theorem World.below_of_not_isLoop {w : World} {target : TargetId} {level : InlineLevel}
    {id : BlockId} (h : w.AtTop target level) (hblock : level.block = some id)
    (hloop : w.isLoop target (some id) = false) : w.Below target level where
  toAtTop := h
  isSome_block := by rw [hblock]; rfl
  flag_of_isLoop := by
    rw [hblock, hloop]
    intro hflag
    cases hflag

/-- A block that exists is an endless loop if it says so. -/
theorem World.isLoop_some {w : World} {target : TargetId} {id : BlockId} {b : Block}
    (hb : w.resolve? target id = some b) :
    w.isLoop target (some id) = (b.command == .forever) := by
  rw [World.isLoop, Option.bind_some, hb]
  rfl

namespace Stands

variable {w : World} {target : TargetId} {lot : Lot} {below : Stack} {t : InlineThread}
  {id : BlockId} {b : Block}

/-- **Moving on** in the script of the top level. -/
theorem advance_some (h : Stands w target lot (some id :: below) t) :
    ∃ t', t.advance w = .ok t' ∧ Stands w target lot (w.next? target id :: below) t' := by
  obtain ⟨level, rest, hlevels, hblock, rfl⟩ := h.exists_levels
  obtain ⟨t', ht', h'⟩ := h.advance hlevels
  rw [hblock] at h'
  exact ⟨t', ht', h'⟩

/-- A block is entered, or else left behind. -/
theorem enterOrAdvance (h : Stands w target lot (some id :: below) t)
    (hloop : w.isLoop target (some id) = false) (b : Block) :
    ∃ t', t.enterOrAdvance w b = .ok t' ∧
      Stands w target lot (Stack.enter w target id below b.substack?) t' := by
  rw [InlineThread.enterOrAdvance]
  cases b.substack? with
  | none => exact h.advance_some
  | some body =>
    obtain ⟨level, rest, hlevels, hblock, rfl⟩ := h.exists_levels
    have hbelow := World.below_of_not_isLoop (h.shape_cons hlevels).1 hblock hloop
    have hpushed := h.push hlevels hbelow body
    rw [hblock] at hpushed
    exact ⟨_, rfl, hpushed⟩

/-- An endless loop is entered, or else stays on top. -/
theorem enterLoop (h : Stands w target lot (some id :: below) t)
    (hloop : w.isLoop target (some id) = true) (b : Block) :
    Stands w target lot (Stack.loop id below b.substack?) (t.enterLoop b) := by
  obtain ⟨level, rest, hlevels, hblock, rfl⟩ := h.exists_levels
  have hshape := h.shape_cons hlevels
  -- The flag has to be set before the body is pushed: it is what the return goes by.
  set level' : InlineLevel := { level with frame := { level.frame with isLoop := true } }
  set t' := t.modifyTopFrame fun frame ↦ { frame with isLoop := true } with ht'
  have hlevels' : t'.levels = level' :: rest := by
    rw [ht', InlineThread.modifyTopFrame, hlevels]
    rfl
  have htop : w.AtTop target level' :=
    ⟨hshape.1.switched_eq, hshape.1.waiting_eq, fun _ ↦ hblock ▸ hloop⟩
  have hbelow : w.Below target level' :=
    ⟨htop, by show level.block.isSome = true; rw [hblock]; rfl, fun _ ↦ rfl⟩
  have h' : Stands w target lot (some id :: rest.map InlineLevel.block) t' := by
    have hstands := h.withLevels (show w.Shape target (level' :: rest) from ⟨htop, hshape.2⟩)
    rw [List.map_cons, show level'.block = some id from hblock] at hstands
    have hsame : t' = t.withLevels (level' :: rest) := by
      rw [ht', InlineThread.modifyTopFrame, hlevels]
      rfl
    exact hsame ▸ hstands
  rw [InlineThread.enterLoop]
  cases b.substack? with
  | none => exact h'.withStatus
  | some body =>
    have hpushed := h'.push hlevels' hbelow body
    rw [show level'.block = some id from hblock] at hpushed
    exact hpushed

/-- A procedure is entered above its call, whether it is recursive or not. -/
theorem enterProcedure (h : Stands w target lot (some id :: below) t)
    (hloop : w.isLoop target (some id) = false) (now : Moment) (b : Block) (code : String)
    (body : BlockId) :
    Stands w target lot (some body :: some id :: below) (t.enterProcedure w now b code body) := by
  obtain ⟨level, rest, hlevels, hblock, rfl⟩ := h.exists_levels
  have hinit := h.modifyTopFrame hlevels
    (fun frame ↦ { frame with params := some (frame.params.getD Table.empty) }) rfl rfl
  obtain ⟨level', rest', hlevels', hblock', hrest'⟩ := hinit.exists_levels
  have hbelow := World.below_of_not_isLoop (hinit.shape_cons hlevels').1 hblock' hloop
  have hpushed := hinit.push hlevels' hbelow body
  rw [hblock', hrest'] at hpushed
  obtain ⟨top, rest'', htop, -, -⟩ := hpushed.exists_levels
  rw [InlineThread.enterProcedure]
  split
  · refine yieldIfDue ?_ now
    split
    · exact hpushed.modifyTopFrame htop _ rfl rfl
    · exact hpushed
  · split
    · exact hpushed.modifyTopFrame htop _ rfl rfl
    · exact hpushed

/-- A call enters its procedure, or else is left behind. -/
theorem call (h : Stands w target lot (some id :: below) t)
    (hloop : w.isLoop target (some id) = false) (now : Moment) (b : Block) :
    ∃ t', t.call w now b = .ok t' ∧ Stands w target lot
      (Stack.enter w target id below (b.proccode.bind (w.procedureBody? target))) t' := by
  rw [InlineThread.call]
  cases b.proccode with
  | none => exact h.advance_some
  | some code =>
    rw [h.target_eq, Option.bind_some]
    dsimp only
    cases w.procedureBody? target code with
    | none => exact h.advance_some
    | some body => exact ⟨_, rfl, h.enterProcedure hloop now b code body⟩

/-- A thread on a stack that is not over rests there. -/
theorem rests {stack : Stack} (h : Stands w target lot stack t) (hne : stack ≠ []) :
    Rests w target lot stack t := by
  rw [Rests, if_neg hne]
  exact h

theorem rests_enter {body : Option BlockId}
    (h : Stands w target lot (Stack.enter w target id below body) t) :
    Rests w target lot (Stack.enter w target id below body) t := by
  refine h.rests ?_
  cases body <;> exact List.cons_ne_nil _ _

theorem rests_loop {body : Option BlockId} (h : Stands w target lot (Stack.loop id below body) t) :
    Rests w target lot (Stack.loop id below body) t := by
  refine h.rests ?_
  cases body <;> exact List.cons_ne_nil _ _

/-- **Performing a block**, with one case for each command. -/
theorem perform (h : Stands w target lot (some id :: below) t) (hb : w.resolve? target id = some b)
    (now : Moment) :
    ∃ t', t.perform w now b = .ok (Stack.request? w target (some id :: below), t') ∧
      Rests w target lot (Stack.perform w target id b below) t' := by
  have hloop := World.isLoop_some hb
  rw [InlineThread.perform, Stack.request?, Stack.perform, hb, Option.map_some]
  cases hcommand : b.command with
  | stopAll =>
    obtain ⟨t', ht', h'⟩ := h.kill
    exact ⟨t', by rw [ht']; rfl, h'⟩
  | stopOthers =>
    obtain ⟨t', ht', h'⟩ := h.advance_some
    exact ⟨t', by rw [ht', h.target_eq]; rfl, h'.rests (List.cons_ne_nil _ _)⟩
  | stopThis =>
    obtain ⟨t', ht', h'⟩ := h.stopScript
    exact ⟨t', by rw [ht']; rfl, h'⟩
  | forever =>
    rw [hcommand] at hloop
    exact ⟨_, rfl, (h.enterLoop hloop b).rests_loop⟩
  | call =>
    rw [hcommand] at hloop
    obtain ⟨t', ht', h'⟩ := h.call hloop now b
    exact ⟨t', by rw [ht']; rfl, h'.rests_enter⟩
  | plain =>
    rw [hcommand] at hloop
    obtain ⟨t', ht', h'⟩ := h.enterOrAdvance hloop b
    exact ⟨t', by rw [ht']; rfl, h'.rests_enter⟩

/-- **Executing a block**, which may not exist. -/
theorem execute (h : Stands w target lot (some id :: below) t) (now : Moment) :
    ∃ t', t.execute w now id = .ok (Stack.request? w target (some id :: below), t') ∧
      Rests w target lot (Stack.step w target (some id :: below)) t' := by
  obtain rfl := h.target_eq
  rw [InlineThread.execute, Stack.step]
  cases hb : w.resolve? t.target id with
  | none =>
    obtain ⟨t', ht', h'⟩ := h.stopScript
    refine ⟨t', ?_, h'⟩
    rw [ht', Stack.request?, hb]
    rfl
  | some b =>
    have hglow : Stands w t.target lot (some id :: below) { t with blockGlow := some id } :=
      ⟨rfl, h.blocks_eq, h.shape, h.live, h.lot_eq⟩
    exact hglow.perform hb now

/-- Returning to a level that was below the top one. -/
theorem resume {level : InlineLevel} {rest : List InlineLevel}
    (h : Stands w target lot (some id :: below) t) (hlevels : t.levels = level :: rest)
    (hbelow : w.Below target level) (now : Moment) :
    ∃ t', t.resume w now id = .ok t' ∧
      Stands w target lot
        (if w.isLoop target (some id) then Stack.loop id below (w.substack? target id)
          else w.next? target id :: below) t' := by
  obtain ⟨level', rest', hlevels', hblock, rfl⟩ := h.exists_levels
  rw [hlevels] at hlevels'
  obtain ⟨rfl, rfl⟩ := List.cons.inj hlevels'
  have hflag : level.frame.isLoop = w.isLoop target (some id) := by
    rw [← hblock, Bool.eq_iff_iff]
    exact ⟨hbelow.isLoop_of_flag, hbelow.flag_of_isLoop⟩
  have hframe : t.topFrame?.elim false Frame.isLoop = w.isLoop target (some id) := by
    rw [InlineThread.topFrame?, hlevels]
    exact hflag
  rw [InlineThread.resume, hframe, h.target_eq]
  cases w.isLoop target (some id) with
  | false => exact h.advance_some
  | true =>
    refine ⟨_, rfl, yieldIfDue ?_ now⟩
    cases w.substack? target id with
    | none => exact h
    | some body =>
      have hpushed := h.push hlevels hbelow body
      rw [hblock] at hpushed
      exact hpushed

/-- **One step.** A thread follows the machine, whatever the time. -/
theorem stepBlock {stack : Stack} (h : Stands w target lot stack t) (hne : stack ≠ [])
    (now : Moment) :
    ∃ t', t.stepBlock w now = .ok (Stack.request? w target stack, t') ∧
      Rests w target lot (Stack.step w target stack) t' := by
  cases stack with
  | nil => exact absurd rfl hne
  | cons block below =>
    obtain ⟨level, rest, hlevels, rfl, rfl⟩ := h.exists_levels
    have hpeek : t.peek? = level.block := by
      rw [InlineThread.peek?, hlevels]
      rfl
    rw [InlineThread.stepBlock, hpeek]
    cases hblock : level.block with
    | some id =>
      rw [hblock] at h
      exact h.execute now
    | none =>
      obtain ⟨hpop, hpopped⟩ := h.pop hlevels
      -- The level below, if there is one, has a block: the machine's other case does not come up.
      cases rest with
      | nil =>
        obtain ⟨t', ht', h'⟩ := hpopped.stopScript
        refine ⟨t', ?_, h'⟩
        have hpeek' : (t.withLevels []).peek? = none := rfl
        simp only [hpop, bind, Except.bind, hpeek', ht', Except.map]
        rfl
      | cons parent rest =>
        have hbelow := (h.shape_cons hlevels).2 parent List.mem_cons_self
        obtain ⟨id, hparent⟩ := Option.isSome_iff_exists.1 hbelow.isSome_block
        rw [List.map_cons, hparent] at hpopped ⊢
        obtain ⟨t', ht', h'⟩ := hpopped.resume rfl hbelow now
        refine ⟨t', ?_, h'.rests ?_⟩
        · have hpeek' : (t.withLevels (parent :: rest)).peek? = some id := hparent
          simp only [hpop, bind, Except.bind, hpeek', ht', Except.map]
          rfl
        · split
          · cases w.substack? target id <;> exact List.cons_ne_nil _ _
          · exact List.cons_ne_nil _ _

/-- Looking at the clock starts or clears the warp timer, and does nothing else to a thread that
does not yield. -/
theorem yieldIfLate {stack : Stack} (h : Stands w target lot stack t) (now : Moment)
    (deadline : Time) : Stands w target lot stack (t.yieldIfLate w now deadline) := by
  have htime : Stands w target lot stack (t.outOfTime w now deadline).2 := by
    rw [InlineThread.outOfTime]
    split
    · exact h.shouldYield now
    · exact h.withWarpTimer none
  rw [InlineThread.yieldIfLate]
  split
  · dsimp only
    split
    · exact htime.yield
    · exact htime
  · exact h

/-- **One turn**: a step, and the yield that may follow. -/
theorem turn {stack : Stack} (h : Stands w target lot stack t) (hne : stack ≠ [])
    (shown : Reading) (deadline : Time) :
    ∃ t', t.turn w shown deadline = .ok (Stack.request? w target stack, t') ∧
      Rests w target lot (Stack.step w target stack) t' := by
  obtain ⟨t', ht', h'⟩ := h.stepBlock hne shown.step
  refine ⟨t'.yieldIfLate w shown.check deadline, ?_, ?_⟩
  · rw [InlineThread.turn, ht']
    rfl
  · rw [Rests] at h' ⊢
    split at h'
    · -- A thread that is done does not look at the clock.
      have hlate : t'.yieldIfLate w shown.check deadline = t' := by
        rw [InlineThread.yieldIfLate, if_neg (by rw [h'.2.1]; exact Status.noConfusion)]
      rw [if_pos ‹_›, hlate]
      exact h'
    · rw [if_neg ‹_›]
      exact h'.yieldIfLate shown.check deadline

/-- A thread runs again at its next turn. -/
theorem wake {stack : Stack} (h : Stands w target lot stack t) :
    Stands w target lot stack t.wake ∧ t.wake.status = .running := by
  rw [InlineThread.wake]
  rcases h.live with hrunning | hyield
  · have hneg : ¬(t.status = .yield ∨ t.status = .yieldTick) := by
      rw [hrunning]
      rintro (hno | hno) <;> cases hno
    rw [if_neg hneg]
    exact ⟨h, hrunning⟩
  · rw [if_pos (.inl hyield)]
    exact ⟨⟨h.target_eq, h.blocks_eq, h.shape, .inl rfl, h.lot_eq⟩, rfl⟩

/-- A thread at work is interpreted at its turn, if that is its lot. -/
theorem takeTurn_eq {stack : Stack} (h : Stands w target lot stack t) (hlot : lot.Interpreted)
    (deadline : Time) (shown : Readings) (turns : Nat) :
    t.takeTurn w deadline shown turns = InlineThread.slice w deadline shown turns none t.wake :=
  (h.lot_eq ▸ hlot : t.lot.Interpreted).takeTurn_eq w deadline shown turns

end Stands

namespace Rests

variable {w : World} {target : TargetId} {lot : Lot} {stack : Stack} {t : InlineThread}

/-- Where the stack is not over the thread stands on it. -/
theorem stands (h : Rests w target lot stack t) (hne : stack ≠ []) :
    Stands w target lot stack t := by
  rw [Rests, if_neg hne] at h
  exact h

/-- A thread is done just when its stack is empty. -/
theorem status_eq_done_iff (h : Rests w target lot stack t) : t.status = .done ↔ stack = [] := by
  constructor
  · intro hdone
    by_contra hne
    rcases (h.stands hne).live with hlive | hlive <;> rw [hdone] at hlive <;> cases hlive
  · rintro rfl
    rw [Rests, if_pos rfl] at h
    exact h.2.1

/-- A thread stays on its target, done or not. -/
theorem target_eq (h : Rests w target lot stack t) : t.target = target := by
  rw [Rests] at h
  split at h
  · exact h.2.2.1
  · exact h.target_eq

/-- What is fixed about a thread stays so, at rest and at its end. -/
theorem lot_eq (h : Rests w target lot stack t) : t.lot = lot := by
  rw [Rests] at h
  split at h
  · exact h.2.2.2
  · exact h.lot_eq

/-- A thread that runs has something on its stack. -/
theorem ne_nil_of_running (h : Rests w target lot stack t) (hrunning : t.status = .running) :
    stack ≠ [] := by
  intro hnil
  rw [h.status_eq_done_iff.2 hnil] at hrunning
  cases hrunning

/-- The block that a thread comes to next is the top of its stack. -/
theorem peek?_eq (h : Rests w target lot stack t) (hne : stack ≠ []) :
    t.peek? = stack.head?.join := by
  rw [InlineThread.peek?, ← (h.stands hne).blocks_eq]
  cases t.levels <;> rfl

/-- **A slice** makes some number of steps of the machine. -/
theorem exists_of_slice {deadline : Time} {shown : Readings} (turns : Nat) : ∀ {stack : Stack}
    {t t' : InlineThread} {request last : Option StopRequest} {blocks : List BlockId},
    Rests w target lot stack t →
    InlineThread.slice w deadline shown turns request t = .ok (blocks, last, t') →
      ∃ n, blocks = Stack.trace w target n stack ∧
        Rests w target lot (Stack.after w target n stack) t' ∧
        (last = none ↔ request = none ∧ Stack.Quiet w target n stack) ∧
        (t.status = .running → 0 < n) := by
  induction turns generalizing shown with
  | zero =>
    intro stack t t' request last blocks h hslice
    rw [InlineThread.slice] at hslice
    split at hslice
    · cases hslice
    · cases hslice
      exact ⟨0, rfl, h, by simp [Stack.Quiet], fun hrunning ↦ absurd hrunning ‹_›⟩
  | succ turns ih =>
    intro stack t t' request last blocks h hslice
    rw [InlineThread.slice] at hslice
    split at hslice
    · have hne := h.ne_nil_of_running ‹_›
      obtain ⟨t₁, ht₁, h₁⟩ := (h.stands hne).turn hne (shown 0) deadline
      obtain ⟨⟨latest, t₁'⟩, hturn, hslice₁⟩ := exists_of_bind_eq_ok hslice
      obtain ⟨⟨blocks', last', t₂⟩, hrest, hslice₂⟩ := exists_of_bind_eq_ok hslice₁
      rw [ht₁] at hturn
      cases hturn
      cases hslice₂
      obtain ⟨n, hblocks, h₂, hlast, -⟩ := ih h₁ hrest
      refine ⟨n + 1, ?_, h₂, ?_, fun _ ↦ Nat.succ_pos n⟩
      · rw [Stack.trace, h.peek?_eq hne, hblocks]
      · rw [hlast, Option.or_eq_none_iff, Stack.Quiet]
        tauto
    · cases hslice
      exact ⟨0, rfl, h, by simp [Stack.Quiet], fun hrunning ↦ absurd hrunning ‹_›⟩

/-- A slice comes to an end if the machine does within the turns that are granted. -/
theorem slice_of_after_eq_nil {deadline : Time} {shown : Readings} (turns : Nat) :
    ∀ {stack : Stack} {t : InlineThread} (request : Option StopRequest),
      Rests w target lot stack t → Stack.after w target turns stack = [] →
        ∃ r, InlineThread.slice w deadline shown turns request t = .ok r := by
  induction turns generalizing shown with
  | zero =>
    intro stack t request h hend
    have hdone : t.status = .done := h.status_eq_done_iff.2 hend
    rw [InlineThread.slice, if_neg (by rw [hdone]; exact Status.noConfusion)]
    exact ⟨_, rfl⟩
  | succ turns ih =>
    intro stack t request h hend
    rw [InlineThread.slice]
    split
    · have hne := h.ne_nil_of_running ‹_›
      obtain ⟨t₁, ht₁, h₁⟩ := (h.stands hne).turn hne (shown 0) deadline
      obtain ⟨r, hr⟩ := ih ((Stack.request? w target stack).or request) h₁ hend
      rw [ht₁]
      show ∃ r, (InlineThread.slice w deadline shown.later turns _ t₁ >>= _) = .ok r
      rw [hr]
      exact ⟨_, rfl⟩
    · exact ⟨_, rfl⟩

/-! ### A whole turn -/

/-- A thread at its end has no levels. -/
theorem levels_eq_nil (h : Rests w target lot [] t) : t.levels = [] := by
  rw [Rests, if_pos rfl] at h
  exact h.1

/-- Waking a thread does not move it. -/
theorem wake (h : Rests w target lot stack t) : Rests w target lot stack t.wake := by
  by_cases hnil : stack = []
  · have hdone := h.status_eq_done_iff.2 hnil
    have hwake : t.wake = t := by
      rw [InlineThread.wake, if_neg]
      rw [hdone]
      rintro (hno | hno) <;> cases hno
    rw [hwake]
    exact h
  · exact (h.stands hnil).wake.1.rests hnil

/-- Stopping a script is possible wherever the thread rests. -/
theorem stopScript (h : Rests w target lot stack t) :
    ∃ t', t.stopScript w = .ok t' ∧ Rests w target lot (Stack.unwind w target stack) t' := by
  by_cases hnil : stack = []
  · subst hnil
    have hlevels := h.levels_eq_nil
    refine ⟨t.settle, ?_, ?_⟩
    · rw [InlineThread.stopScript, InlineThread.depth, hlevels]
      rfl
    · rw [Stack.unwind, Rests, if_pos rfl, InlineThread.settle, hlevels]
      exact ⟨rfl, rfl, h.target_eq, h.lot_eq⟩
  · exact (h.stands hnil).stopScript

/-- And so is ending it. -/
theorem kill (h : Rests w target lot stack t) :
    ∃ t', t.kill w = .ok t' ∧ Rests w target lot [] t' := by
  by_cases hnil : stack = []
  · subst hnil
    obtain ⟨t', ht', h'⟩ := h.stopScript
    refine ⟨t', ?_, h'⟩
    rw [InlineThread.kill, InlineThread.depth, h.levels_eq_nil]
    exact ht'
  · exact (h.stands hnil).kill

/-- The turn of an interpreted thread ends if the machine does within the turns that are granted. -/
theorem takeTurn_of_after_eq_nil {deadline : Time} {shown : Readings} {turns : Nat}
    (h : Rests w target lot stack t) (hlot : lot.Interpreted) (hne : stack ≠ [])
    (hend : Stack.after w target turns stack = []) :
    ∃ result, t.takeTurn w deadline shown turns = .ok result := by
  rw [(h.stands hne).takeTurn_eq hlot]
  exact slice_of_after_eq_nil turns none h.wake hend

/-- Whatever its lot, a thread has a stack again after its turn. -/
theorem exists_of_takeTurn {deadline : Time} {shown : Readings} {turns : Nat}
    {blocks : List BlockId} {request : Option StopRequest} {t' : InlineThread}
    (h : Rests w target lot stack t)
    (hturn : t.takeTurn w deadline shown turns = .ok (blocks, request, t')) :
    ∃ stack', Rests w target lot stack' t' := by
  rw [InlineThread.takeTurn] at hturn
  split at hturn
  · obtain ⟨t₁, hkill, h₁⟩ := h.kill
    rw [hkill] at hturn
    cases hturn
    exact ⟨_, h₁⟩
  · split at hturn
    · obtain ⟨t₁, hstop, h₁⟩ := h.wake.stopScript
      rw [hstop] at hturn
      cases hturn
      exact ⟨_, h₁⟩
    · obtain ⟨n, -, h', -, -⟩ := exists_of_slice turns h.wake hturn
      exact ⟨_, h'⟩

/-- A turn does not change a thread's lot. -/
theorem lot_of_takeTurn {deadline : Time} {shown : Readings} {turns : Nat} {blocks : List BlockId}
    {request : Option StopRequest} {t' : InlineThread} (h : Rests w target lot stack t)
    (hturn : t.takeTurn w deadline shown turns = .ok (blocks, request, t')) : t'.lot = t.lot := by
  obtain ⟨stack', h'⟩ := h.exists_of_takeTurn hturn
  rw [h'.lot_eq, h.lot_eq]

end Rests

/-! ### Frame after frame -/

/-- What a thread is given in a frame. -/
structure Spell where
  /-- When the frame begins. -/
  began : Time
  /-- What the clock shows in the thread's turn. -/
  shown : Readings
  /-- How many steps it may make. -/
  turns : Nat

/-- A thread's life, a spell for every frame, until it is done: the blocks that it comes to, and
what it asks of the other threads at the end of each turn. -/
def InlineThread.frames (w : World) : List Spell → InlineThread →
    Except Halt (List BlockId × List StopRequest × InlineThread)
  | [], t => .ok ([], [], t)
  | spell :: spells, t =>
    if t.status = .done then .ok ([], [], t)
    else do
      let (blocks, request, t) ←
        t.takeTurn w (spell.began + w.settings.workTime) spell.shown spell.turns
      let (further, requests, t) ← frames w spells t
      return (blocks ++ further, request.toList ++ requests, t)

/-- A thread that is done has nothing to live through. -/
theorem InlineThread.frames_of_done {w : World} {t : InlineThread} (h : t.status = .done)
    {spells : List Spell} : t.frames w spells = .ok ([], [], t) := by
  cases spells with
  | nil => rfl
  | cons spell spells => rw [InlineThread.frames, if_pos h]

namespace Rests

variable {w : World} {target : TargetId} {lot : Lot}

/-- **A thread's life** makes some number of steps of the machine, one at least in every frame until
the machine is at its end. -/
theorem exists_of_frames (spells : List Spell) : ∀ {stack : Stack} {t t' : InlineThread}
    {blocks : List BlockId} {requests : List StopRequest}, lot.Interpreted →
    Rests w target lot stack t → t.frames w spells = .ok (blocks, requests, t') →
      ∃ n, blocks = Stack.trace w target n stack ∧
        Rests w target lot (Stack.after w target n stack) t' ∧
        (requests = [] ↔ Stack.Quiet w target n stack) ∧
        (spells.length ≤ n ∨ Stack.after w target n stack = []) := by
  induction spells with
  | nil =>
    intro stack t t' blocks requests hlot h hframes
    cases hframes
    exact ⟨0, rfl, h, by simp [Stack.Quiet], .inl (Nat.le_refl 0)⟩
  | cons spell spells ih =>
    intro stack t t' blocks requests hlot h hframes
    rw [InlineThread.frames] at hframes
    split at hframes
    · rename_i hdone
      cases hframes
      exact ⟨0, rfl, h, by simp [Stack.Quiet], .inr (h.status_eq_done_iff.1 hdone)⟩
    · rename_i hdone
      have hne : stack ≠ [] := fun hnil ↦ hdone (h.status_eq_done_iff.2 hnil)
      have hstands := h.stands hne
      obtain ⟨⟨blocks₁, request, t₁⟩, hturn, hframes₁⟩ := exists_of_bind_eq_ok hframes
      obtain ⟨⟨blocks₂, requests₂, t₂⟩, hrest, hframes₂⟩ := exists_of_bind_eq_ok hframes₁
      cases hframes₂
      rw [hstands.takeTurn_eq hlot] at hturn
      obtain ⟨n, rfl, h₁, hrequest, hpos⟩ :=
        exists_of_slice spell.turns (hstands.wake.1.rests hne) hturn
      obtain ⟨m, rfl, h₂, hrequests, hlong⟩ := ih hlot h₁ hrest
      refine ⟨n + m, ?_, ?_, ?_, ?_⟩
      · rw [Stack.trace_add]
      · rw [Stack.after_add]
        exact h₂
      · rw [List.append_eq_nil_iff, hrequests, Stack.quiet_add, Option.toList_eq_nil_iff, hrequest]
        tauto
      · rw [Stack.after_add, List.length_cons]
        -- The step that every frame makes is what bounds the number of frames.
        have hfirst := hpos hstands.wake.2
        exact hlong.imp_left fun hle ↦ by omega

end Rests

end BlockScript
