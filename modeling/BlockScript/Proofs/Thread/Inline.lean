import BlockScript.Activity.Slice

/-!
# Threads that keep their frames to themselves

An `InlineThread` is a thread whose levels hold their frames, where a `Thread`'s levels hold
positions in a pool. There is nothing else to share, so an operation on an inline thread is a
function of the thread alone and of the `World`, the settings and targets that threads only read.

Every operation of `Activity` has its counterpart here under the same name. They differ in what can
go wrong: reading, writing, taking and giving back a frame cannot fail any more, and what is left of
the failures is what a caller did wrong (`Halt.IsMisuse`).

That the counterparts agree with the operations on pooled frames is the subject of
`BlockScript.Proofs.Activity.Refinement`.
-/

namespace BlockScript

/-- The failures that a caller of a thread's operations is to blame for. -/
inductive Halt.IsMisuse : Halt → Prop
  /-- The block of a level was to be replaced, and there was no level. -/
  | emptyStack : IsMisuse .emptyStack
  /-- A target was to be restored, and none was switched away from. -/
  | noTargetToRestore : IsMisuse .noTargetToRestore
  /-- A parameter was written to a level without parameters. -/
  | noParams : IsMisuse .noParams

/-- Whether every failure of a computation is the caller's fault. -/
def Halt.OnlyMisuse {α : Type} (x : Except Halt α) : Prop :=
  ∀ cause, x = .error cause → cause.IsMisuse

/-- What threads only read. -/
structure World where
  /-- The settings. -/
  settings : Settings
  /-- The targets in order. -/
  targets : List Target
deriving DecidableEq

namespace World

/-- The same targets under other settings. -/
def under (w : World) (settings : Settings) : World :=
  { w with settings }

/-- The blocks of the target at a position. -/
def graph? (w : World) (target : TargetId) : Option Graph :=
  (w.targets[target.index]?).map Target.blocks

/-- A block, looked up in one target first and then in every target in order. -/
def resolve? (w : World) (preferred : TargetId) (id : BlockId) : Option Block :=
  ((w.graph? preferred).bind fun g ↦ g.get? id).or
    (w.targets.findSome? fun target ↦ target.blocks.get? id)

/-- The first of the blocks that a control block encloses. -/
def substack? (w : World) (target : TargetId) (id : BlockId) : Option BlockId :=
  (w.resolve? target id).bind Block.substack?

/-- The first block of the body of a procedure, as one target defines it. -/
def procedureBody? (w : World) (target : TargetId) (code : String) : Option BlockId :=
  (w.graph? target).bind fun g ↦ g.procedureBody? code

end World

/-- What the threads of an engine only read. -/
def Engine.world (e : Engine) : World :=
  ⟨e.settings, e.targets⟩

@[simp] theorem Engine.resolve?_world (e : Engine) : e.world.resolve? = e.resolve? := rfl

/-- A level that holds its frame. -/
structure InlineLevel where
  /-- The block at work; none once its sequence is over. -/
  block : Option BlockId
  /-- Its frame. -/
  frame : Frame
  /-- Whether pushing the level switched the target. -/
  switched : Bool
deriving DecidableEq

/-- A thread whose levels hold their frames. The fields are those of `Thread`. -/
structure InlineThread where
  /-- The block that the script starts with. -/
  topBlock : BlockId
  /-- The stack, innermost level first. -/
  levels : List InlineLevel := []
  /-- The target it is on. -/
  target : TargetId
  /-- The targets it will return to, the next one first. -/
  targetStack : List TargetId := []
  /-- What it is doing. -/
  status : Status := .running
  /-- Whether it is to be unwound at its next turn. -/
  killed : Bool := false
  /-- What came of compiling it. -/
  compilation : Compilation := .pending
  /-- Whether the script is to be highlighted. -/
  scriptGlow : Bool := false
  /-- The block to be highlighted. -/
  blockGlow : Option BlockId := none
  /-- When its stretch in warp mode began. -/
  warpTimer : Option Time := none
  /-- The value reported last. -/
  justReported : Option Value := none
deriving DecidableEq

namespace InlineThread

/-! ### Asking -/

/-- The number of levels. -/
def depth (t : InlineThread) : Nat :=
  t.levels.length

/-- The block at work at the top level. -/
def peek? (t : InlineThread) : Option BlockId :=
  t.levels.head?.bind InlineLevel.block

/-- The frame of the top level. -/
def topFrame? (t : InlineThread) : Option Frame :=
  t.levels.head?.map InlineLevel.frame

/-- The frame of the level below the top one. -/
def parentFrame? (t : InlineThread) : Option Frame :=
  t.levels.tail.head?.map InlineLevel.frame

/-- Whether the top level is in warp mode. -/
def inWarpMode (t : InlineThread) : Bool :=
  t.topFrame?.elim false Frame.warpMode

/-- A parameter, as seen from the top level. -/
def param? (t : InlineThread) (name : String) : Option Value :=
  (t.levels.tail.findSome? fun level ↦ level.frame.params).bind fun params ↦ params.get? name

/-- The blocks of the enclosing levels, each behind the reporter that its level waits for. -/
def enclosing (t : InlineThread) : List (Option BlockId) :=
  t.levels.tail.flatMap fun level ↦
    (if level.frame.waitingReporter then [level.frame.reporting] else []) ++ [level.block]

/-- Whether a call of the procedure would recurse, as far as the enclosing levels tell. -/
def isRecursiveCall (w : World) (t : InlineThread) (code : String) : Bool :=
  Activity.anyCalls (w.resolve? t.target) code (t.enclosing.take Activity.maxEnclosingCalls)

/-! ### The operations -/

/-- Puts another stack in place. -/
def withLevels (t : InlineThread) (levels : List InlineLevel) : InlineThread :=
  { t with levels }

/-- Changes the frame of the top level, if there is one. -/
def modifyTopFrame (t : InlineThread) (change : Frame → Frame) : InlineThread :=
  t.withLevels (t.levels.modifyHead fun level ↦ { level with frame := change level.frame })

/-- Turns to another target. -/
def pushTarget (t : InlineThread) (target : TargetId) : InlineThread :=
  { t with target, targetStack := t.target :: t.targetStack }

/-- Turns back to the target before the last switch. -/
def popTarget (t : InlineThread) : Except Halt InlineThread :=
  match t.targetStack with
  | [] => .error .noTargetToRestore
  | target :: targetStack => .ok { t with target, targetStack }

/-- Turns to a level's target if it is another one, and tells whether it was. -/
def turnTo (t : InlineThread) : Option TargetId → InlineThread × Bool
  | none => (t, false)
  | some target => if target = t.target then (t, false) else (t.pushTarget target, true)

/-- Pushes a block, on another target if one is given. -/
def push (t : InlineThread) (block : BlockId) (target : Option TargetId) : InlineThread :=
  let (t, switched) := t.turnTo target
  t.withLevels (⟨some block, Frame.ofMode t.inWarpMode, switched⟩ :: t.levels)

/-- Puts the next block in place of the top level's, whose frame is renewed. -/
def reuse (t : InlineThread) (block : Option BlockId) : Except Halt InlineThread :=
  match t.levels with
  | [] => .error .emptyStack
  | level :: rest => .ok (t.withLevels (⟨block, level.frame.renewed, level.switched⟩ :: rest))

/-- Pops the top level, if there is one, and gives the block that was at work. -/
def pop (t : InlineThread) : Except Halt (Option BlockId × InlineThread) :=
  match t.levels with
  | [] => .ok (none, t)
  | level :: rest => do
    let t := t.withLevels rest
    let t ← if level.switched then t.popTarget else .ok t
    return (level.block, t)

/-- The block after the top level's in the graph of the thread's target. -/
def nextBlock? (w : World) (t : InlineThread) : Option BlockId :=
  t.peek?.bind fun id ↦ (w.graph? t.target).bind fun g ↦ g.next? id

/-- Moves the top level on to the next block of its sequence. -/
def advance (w : World) (t : InlineThread) : Except Halt InlineThread :=
  t.reuse (t.nextBlock? w)

/-- Whether the block of a level is a call for its effect, in the graph of the thread's target. -/
def isCall (w : World) (t : InlineThread) (level : InlineLevel) : Bool :=
  ((level.block.bind fun id ↦ (w.graph? t.target).bind fun g ↦ g.get? id).map Block.opcode) ==
    some Block.callOpcode

/-- Pops levels until one waits for a reporter or is a procedure call, which moves on. -/
def unwind (w : World) : Nat → InlineThread → Except Halt InlineThread
  | 0, t => .ok t
  | rounds + 1, t =>
    match t.levels with
    | [] => .ok t
    | level :: _ =>
      if level.frame.waitingReporter then .ok t
      else if t.isCall w level then t.advance w
      else do
        let (_, t) ← t.pop
        unwind w rounds t

/-- A thread without levels is done. -/
def settle (t : InlineThread) : InlineThread :=
  match t.levels with
  | [] => { t with scriptGlow := false, status := .done }
  | _ :: _ => t

/-- Stops the innermost script. -/
def stopScript (w : World) (t : InlineThread) : Except Halt InlineThread :=
  (unwind w t.depth t).map settle

/-- Pops every level, in as many rounds as there are levels. -/
def unwindAll : Nat → InlineThread → Except Halt InlineThread
  | 0, t => .ok t
  | rounds + 1, t => do
    let (_, t) ← t.pop
    unwindAll rounds t

/-- Ends the thread, whatever procedures are at work. -/
def kill (w : World) (t : InlineThread) : Except Halt InlineThread := do
  let t ← unwindAll t.depth t
  t.stopScript w

/-- Gives the top level parameters, unless it has them already. -/
def initParams (t : InlineThread) : InlineThread :=
  t.modifyTopFrame fun frame ↦ { frame with params := some (frame.params.getD Table.empty) }

/-- Sets a parameter of the top level, which must have been given parameters. -/
def setParam (t : InlineThread) (name : String) (value : Value) : Except Halt InlineThread :=
  match t.topFrame? with
  | none => .ok t
  | some frame =>
    match frame.params with
    | none => .error .noParams
    | some params =>
      .ok (t.modifyTopFrame fun frame ↦ { frame with params := some (params.insert name value) })

/-! ### Executing blocks -/

/-- Sets the status. -/
def withStatus (t : InlineThread) (status : Status) : InlineThread :=
  { t with status }

/-- Sets or clears the warp timer. -/
def withWarpTimer (t : InlineThread) (warpTimer : Option Time) : InlineThread :=
  { t with warpTimer }

/-- Whether a thread has to yield. -/
def shouldYield (w : World) (t : InlineThread) (now : Moment) : Bool × InlineThread :=
  if t.inWarpMode then
    let began := t.warpTimer.getD now.asked
    (decide (w.settings.warpTime ≤ now.answered - began), t.withWarpTimer (some began))
  else (true, t)

/-- Yields, which ends a stretch in warp mode. -/
def yield (t : InlineThread) : InlineThread :=
  (t.withWarpTimer none).withStatus .yield

/-- Yields if it has to. -/
def yieldIfDue (w : World) (t : InlineThread) (now : Moment) : InlineThread :=
  let (due, t) := t.shouldYield w now
  if due then t.yield else t

/-- Enters the enclosed blocks, or moves on when there are none. -/
def enterOrAdvance (w : World) (t : InlineThread) (b : Block) : Except Halt InlineThread :=
  match b.substack? with
  | some body => .ok (t.push body none)
  | none => t.advance w

/-- Makes the level a loop and enters its body; a loop without a body waits for its next turn. -/
def enterLoop (t : InlineThread) (b : Block) : InlineThread :=
  let t := t.modifyTopFrame fun frame ↦ { frame with isLoop := true }
  match b.substack? with
  | some body => t.push body none
  | none => t.withStatus .yield

/-- Enters a procedure with the given body. -/
def enterProcedure (w : World) (t : InlineThread) (now : Moment) (b : Block) (code : String)
    (body : BlockId) : InlineThread :=
  let recursive := t.isRecursiveCall w code
  let t := t.initParams.push body none
  let t := if b.isWarp then t.modifyTopFrame fun frame ↦ { frame with warpMode := true } else t
  if recursive then t.yieldIfDue w now else t

/-- Calls a procedure. -/
def call (w : World) (t : InlineThread) (now : Moment) (b : Block) : Except Halt InlineThread :=
  match b.proccode with
  | none => t.advance w
  | some code =>
    match w.procedureBody? t.target code with
    | none => t.advance w
    | some body => .ok (t.enterProcedure w now b code body)

/-- Carries a block's command out. -/
def perform (w : World) (t : InlineThread) (now : Moment) (b : Block) :
    Except Halt (Option StopRequest × InlineThread) :=
  match b.command with
  | .stopAll => (t.kill w).map fun t ↦ (some .all, t)
  | .stopOthers => (t.advance w).map fun stepped ↦ (some (.others t.target), stepped)
  | .stopThis => (t.stopScript w).map fun t ↦ (none, t)
  | .forever => .ok (none, t.enterLoop b)
  | .call => (t.call w now b).map fun t ↦ (none, t)
  | .plain => (t.enterOrAdvance w b).map fun t ↦ (none, t)

/-- Executes a block. -/
def execute (w : World) (t : InlineThread) (now : Moment) (id : BlockId) :
    Except Halt (Option StopRequest × InlineThread) :=
  match w.resolve? t.target id with
  | none => (t.stopScript w).map fun t ↦ (none, t)
  | some b => perform w { t with blockGlow := some id } now b

/-- Returns to the level that a finished sequence leaves on top. -/
def resume (w : World) (t : InlineThread) (now : Moment) (parent : BlockId) :
    Except Halt InlineThread :=
  if t.topFrame?.elim false Frame.isLoop then
    let t := match w.substack? t.target parent with
      | some body => t.push body none
      | none => t
    .ok (t.yieldIfDue w now)
  else t.advance w

/-- One step of a thread. -/
def stepBlock (w : World) (t : InlineThread) (now : Moment) :
    Except Halt (Option StopRequest × InlineThread) :=
  match t.peek? with
  | some id => t.execute w now id
  | none => do
    let (_, t) ← t.pop
    match t.peek? with
    | none => (t.stopScript w).map fun t ↦ (none, t)
    | some parent => (t.resume w now parent).map fun t ↦ (none, t)

/-- Whether time is up. -/
def outOfTime (w : World) (t : InlineThread) (now : Moment) (deadline : Time) :
    Bool × InlineThread :=
  if t.inWarpMode then t.shouldYield w now
  else (decide (deadline ≤ now.answered), t.withWarpTimer none)

/-- Yields if it still runs and time is up. -/
def yieldIfLate (w : World) (t : InlineThread) (now : Moment) (deadline : Time) : InlineThread :=
  if t.status = .running then
    let (late, t) := t.outOfTime w now deadline
    if late then t.yield else t
  else t

/-- One turn: a step, after which the thread yields if it still runs and time is up. -/
def turn (w : World) (t : InlineThread) (shown : Reading) (deadline : Time) :
    Except Halt (Option StopRequest × InlineThread) := do
  let (request, t) ← t.stepBlock w shown.step
  return (request, t.yieldIfLate w shown.check deadline)

/-! ### What can go wrong -/

section OnlyMisuse

open Halt

theorem onlyMisuse_ok {α : Type} (a : α) : OnlyMisuse (.ok a) := by
  rintro cause ⟨⟩

theorem onlyMisuse_map {α β : Type} {x : Except Halt α} {f : α → β} (h : OnlyMisuse x) :
    OnlyMisuse (x.map f) := by
  rintro cause hcause
  cases x with
  | ok a => cases hcause
  | error cause' => exact h cause (by cases hcause; rfl)

/-- What only misuse makes fail can be gone on with. -/
theorem onlyMisuse_bind {α β : Type} {x : Except Halt α} {f : α → Except Halt β}
    (h : OnlyMisuse x) (hf : ∀ a, OnlyMisuse (f a)) : OnlyMisuse (x >>= f) := by
  rintro cause hcause
  cases x with
  | ok a => exact hf a cause hcause
  | error cause' => exact h cause (by cases hcause; rfl)

/-- Switching back fails where there is nothing to switch back to. -/
theorem onlyMisuse_popTarget (t : InlineThread) : OnlyMisuse t.popTarget := by
  intro cause hcause
  rw [popTarget] at hcause
  split at hcause
  · cases hcause
    exact .noTargetToRestore
  · cases hcause

/-- Using a level again fails where there is none. -/
theorem onlyMisuse_reuse (t : InlineThread) (block : Option BlockId) :
    OnlyMisuse (t.reuse block) := by
  intro cause hcause
  rw [reuse] at hcause
  split at hcause
  · cases hcause
    exact .emptyStack
  · cases hcause

/-- Leaving a level fails where its target cannot be left. -/
theorem onlyMisuse_pop (t : InlineThread) : OnlyMisuse t.pop := by
  rw [pop]
  split
  · exact onlyMisuse_ok _
  · next level rest _ =>
    show OnlyMisuse (if level.switched then (t.withLevels rest).popTarget >>= _ else _)
    split
    · exact onlyMisuse_bind (onlyMisuse_popTarget _) fun _ ↦ onlyMisuse_ok _
    · exact onlyMisuse_ok _

/-- Unwinding a script fails for no other reason. -/
theorem onlyMisuse_unwind (w : World) (rounds : Nat) :
    ∀ t : InlineThread, OnlyMisuse (unwind w rounds t) := by
  induction rounds with
  | zero => exact fun t ↦ onlyMisuse_ok t
  | succ rounds ih =>
    intro t
    rw [unwind]
    split
    · exact onlyMisuse_ok _
    · split
      · exact onlyMisuse_ok _
      · split
        · exact onlyMisuse_reuse _ _
        · exact onlyMisuse_bind (onlyMisuse_pop t) fun x ↦ ih x.2

theorem onlyMisuse_stopScript (w : World) (t : InlineThread) : OnlyMisuse (t.stopScript w) :=
  onlyMisuse_map (onlyMisuse_unwind w _ t)

/-- Setting an argument fails where the top frame takes none. -/
theorem onlyMisuse_setParam (t : InlineThread) (name : String) (value : Value) :
    OnlyMisuse (t.setParam name value) := by
  intro cause hcause
  rw [setParam] at hcause
  split at hcause
  · cases hcause
  · split at hcause
    · cases hcause
      exact .noParams
    · cases hcause

end OnlyMisuse

end InlineThread

end BlockScript
