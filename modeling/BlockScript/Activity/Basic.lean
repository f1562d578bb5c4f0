import BlockScript.Engine
import BlockScript.Thread.Basic

/-!
# A thread at work on an engine

The operations on a thread's stack. Each takes the engine and the thread together, since the frames
of the thread's levels are cells of the engine's pool, and each keeps three things in step: a level
of the stack, its frame, and, where pushing it switched the target, the target to return to.

An operation that its caller had no right to gives a `Halt` instead of a result.
-/

namespace BlockScript

/-- A thread and the engine it works on. -/
structure Activity where
  /-- The engine. -/
  engine : Engine
  /-- The thread. -/
  thread : Thread
deriving DecidableEq

namespace Activity

/-- Records an event. -/
def note (a : Activity) (event : Event) : Activity :=
  { a with engine := a.engine.note event }

/-- Puts another pool in place. -/
def withPool (a : Activity) (pool : Pool) : Activity :=
  { a with engine := { a.engine with pool } }

/-- Puts another stack in place. -/
def withLevels (a : Activity) (levels : List Level) : Activity :=
  { a with thread := { a.thread with levels } }

/-- Sets the status. -/
def withStatus (a : Activity) (status : Status) : Activity :=
  { a with thread := { a.thread with status } }

/-- Sets or clears the warp timer. -/
def withWarpTimer (a : Activity) (warpTimer : Option Time) : Activity :=
  { a with thread := { a.thread with warpTimer } }

@[simp]
theorem thread_withPool (a : Activity) (pool : Pool) : (a.withPool pool).thread = a.thread :=
  rfl

@[simp]
theorem pool_withPool (a : Activity) (pool : Pool) : (a.withPool pool).engine.pool = pool :=
  rfl

/-- The blocks of the target that the thread is on. -/
def graph? (a : Activity) : Option Graph :=
  a.engine.graph? a.thread.target

/-! ### Frames -/

/-- The frame of the top level. -/
def topFrame? (a : Activity) : Except Halt (Option Frame) :=
  match a.thread.levels with
  | [] => .ok none
  | level :: _ => (a.engine.pool.get level.frame).map some

/-- The frame of the level below the top one. -/
def parentFrame? (a : Activity) : Except Halt (Option Frame) :=
  match a.thread.levels with
  | _ :: level :: _ => (a.engine.pool.get level.frame).map some
  | _ => .ok none

/-- Changes the frame of the top level, if there is one. -/
def modifyTopFrame (a : Activity) (change : Frame → Frame) : Except Halt Activity :=
  match a.thread.levels with
  | [] => .ok a
  | level :: _ => (a.engine.pool.modify level.frame change).map a.withPool

/-- Whether the top level is in warp mode. -/
def inWarpMode (a : Activity) : Except Halt Bool :=
  a.topFrame?.map fun frame ↦ frame.elim false Frame.warpMode

/-! ### Targets -/

/-- Turns to another target. -/
def pushTarget (a : Activity) (target : TargetId) : Activity :=
  let old := a.thread.target
  { a.note (.switched old target) with
    thread := { a.thread with target, targetStack := old :: a.thread.targetStack } }

/-- Turns back to the target before the last switch. -/
def popTarget (a : Activity) : Except Halt Activity :=
  match a.thread.targetStack with
  | [] => .error .noTargetToRestore
  | target :: targetStack => .ok
      { a.note (.restored a.thread.target target) with
        thread := { a.thread with target, targetStack } }

/-! ### Levels -/

/-- Turns to a level's target if it is another one, and tells whether it was. -/
def turnTo (a : Activity) : Option TargetId → Activity × Bool
  | none => (a, false)
  | some target => if target = a.thread.target then (a, false) else (a.pushTarget target, true)

/-- Pushes a block, on another target if one is given. The new level inherits the mode of the level
below it. -/
def push (a : Activity) (block : BlockId) (target : Option TargetId) : Except Halt Activity := do
  let (a, switched) := a.turnTo target
  let warpMode ← a.inWarpMode
  let (frame, pool) ← a.engine.pool.create warpMode
  let a := (a.withPool pool).note (.pushed block a.thread.depth)
  return a.withLevels (⟨some block, frame, switched⟩ :: a.thread.levels)

/-- Puts the next block in place of the top level's, whose frame is renewed. -/
def reuse (a : Activity) (block : Option BlockId) : Except Halt Activity :=
  match a.thread.levels with
  | [] => .error .emptyStack
  | level :: rest => do
    let pool ← a.engine.pool.modify level.frame Frame.renewed
    return (a.withPool pool).withLevels ({ level with block } :: rest)

/-- Pops the top level, if there is one: its frame goes back to the pool, and the target that it
switched away from is restored. Gives the block that was at work. -/
def pop (a : Activity) : Except Halt (Option BlockId × Activity) :=
  match a.thread.levels with
  | [] => .ok (none, a)
  | level :: rest => do
    let a := (a.withLevels rest).note (.popped level.block rest.length)
    let pool ← a.engine.pool.release level.frame
    let a := a.withPool pool
    let a ← if level.switched then a.popTarget else .ok a
    return (level.block, a)

/-- The block after the top level's in the graph of the thread's target. -/
def nextBlock? (a : Activity) : Option BlockId :=
  a.thread.peek?.bind fun id ↦ a.graph?.bind fun g ↦ g.next? id

/-- Moves the top level on to the next block of its sequence. -/
def advance (a : Activity) : Except Halt Activity :=
  a.reuse a.nextBlock?

/-! ### Unwinding -/

/-- Whether the block of a level is a call for its effect, in the graph of the thread's target. -/
def isCall (a : Activity) (level : Level) : Bool :=
  ((level.block.bind fun id ↦ a.graph?.bind fun g ↦ g.get? id).map Block.opcode) ==
    some Block.callOpcode

/-- Pops levels until one waits for a reporter, which stays as it is, or is a procedure call, which
counts as finished and moves on. Each round pops one level, so as many rounds as there are levels
suffice. -/
def unwind : Nat → Activity → Except Halt Activity
  | 0, a => .ok a
  | rounds + 1, a =>
    match a.thread.levels with
    | [] => .ok a
    | level :: _ => do
      let frame ← a.engine.pool.get level.frame
      if frame.waitingReporter then return a
      else if a.isCall level then a.advance
      else do
        let (_, a) ← a.pop
        unwind rounds a

/-- A thread without levels is done, and its script is no longer highlighted. -/
def settle (a : Activity) : Activity :=
  match a.thread.levels with
  | [] => { a with thread := { a.thread with scriptGlow := false, status := .done } }
  | _ :: _ => a

/-- Stops the innermost script: the procedure at work, or else the whole thread. -/
def stopScript (a : Activity) : Except Halt Activity :=
  (unwind a.thread.depth a).map settle

/-- Pops every level, in as many rounds as there are levels. -/
def unwindAll : Nat → Activity → Except Halt Activity
  | 0, a => .ok a
  | rounds + 1, a => do
    let (_, a) ← a.pop
    unwindAll rounds a

/-- Ends the thread, whatever procedures are at work. -/
def kill (a : Activity) : Except Halt Activity := do
  let a ← unwindAll a.thread.depth a
  a.stopScript

/-! ### Reported values and parameters -/

/-- Sets the value reported last. -/
def report (a : Activity) (value : Option Value) : Activity :=
  { a with thread := { a.thread with justReported := value } }

/-- Gives the top level parameters, unless it has them already. -/
def initParams (a : Activity) : Except Halt Activity :=
  a.modifyTopFrame fun frame ↦ { frame with params := some (frame.params.getD Table.empty) }

/-- Sets a parameter of the top level, which must have been given parameters. -/
def setParam (a : Activity) (name : String) (value : Value) : Except Halt Activity := do
  match ← a.topFrame? with
  | none => return a
  | some frame =>
    match frame.params with
    | none => throw .noParams
    | some params =>
      a.modifyTopFrame fun frame ↦ { frame with params := some (params.insert name value) }

/-- The parameters of the innermost of these levels that has any. -/
def nearestParams? (pool : Pool) : List Level → Except Halt (Option (Table Value))
  | [] => .ok none
  | level :: rest => do
    let frame ← pool.get level.frame
    match frame.params with
    | some params => return some params
    | none => nearestParams? pool rest

/-- A parameter, as seen from the top level: the nearest level **below** it that has parameters
decides, even when it lacks this one. -/
def param? (a : Activity) (name : String) : Except Halt (Option Value) := do
  let params ← nearestParams? a.engine.pool (a.thread.levels.drop 1)
  return params.bind fun params ↦ params.get? name

end Activity

end BlockScript
