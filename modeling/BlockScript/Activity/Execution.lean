import BlockScript.Activity.Recursion

/-!
# Executing blocks

What the block at work does to its thread. Only blocks that direct the course of a script have a
meaning here (`Command`); every other block just enters the blocks it encloses, or moves on when it
encloses none.

Time enters through the argument `now`. It decides one thing only: whether a thread in warp mode has
used up its stretch (`Activity.shouldYield`). The clock is not at rest while that is asked, so `now`
is a `Moment` and not a time.
-/

namespace BlockScript

/-- What a block asks of the threads other than its own. -/
inductive StopRequest where
  /-- That all of them end. -/
  | all
  /-- That those on this target end. -/
  | others (target : TargetId)
deriving DecidableEq, Repr

/-- What a block directs its thread to do. -/
inductive Command where
  /-- End every script. -/
  | stopAll
  /-- End the other scripts on the target, and move on. -/
  | stopOthers
  /-- End this script. -/
  | stopThis
  /-- Run the enclosed blocks again and again. -/
  | forever
  /-- Run a procedure. -/
  | call
  /-- Run the enclosed blocks once, or move on. -/
  | plain
deriving DecidableEq, Repr

namespace Block

/-- The opcode of the blocks that end scripts. -/
def stopOpcode : String :=
  "control_stop"

/-- The opcode of the endless loop. -/
def foreverOpcode : String :=
  "control_forever"

/-- The field that says what a stop block ends. -/
def stopField : String :=
  "STOP_OPTION"

/-- What a stop block ends: everything, the other scripts, or else this script. -/
def stopCommand (b : Block) : Command :=
  match (b.fields.get? stopField).map fun field ↦ field.value.toText with
  | some "all" => .stopAll
  | some "other scripts in sprite" => .stopOthers
  | some "other scripts in stage" => .stopOthers
  | _ => .stopThis

/-- What a block directs its thread to do. -/
def command (b : Block) : Command :=
  if b.opcode = stopOpcode then b.stopCommand
  else if b.opcode = foreverOpcode then .forever
  else if b.opcode = callOpcode then .call
  else .plain

end Block

/-- The moment of a question about time. -/
structure Moment where
  /-- When it is asked. A stretch in warp mode that begins with the question begins now. -/
  asked : Time
  /-- When it is answered. -/
  answered : Time
deriving DecidableEq, Repr

namespace Moment

/-- A moment at which the clock stands still. -/
def still (now : Time) : Moment :=
  ⟨now, now⟩

/-- A time in figures stands for such a moment. -/
instance {now : Nat} : OfNat Moment now :=
  ⟨still now⟩

end Moment

namespace Activity

/-! ### Warp mode -/

/-- Whether a thread has to yield: always outside warp mode, and within it once the stretch that
began with the first such question is used up. -/
def shouldYield (a : Activity) (now : Moment) : Except Halt (Bool × Activity) := do
  if ← a.inWarpMode then
    let began := a.thread.warpTimer.getD now.asked
    return (decide (a.engine.settings.warpTime ≤ now.answered - began),
      a.withWarpTimer (some began))
  else return (true, a)

/-- Yields, which ends a stretch in warp mode. -/
def yield (a : Activity) : Activity :=
  (a.withWarpTimer none).withStatus .yield

/-- Yields if it has to. -/
def yieldIfDue (a : Activity) (now : Moment) : Except Halt Activity := do
  let (due, a) ← a.shouldYield now
  return if due then a.yield else a

/-! ### Commands -/

/-- Enters the enclosed blocks, or moves on when there are none. -/
def enterOrAdvance (a : Activity) (b : Block) : Except Halt Activity :=
  match b.substack? with
  | some body => a.push body none
  | none => a.advance

/-- Makes the level a loop and enters its body; a loop without a body waits for its next turn. -/
def enterLoop (a : Activity) (b : Block) : Except Halt Activity := do
  let a ← a.modifyTopFrame fun frame ↦ { frame with isLoop := true }
  match b.substack? with
  | some body => a.push body none
  | none => return a.withStatus .yield

/-- Enters a procedure with the given body. A call that seems to recurse yields if it has to. -/
def enterProcedure (a : Activity) (now : Moment) (b : Block) (code : String) (body : BlockId) :
    Except Halt Activity := do
  let recursive ← a.isRecursiveCall code
  let a ← a.initParams
  let a ← a.push body none
  let a ← if b.isWarp then a.modifyTopFrame fun frame ↦ { frame with warpMode := true } else .ok a
  if recursive then a.yieldIfDue now else return a

/-- Calls a procedure. A procedure without a body is moved past. -/
def call (a : Activity) (now : Moment) (b : Block) : Except Halt Activity :=
  match b.proccode with
  | none => a.advance
  | some code =>
    match a.engine.procedureBody? a.thread.target code with
    | none => a.advance
    | some body => a.enterProcedure now b code body

/-- Carries a block's command out. -/
def perform (a : Activity) (now : Moment) (b : Block) :
    Except Halt (Option StopRequest × Activity) :=
  match b.command with
  | .stopAll => a.kill.map fun a ↦ (some .all, a)
  | .stopOthers => a.advance.map fun stepped ↦ (some (.others a.thread.target), stepped)
  | .stopThis => a.stopScript.map fun a ↦ (none, a)
  | .forever => (a.enterLoop b).map fun a ↦ (none, a)
  | .call => (a.call now b).map fun a ↦ (none, a)
  | .plain => (a.enterOrAdvance b).map fun a ↦ (none, a)

/-- Executes a block. One that is in no target stops the script. -/
def execute (a : Activity) (now : Moment) (id : BlockId) :
    Except Halt (Option StopRequest × Activity) :=
  let script := a.thread.topBlock
  match a.engine.resolve? a.thread.target id with
  | none => (a.note (.missing script id)).stopScript.map fun a ↦ (none, a)
  | some b =>
    let name := (a.engine.target? a.thread.target).map Target.name
    let a := a.note (.executed script id name b.opcode)
    perform { a with thread := { a.thread with blockGlow := some id } } now b

/-! ### Steps -/

/-- Returns to the level that a finished sequence leaves on top: a loop runs its body again and
yields if it has to, and any other block is finished. -/
def resume (a : Activity) (now : Moment) (parent : BlockId) : Except Halt Activity := do
  let frame ← a.topFrame?
  if frame.elim false Frame.isLoop then
    let a ← match a.engine.substack? a.thread.target parent with
      | some body => a.push body none
      | none => .ok a
    a.yieldIfDue now
  else a.advance

/-- One step of a thread: the block at work is executed, or, where its sequence is over, the level
is left. -/
def stepBlock (a : Activity) (now : Moment) : Except Halt (Option StopRequest × Activity) :=
  match a.thread.peek? with
  | some id => a.execute now id
  | none => do
    let (_, a) ← a.pop
    match a.thread.peek? with
    | none => a.stopScript.map fun a ↦ (none, a)
    | some parent => (a.resume now parent).map fun a ↦ (none, a)

end Activity

end BlockScript
