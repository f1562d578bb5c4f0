import BlockScript.Event
import BlockScript.Frame.Basic
import BlockScript.Halt
import BlockScript.Settings

/-!
# Threads

A thread is a script at work: a stack of levels, the target it is on, and the targets it will return
to. Levels and targets stand **innermost first**, so pushing is `::` and a level's enclosing levels
are the list behind it. The frames of the levels are in the pool of the thread's engine.
-/

namespace BlockScript

/-- What a thread is doing. -/
inductive Status where
  /-- Stepping from block to block. -/
  | running
  /-- Waiting for a promise. -/
  | promiseWait
  /-- Waiting for its next turn. -/
  | yield
  /-- Waiting for the next tick. -/
  | yieldTick
  /-- Nothing is left to execute. -/
  | done
deriving DecidableEq, Repr, Inhabited

/-- The name of a status. -/
def Status.name : Status → String
  | .running => "Running"
  | .promiseWait => "PromiseWait"
  | .yield => "Yield"
  | .yieldTick => "YieldTick"
  | .done => "Done"

/-- One level of a stack. -/
structure Level where
  /-- The block at work; none once its sequence is over. -/
  block : Option BlockId
  /-- Its frame. -/
  frame : FrameId
  /-- Whether pushing the level switched the target. -/
  switched : Bool
deriving DecidableEq, Repr

/-- What came of compiling a script. -/
inductive Compilation where
  /-- It has not been tried. -/
  | pending
  /-- It gave this program. -/
  | compiled (program : Program)
  /-- It failed. -/
  | failed
deriving DecidableEq, Repr, Inhabited

/-- A script at work. -/
structure Thread where
  /-- The block that the script starts with. -/
  topBlock : BlockId
  /-- The stack, innermost level first. -/
  levels : List Level := []
  /-- The target it is on. -/
  target : TargetId
  /-- The targets it will return to, the next one first. -/
  targetStack : List TargetId := []
  /-- What it is doing. -/
  status : Status := .running
  /-- Whether it is to be unwound at its next turn. -/
  killed : Bool := false
  /-- What came of compiling it. -/
  compilation : Compilation := .pending
  /-- Whether the script is to be highlighted. -/
  scriptGlow : Bool := false
  /-- The block to be highlighted. -/
  blockGlow : Option BlockId := none
  /-- When its stretch in warp mode began. -/
  warpTimer : Option Time := none
  /-- The value reported last. -/
  justReported : Option Value := none
deriving DecidableEq

namespace Thread

/-- The number of levels. -/
def depth (t : Thread) : Nat :=
  t.levels.length

/-- The block at work at the top level. -/
def peek? (t : Thread) : Option BlockId :=
  t.levels.head?.bind Level.block

/-- Whether the script is at its first block. -/
def atTop (t : Thread) : Bool :=
  t.peek? == some t.topBlock

/-- The target of the caller, once two targets at least have been switched away from. -/
def callerTarget? (t : Thread) : Option TargetId :=
  match t.targetStack with
  | target :: _ :: _ => some target
  | _ => none

/-- The program of a compiled script. -/
def program? (t : Thread) : Option Program :=
  match t.compilation with
  | .compiled program => some program
  | _ => none

/-- Whether the script is compiled. -/
def isCompiled (t : Thread) : Bool :=
  t.program?.isSome

end Thread

end BlockScript
