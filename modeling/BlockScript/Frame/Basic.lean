import BlockScript.Block.Basic

/-!
# Stack frames

What is known about one level of a thread's stack, beyond the block that is at work there.
-/

namespace BlockScript

/-- The bookkeeping of one level of a stack. -/
structure Frame where
  /-- Whether the level is a loop. -/
  isLoop : Bool := false
  /-- Whether the level runs in warp mode. Levels above inherit it. -/
  warpMode : Bool := false
  /-- The value of the block that just finished at this level. -/
  justReported : Option Value := none
  /-- The reporter that the level waits for. -/
  reporting : Option BlockId := none
  /-- Inputs that were reported already and outlive an asynchronous block. -/
  reported : Option (Table Value) := none
  /-- Whether the level waits for a reporter. -/
  waitingReporter : Bool := false
  /-- The parameters of a procedure, once it has any. -/
  params : Option (Table Value) := none
  /-- State of the primitive at work; its meaning is the primitive's own. -/
  context : Option Int := none
deriving DecidableEq, Inhabited

namespace Frame

/-- A frame about which nothing is known but its mode. -/
def ofMode (warpMode : Bool) : Frame :=
  { warpMode }

/-- A frame about which nothing is known. -/
def blank : Frame :=
  {}

/-- The frame for the next block at the same level: only the mode stays. -/
def renewed (f : Frame) : Frame :=
  ofMode f.warpMode

end Frame

end BlockScript
