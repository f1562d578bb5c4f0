/-!
# Why a computation has no result

The operations of the engine are meant for callers that keep its rules: they pop what they pushed
and release what they took. A caller that does not is stopped with the rule it broke. One further
reason, `Halt.unfinished`, is not a breach of any rule: a computation that need not end was given a
number of steps, and they did not suffice.
-/

namespace BlockScript

/-- The position of a frame in its pool. -/
structure FrameId where
  /-- The position, from zero. -/
  cell : Nat
deriving DecidableEq, Repr, Inhabited

/-- The description of a frame's position. -/
def FrameId.describe (id : FrameId) : String :=
  "FrameId(" ++ toString id.cell ++ ")"

/-- Why a computation has no result. -/
inductive Halt where
  /-- The block of the top level was to be replaced, and there is no level. -/
  | emptyStack
  /-- A target was to be restored, and none was switched away from. -/
  | noTargetToRestore
  /-- A parameter was written to a level without parameters. -/
  | noParams
  /-- A frame was released that is not in use. -/
  | releasedTwice (frame : FrameId)
  /-- A frame was addressed that the pool does not have. -/
  | noSuchCell (cell size : Nat)
  /-- More frames were counted than the counter can hold. -/
  | counterOverflow
  /-- The steps that were granted did not suffice. -/
  | unfinished
deriving DecidableEq, Repr

/-- Why a computation has no result, in words. -/
def Halt.message : Halt → String
  | .emptyStack => "reuse on an empty stack"
  | .noTargetToRestore => "pop_target without a matching push_target"
  | .noParams => "push_param before init_params"
  | .releasedTwice frame => "stack frame " ++ frame.describe ++ " released twice"
  | .noSuchCell cell size =>
    "index out of bounds: the len is " ++ toString size ++ " but the index is " ++ toString cell
  | .counterOverflow => "attempt to add with overflow"
  | .unfinished => "unfinished"

end BlockScript
