import BlockScript.Activity.Basic

/-!
# Recursive calls

Whether a call would recurse is guessed from the nearest enclosing levels. For each of them the
reporter that it waits for is looked at, if it waits for one, and then its own block; five looks are
taken at most, and a block that is in no target ends the search.
-/

namespace BlockScript.Activity

/-- How many looks at enclosing blocks are taken. -/
def maxEnclosingCalls : Nat :=
  5

/-- The blocks to look at in a list of levels, in order. -/
def enclosing (pool : Pool) : List Level → Except Halt (List (Option BlockId))
  | [] => .ok []
  | level :: rest => do
    let frame ← pool.get level.frame
    let further ← enclosing pool rest
    return (if frame.waitingReporter then [frame.reporting] else []) ++ level.block :: further

/-- Whether one of the blocks calls the procedure, before one that is in no target. -/
def anyCalls (resolve : BlockId → Option Block) (code : String) : List (Option BlockId) → Bool
  | [] => false
  | id :: rest =>
    match id.bind resolve with
    | none => false
    | some block =>
      (block.isProcedureCall && block.proccode == some code) || anyCalls resolve code rest

/-- Whether a call of the procedure by the block at work would recurse, as far as the enclosing
levels tell. -/
def isRecursiveCall (a : Activity) (code : String) : Except Halt Bool := do
  let blocks ← enclosing a.engine.pool (a.thread.levels.drop 1)
  return anyCalls (a.engine.resolve? a.thread.target) code (blocks.take maxEnclosingCalls)

end BlockScript.Activity
