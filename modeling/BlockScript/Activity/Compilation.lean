import BlockScript.Activity.Basic

/-!
# Compiling scripts

A compiler turns the script of a top block into a program that runs without walking the graph.
`StraightLine.compile` handles scripts without control flow: its programs are the blocks along the
chain of next blocks. It follows that chain for as many steps as there are blocks and one more; a
chain that is longer visits a block twice, hence never ends, and then there is no result.
-/

namespace BlockScript

/-- Compiles the script of a top block on a target. It need not come to a result. -/
abbrev Compiler :=
  Engine → TargetId → BlockId → Except Halt (Except CompileError Program)

namespace StraightLine

/-- How the opcodes of blocks that have to do with procedures start. -/
def procedureMark : String :=
  "procedures_"

/-- Whether a block is beyond a compiler of straight lines: it encloses blocks, or has to do with
procedures. -/
def isUnsupported (b : Block) : Bool :=
  b.inputs.contains Block.substackSlot || procedureMark.toList.isPrefixOf b.opcode.toList

/-- Follows the chain of next blocks from a given one, for so many steps at most. -/
def follow (e : Engine) (target : TargetId) :
    Nat → BlockId → Except Halt (Except CompileError Program)
  | 0, _ => .error .unfinished
  | steps + 1, id =>
    match e.resolve? target id with
    | none => .ok (.error (.missingBlock id))
    | some block =>
      if isUnsupported block then .ok (.error (.unsupported id block.opcode))
      else
        match block.next with
        | none => .ok (.ok [id])
        | some next => (follow e target steps next).map fun result ↦ result.map (id :: ·)

/-- Compiles a script without control flow. -/
def compile : Compiler :=
  fun e target top ↦ follow e target (e.blockCount + 1) top

end StraightLine

namespace Activity

/-- Records what came of compiling a thread's script. -/
def recordCompilation (a : Activity) : Except CompileError Program → Activity
  | .ok program =>
    { a.note (.compiled a.thread.topBlock) with
      thread := { a.thread with compilation := .compiled program } }
  | .error cause =>
    { a.note (.notCompiled a.thread.topBlock cause) with
      thread := { a.thread with compilation := .failed } }

/-- Compiles the thread's script, unless that was tried before. After a failure the script is
interpreted for good. -/
def compile (a : Activity) (compiler : Compiler) : Except Halt Activity :=
  match a.thread.compilation with
  | .pending => (compiler a.engine a.thread.target a.thread.topBlock).map a.recordCompilation
  | _ => .ok a

end Activity

end BlockScript
