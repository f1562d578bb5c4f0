import BlockScript.Target

/-!
# Events

What the engine reports while it works. An event carries more than its wording shows: the block that
was executed and the script it was executed for.
-/

namespace BlockScript

/-- A compiled script: the blocks it runs, in order. -/
abbrev Program :=
  List BlockId

/-- Why a script cannot be compiled. -/
inductive CompileError where
  /-- A block is in no target. -/
  | missingBlock (id : BlockId)
  /-- A block's opcode is beyond the compiler. -/
  | unsupported (id : BlockId) (opcode : String)
  /-- Anything else. -/
  | other (reason : String)
deriving DecidableEq, Repr

/-- Why a script cannot be compiled, in words. -/
def CompileError.message : CompileError → String
  | .missingBlock id => "block " ++ id ++ " does not exist"
  | .unsupported id opcode => "opcode " ++ opcode ++ " of block " ++ id ++ " cannot be compiled"
  | .other reason => reason

/-- How much an event matters. -/
inductive Severity where
  /-- A step of the stack. -/
  | trace
  /-- A detail. -/
  | debug
  /-- The course of events. -/
  | info
  /-- Something is amiss. -/
  | warn
  /-- Something failed. -/
  | error
deriving DecidableEq, Repr

/-- The name of a severity. -/
def Severity.name : Severity → String
  | .trace => "TRACE"
  | .debug => "DEBUG"
  | .info => "INFO"
  | .warn => "WARN"
  | .error => "ERROR"

/-- Something that happened. -/
inductive Event where
  /-- A block went on the stack, above this many levels. -/
  | pushed (block : BlockId) (depth : Nat)
  /-- A level left the stack; this many are below it. -/
  | popped (block : Option BlockId) (depth : Nat)
  /-- A thread turned to another target. -/
  | switched (source target : TargetId)
  /-- A thread turned back to a target. -/
  | restored (source target : TargetId)
  /-- A script was compiled. -/
  | compiled (script : BlockId)
  /-- A script could not be compiled. -/
  | notCompiled (script : BlockId) (cause : CompileError)
  /-- A script came to a block that is in no target. -/
  | missing (script block : BlockId)
  /-- A script executed a block while on the named target, if there is such a target. -/
  | executed (script block : BlockId) (target : Option String) (opcode : String)
  /-- A compiled script executed a block. -/
  | ranCompiled (script block : BlockId) (opcode : String)
  /-- A target was taken into the engine. -/
  | loaded (target : String) (blocks : Nat)
  /-- So many scripts were started. -/
  | started (scripts : Nat)
  /-- The run is over. -/
  | stopped (frames running allocated : Nat)
deriving DecidableEq

/-- How much an event matters. -/
def Event.severity : Event → Severity
  | .pushed .. | .popped .. | .switched .. | .restored .. => .trace
  | .compiled .. => .debug
  | .notCompiled .. => .error
  | .missing .. => .warn
  | .executed .. | .ranCompiled .. | .loaded .. | .started .. | .stopped .. => .info

/-- An event in words. -/
def Event.message : Event → String
  | .pushed block depth => "push " ++ block ++ " at depth " ++ toString depth
  | .popped block depth => "pop " ++ Text.quotedOption block ++ " at depth " ++ toString depth
  | .switched source target => "switch target " ++ source.describe ++ " -> " ++ target.describe
  | .restored source target => "restore target " ++ source.describe ++ " -> " ++ target.describe
  | .compiled script => "compiled script " ++ script
  | .notCompiled script cause =>
    "error occurred during compilation of script " ++ script ++ ": " ++ cause.message
  | .missing script block => "block " ++ block ++ " does not exist, stopping script " ++ script
  | .executed _ _ target opcode => target.getD "?" ++ ": " ++ opcode
  | .ranCompiled script _ opcode => "compiled " ++ script ++ ": " ++ opcode
  | .loaded target blocks =>
    "loaded target " ++ target ++ " with " ++ toString blocks ++ " blocks"
  | .started scripts => "started " ++ toString scripts ++ " scripts"
  | .stopped frames running allocated =>
    "stopped after " ++ toString frames ++ " frames, " ++ toString running ++
      " scripts still running, " ++ toString allocated ++ " stack frames allocated"

/-- An event as a line of the log. -/
def Event.line (e : Event) : String :=
  e.severity.name ++ " " ++ e.message

end BlockScript
