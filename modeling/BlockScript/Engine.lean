import BlockScript.Event
import BlockScript.Frame.Pool
import BlockScript.Project
import BlockScript.Settings

/-!
# Engines

What the threads of one run share: the settings, the targets, the frame pool, and the journal of
what happened.

A block is looked up in a preferred target first and then in every target in order
(`Engine.resolve?`); a procedure's body is looked up in one target alone (`Engine.procedureBody?`).
-/

namespace BlockScript

/-- Everything that the threads of one run share. -/
structure Engine where
  /-- The settings. -/
  settings : Settings
  /-- The frames of all threads. -/
  pool : Pool := {}
  /-- The targets in order. -/
  targets : List Target := []
  /-- What happened so far, the latest first. -/
  journal : List Event := []
deriving DecidableEq

namespace Engine

/-- Records an event. -/
def note (e : Engine) (event : Event) : Engine :=
  { e with journal := event :: e.journal }

/-- What happened, in order. -/
def history (e : Engine) : List Event :=
  e.journal.reverse

@[simp]
theorem history_note (e : Engine) (event : Event) :
    (e.note event).history = e.history ++ [event] := by
  simp [history, note]

/-- The engine with a target added. -/
def addTarget (e : Engine) (t : Target) : Engine :=
  { e with targets := e.targets ++ [t] }

/-- The target at a position. -/
def target? (e : Engine) (id : TargetId) : Option Target :=
  e.targets[id.index]?

/-- Changes the target at a position. -/
def modifyTarget (e : Engine) (id : TargetId) (change : Target → Target) : Engine :=
  { e with targets := e.targets.modify id.index change }

/-- The position of the first target of a name. -/
def targetNamed? (e : Engine) (name : String) : Option TargetId :=
  (e.targets.findIdx? fun t ↦ t.name == name).map TargetId.mk

/-- The blocks of the target at a position. -/
def graph? (e : Engine) (id : TargetId) : Option Graph :=
  (e.target? id).map Target.blocks

/-- A block, looked up in one target first and then in every target in order. -/
def resolve? (e : Engine) (preferred : TargetId) (id : BlockId) : Option Block :=
  ((e.graph? preferred).bind fun g ↦ g.get? id).or
    (e.targets.findSome? fun t ↦ t.blocks.get? id)

/-- The first of the blocks that a control block encloses. -/
def substack? (e : Engine) (target : TargetId) (id : BlockId) : Option BlockId :=
  (e.resolve? target id).bind Block.substack?

/-- The first block of the body of a procedure, as one target defines it. -/
def procedureBody? (e : Engine) (target : TargetId) (code : String) : Option BlockId :=
  (e.graph? target).bind fun g ↦ g.procedureBody? code

/-- The number of blocks of all targets. -/
def blockCount (e : Engine) : Nat :=
  e.targets.foldl (fun count t ↦ count + t.blocks.size) 0

/-- Takes a target in. -/
def load (e : Engine) (t : Target) : Engine :=
  (e.note (.loaded t.name t.blocks.size)).addTarget t

/-- The engine of a project. -/
def ofProject (settings : Settings) (project : Project) : Engine :=
  project.targets.foldl load { settings }

end Engine

end BlockScript
