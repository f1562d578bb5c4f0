import BlockScript.Activity.Compilation
import BlockScript.Activity.Slice

/-!
# Schedules

The threads of a run and the engine they share. `Schedule.start` makes a thread for every script
that starts with the green flag, and `Schedule.frame` gives every thread its turn, in order; a
thread that asks others to stop marks them, and they end at their next turn, which for the threads
behind it is in the same frame. Threads that are done leave the list at the end of the frame.

What the clock shows in the course of a frame is an argument (`Clock`). `Schedule.everyTurn` leaves
open how a thread has its turn, so that one who reads a real clock runs frames by the same function.
-/

namespace BlockScript

/-- What the clock shows in the course of a frame. -/
structure Clock where
  /-- When the frame begins. -/
  began : Time
  /-- What it shows in the turn of the thread at a position. -/
  shown : Nat → Readings

/-- A clock that stands still. -/
def Clock.still (now : Time) : Clock where
  began := now
  shown := fun _ ↦ .still now

/-- The threads of a run and the engine they share. -/
structure Schedule where
  /-- The engine. -/
  engine : Engine
  /-- The threads in order. -/
  threads : List Thread := []
deriving DecidableEq

namespace Schedule

/-! ### Starting scripts -/

/-- The opcode of the blocks that start a script at the green flag. -/
def flagOpcode : String :=
  "event_whenflagclicked"

/-- The blocks of all targets that start a script at the green flag, target by target. -/
def hats (e : Engine) : List (BlockId × TargetId) :=
  (e.targets.zipIdx.map fun (target, index) ↦
    (target.blocks.toList.filter fun entry ↦ entry.2.opcode == flagOpcode).map fun entry ↦
      (entry.1, TargetId.mk index)).flatten

/-- Starts a script: its top block is pushed, it is highlighted, and compiled where that is asked
for. -/
def startScript (e : Engine) (hat : BlockId × TargetId) : Except Halt Activity := do
  let a : Activity := ⟨e, { topBlock := hat.1, target := hat.2 }⟩
  let a ← a.push hat.1 none
  let a := { a with thread := { a.thread with scriptGlow := true } }
  if a.engine.settings.compileScripts then a.compile StraightLine.compile else return a

/-- Starts scripts in order. -/
def startScripts : Engine → List (BlockId × TargetId) → Except Halt Schedule
  | e, [] => .ok ⟨e, []⟩
  | e, hat :: hats => do
    let a ← startScript e hat
    let rest ← startScripts a.engine hats
    return { rest with threads := a.thread :: rest.threads }

/-- Starts every script with the green flag. -/
def start (e : Engine) : Except Halt Schedule :=
  startScripts e (hats e)

/-! ### Frames -/

/-- Whether a request is directed at a thread. -/
def isStopped (request : StopRequest) (t : Thread) : Bool :=
  match request with
  | .all => true
  | .others target => decide (t.target = target)

/-- Marks the threads that a request is directed at, other than the one at a position. -/
def markOthers (request : Option StopRequest) (position : Nat) (threads : List Thread) :
    List Thread :=
  match request with
  | none => threads
  | some request => threads.mapIdx fun i t ↦
      if i ≠ position ∧ isStopped request t then { t with killed := true } else t

/-- Gives the thread at a position its turn by means of `step`. -/
def stepAt {m : Type → Type} [Monad m]
    (step : Nat → Activity → m (Option StopRequest × Activity)) (s : Schedule) (position : Nat) :
    m Schedule :=
  match s.threads[position]? with
  | none => pure s
  | some t => do
    let (request, a) ← step position ⟨s.engine, t⟩
    return ⟨a.engine, markOthers request position (s.threads.set position a.thread)⟩

/-- Lets the threads that are done go. -/
def sweep (s : Schedule) : Schedule :=
  { s with threads := s.threads.filter fun t ↦ t.status != .done }

/-- One frame, in which every thread has its turn by means of `step`. -/
def everyTurn {m : Type → Type} [Monad m]
    (step : Nat → Activity → m (Option StopRequest × Activity)) (s : Schedule) : m Schedule := do
  let s ← (List.range s.threads.length).foldlM (stepAt step) s
  return s.sweep

/-- The turn of the thread at a position, in a frame of the schedule. -/
def turnIn (s : Schedule) (clock : Clock) (turns position : Nat) (a : Activity) :
    Except Halt (Option StopRequest × Activity) :=
  a.takeTurn (clock.began + s.engine.settings.workTime) (clock.shown position) turns

/-- One frame: every thread has its turn, of at most so many steps. -/
def frame (s : Schedule) (clock : Clock) (turns : Nat) : Except Halt Schedule :=
  s.everyTurn (s.turnIn clock turns)

/-- Several frames at one time. -/
def frames (now : Time) (turns : Nat) : Nat → Schedule → Except Halt Schedule
  | 0, s => .ok s
  | n + 1, s => do
    let s ← s.frame (.still now) turns
    frames now turns n s

end Schedule

end BlockScript
