import BlockScript.Activity.Execution

/-!
# Slices

A thread's turn within a frame. It steps until it yields, is done or waits; it is made to yield when
time is up, which means the frame's deadline outside warp mode and the warp budget within it.

The clock goes on from step to step. What it shows is an argument, a `Reading` for every step, so
that nothing is said of how fast the steps are or what comes between them.

A slice need not end: a script can go round without ever yielding. `Activity.slice` therefore takes
the number of turns that it may use, and `Halt.unfinished` tells that they did not suffice. A caller
with a clock iterates `Activity.stepBlock` and `Activity.yieldIfLate` itself.
-/

namespace BlockScript

/-! ### Clocks -/

/-- What the clock shows in the course of one turn. -/
structure Reading where
  /-- While the step is made. -/
  step : Moment
  /-- While the time that is left is looked at. -/
  check : Moment

/-- What the clock shows at the turns of a slice, one after the other. -/
abbrev Readings :=
  Nat → Reading

namespace Readings

/-- A clock that stands still. -/
def still (now : Time) : Readings :=
  fun _ ↦ ⟨.still now, .still now⟩

/-- What the clock shows from the second turn on. -/
def later (shown : Readings) : Readings :=
  fun turn ↦ shown (turn + 1)

@[simp] theorem later_still (now : Time) : (still now).later = still now := rfl

end Readings

namespace Activity

/-! ### Slices -/

/-- Whether time is up. Outside warp mode the stretch in warp mode is over. -/
def outOfTime (a : Activity) (now : Moment) (deadline : Time) : Except Halt (Bool × Activity) := do
  if ← a.inWarpMode then a.shouldYield now
  else return (decide (deadline ≤ now.answered), a.withWarpTimer none)

/-- Yields if it still runs and time is up. -/
def yieldIfLate (a : Activity) (now : Moment) (deadline : Time) : Except Halt Activity := do
  if a.thread.status = .running then
    let (late, a) ← a.outOfTime now deadline
    return if late then a.yield else a
  else return a

/-- One turn: a step, after which the thread yields if it still runs and time is up. -/
def turn (a : Activity) (shown : Reading) (deadline : Time) :
    Except Halt (Option StopRequest × Activity) := do
  let (request, a) ← a.stepBlock shown.step
  let a ← a.yieldIfLate shown.check deadline
  return (request, a)

/-- Turns until the thread no longer runs, for so many turns at most. Of the requests that come up
the last one is kept. -/
def slice (deadline : Time) :
    Readings → Nat → Option StopRequest → Activity → Except Halt (Option StopRequest × Activity)
  | shown, turns, request, a =>
    if a.thread.status = .running then
      match turns with
      | 0 => .error .unfinished
      | turns + 1 => do
        let (latest, a) ← a.turn (shown 0) deadline
        slice deadline shown.later turns (latest.or request) a
    else .ok (request, a)

/-! ### A thread's turn in a frame -/

/-- Runs a compiled program: its blocks are reported, and the script is over. -/
def runProgram (a : Activity) (program : Program) : Except Halt Activity :=
  let report (a : Activity) (id : BlockId) : Activity :=
    match a.engine.resolve? a.thread.target id with
    | some block => a.note (.ranCompiled a.thread.topBlock id block.opcode)
    | none => a
  (program.foldl report a).stopScript

/-- A thread that yielded runs again at its next turn. -/
def wake (a : Activity) : Activity :=
  if a.thread.status = .yield ∨ a.thread.status = .yieldTick then a.withStatus .running else a

/-- How a thread's turn in a frame begins: a killed thread ends, a compiled one runs its program,
and any other is woken. Tells whether there is anything left to interpret. -/
def begin (a : Activity) : Except Halt (Bool × Activity) :=
  if a.thread.killed then a.kill.map fun a ↦ (false, a)
  else
    let a := a.wake
    match a.thread.program? with
    | some program => (a.runProgram program).map fun a ↦ (false, a)
    | none => .ok (true, a)

/-- A thread's turn in a frame. -/
def takeTurn (a : Activity) (deadline : Time) (shown : Readings) (turns : Nat) :
    Except Halt (Option StopRequest × Activity) := do
  let (interpreted, a) ← a.begin
  if interpreted then slice deadline shown turns none a else return (none, a)

/-- A thread's turn in a frame, if the clock stands still. -/
def stepThread (a : Activity) (now deadline : Time) (turns : Nat) :
    Except Halt (Option StopRequest × Activity) :=
  a.takeTurn deadline (.still now) turns

end Activity

end BlockScript
