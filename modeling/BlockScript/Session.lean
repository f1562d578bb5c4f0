import BlockScript.CommandLine
import BlockScript.Schedule

/-!
# Sessions

A whole run: the arguments are read, the project is loaded, its scripts are started, and frames are
run until no thread is left or as many were run as was asked for. `Session.frames` is given what the
clock shows in the course of each frame. `Session.run` does all of this at a fixed time, with the
content of files as a function of their paths; what it leaves to the outer layer is the passing of
time.

Frames are counted in a 32-bit word.
-/

namespace BlockScript

/-- What is left of a run: the exit code, what happened, and why it failed. -/
structure Report where
  /-- The exit code. -/
  exitCode : UInt32
  /-- What happened, in order. -/
  events : List Event := []
  /-- Why the run failed. -/
  failure : Option String := none

namespace Session

/-- The settings that the arguments ask for. -/
def settings (arguments : Arguments) : Settings :=
  { Settings.ofFrameRate arguments.frameRate with compileScripts := arguments.compile }

/-- Whether another frame is to be run after so many. -/
def goesOn (arguments : Arguments) (s : Schedule) (frames : UInt32) : Bool :=
  !s.threads.isEmpty && arguments.maxFrames.elim true fun most ↦ decide (frames < most)

/-- Counts a frame. -/
def countFrame (frames : UInt32) : Except Halt UInt32 :=
  if frames.toNat + 1 < UInt32.size then .ok (frames + 1) else .error .counterOverflow

/-- The engine of the project that the arguments name. -/
def load (arguments : Arguments) (content : FileContent) : Except Project.LoadError Engine :=
  (Project.load arguments.project content).map (Engine.ofProject (settings arguments))

/-- Starts the scripts, with the record of how many there are. -/
def start (e : Engine) : Except Halt Schedule := do
  let s ← Schedule.start e
  return { s with engine := s.engine.note (.started s.threads.length) }

/-- The schedule at the end of a run, with the record of the end. -/
def close (s : Schedule) (frames : UInt32) : Schedule :=
  let event := Event.stopped frames.toNat s.threads.length s.engine.pool.capacity
  { s with engine := s.engine.note event }

/-- Runs frames until the run is over, each with so many turns for a thread, for so many rounds at
most. -/
def frames (arguments : Arguments) (clocks : Nat → Clock) (turns : Nat) :
    Nat → UInt32 → Schedule → Except Halt Schedule
  | rounds, count, s =>
    if goesOn arguments s count then
      match rounds with
      | 0 => .error .unfinished
      | rounds + 1 => do
        let s ← s.frame (clocks count.toNat) turns
        let count ← countFrame count
        frames arguments clocks turns rounds count s
    else .ok (close s count)

/-- The failure to load a project. -/
def loadFailure (path : String) : Report :=
  { exitCode := 1, failure := some ("failed to load " ++ path) }

/-- A whole run at a fixed time. Each thread has so many turns in a frame, and there are so many
frames, at most. -/
def run (arguments : List String) (files : String → FileContent) (now : Time) (turns rounds : Nat) :
    Except Halt Report :=
  match CommandLine.parse arguments with
  | .error cause => .ok { exitCode := cause.exitCode }
  | .ok arguments =>
    match load arguments (files arguments.project) with
    | .error _ => .ok (loadFailure arguments.project)
    | .ok engine => do
      let s ← start engine
      let s ← frames arguments (fun _ ↦ .still now) turns rounds 0 s
      return { exitCode := 0, events := s.engine.history }

end Session

end BlockScript
