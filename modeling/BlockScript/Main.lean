import BlockScript.Session

/-!
# The program

Runs the green flag scripts of a project file. Times are taken from the clock: a thread's turn ends
when the clock says so, and the rest of a frame is slept away.
-/

open BlockScript

namespace BlockScript.Terminal

/-- How the program is used. -/
def usage : String :=
  "Run the green flag scripts of an extracted project.json\n\n" ++
  "Usage: blockscript [OPTIONS] <PROJECT>\n\n" ++
  "Options:\n" ++
  "      --frame-rate <FRAME_RATE>  [default: 30]\n" ++
  "      --compile                  Compile scripts that have no control flow\n" ++
  "      --max-frames <MAX_FRAMES>\n" ++
  "  -h, --help                     Print help"

/-- Why arguments are refused, in words. -/
def refusal : UsageError → String
  | .help => usage
  | .missingProject => "error: a project is required"
  | .repeated => "error: an argument is used twice"
  | .missingValue => "error: a value is required"
  | .notAWord => "error: a value is not a number in the allowed range"
  | .unknown => "error: unexpected argument"
  | .unwantedValue => "error: unexpected value"

/-- What is found at a path. -/
def readContent (path : String) : IO FileContent := do
  try
    let content ← IO.FS.readBinFile path
    return .octets content.toList
  catch
    | .noFileOrDirectory .. => return FileContent.noSuchFile
    | .inappropriateType .. => return .unreadable
    | failure => return .closed (toString failure)

/-- Prints the events that matter, and clears the journal. -/
def flush (e : Engine) : IO Engine := do
  for event in e.history do
    if event.severity ≠ .trace ∧ event.severity ≠ .debug then
      IO.eprintln event.line
  return { e with journal := [] }

/-- Stops the program when a rule is broken. -/
def orFail {α : Type} (result : Except Halt α) : IO α :=
  match result with
  | .ok value => return value
  | .error cause => throw (IO.userError cause.message)

/-- The moment of a question that is asked now. -/
def moment : IO Moment := do
  let asked ← IO.monoNanosNow
  return ⟨asked, ← IO.monoNanosNow⟩

/-- Turns of a thread for as long as it runs. -/
partial def slice (deadline : Time) (request : Option StopRequest) (a : Activity) :
    IO (Option StopRequest × Activity) := do
  if a.thread.status = .running then
    let (latest, a) ← orFail (a.stepBlock (← moment))
    let a ← orFail (a.yieldIfLate (← moment) deadline)
    let engine ← flush a.engine
    slice deadline (latest.or request) { a with engine }
  else return (request, a)

/-- A thread's turn in a frame. -/
def takeTurn (deadline : Time) (a : Activity) : IO (Option StopRequest × Activity) := do
  let (interpreted, a) ← orFail a.begin
  let (request, a) ← if interpreted then slice deadline none a else pure (none, a)
  return (request, { a with engine := ← flush a.engine })

/-- One frame. -/
def frame (s : Schedule) : IO Schedule := do
  let began ← IO.monoNanosNow
  let stepped ← s.everyTurn fun _ ↦ takeTurn (began + s.engine.settings.workTime)
  let ended ← IO.monoNanosNow
  let rest := s.engine.settings.frameTime - (ended - began)
  IO.sleep (UInt32.ofNat (rest / 1000000))
  return stepped

/-- Frames until the run is over. -/
partial def frames (arguments : Arguments) (count : UInt32) (s : Schedule) : IO Schedule := do
  if Session.goesOn arguments s count then
    let s ← frame s
    let count ← orFail (Session.countFrame count)
    frames arguments count s
  else return Session.close s count

/-- A whole run. -/
def run (arguments : Arguments) : IO UInt32 := do
  match Session.load arguments (← readContent arguments.project) with
  | .error cause =>
    let report := Session.loadFailure arguments.project
    IO.eprintln ("Error: " ++ report.failure.getD "")
    if let some message := cause.message? then
      IO.eprintln ("\nCaused by:\n    " ++ message)
    return report.exitCode
  | .ok engine =>
    let s ← orFail (Session.start engine)
    let engine ← flush s.engine
    let s ← frames arguments 0 { s with engine }
    let _ ← flush s.engine
    return 0

end BlockScript.Terminal

/-- Reads the arguments and runs. -/
def main (arguments : List String) : IO UInt32 := do
  match CommandLine.parse arguments with
  | .error cause =>
    if cause = .help then IO.println (Terminal.refusal cause)
    else IO.eprintln (Terminal.refusal cause)
    return cause.exitCode
  | .ok arguments => Terminal.run arguments
