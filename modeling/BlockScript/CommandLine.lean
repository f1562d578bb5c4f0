/-!
# The command line

    PROJECT [--frame-rate N] [--compile] [--max-frames N]

The arguments are gone through from left to right. The value of an option and the project path are
**kept back** when they are met, and taken in only when the next known argument comes or the
arguments end. So an argument that is not known, or that has a value it should not have, is reported
before anything that is wrong with the value kept back.

Everything after `--` is a path, however it starts. A lone `-` is a path too.
-/

namespace BlockScript

/-- What the user asks for. -/
structure Arguments where
  /-- The path of the project. -/
  project : String
  /-- Frames for each second. -/
  frameRate : UInt32 := 30
  /-- Whether scripts are compiled. -/
  compile : Bool := false
  /-- How many frames are run at most. -/
  maxFrames : Option UInt32 := none
deriving DecidableEq, Repr

/-- Why arguments are refused. -/
inductive UsageError where
  /-- Help is asked for. -/
  | help
  /-- There is no project. -/
  | missingProject
  /-- An argument is given twice. -/
  | repeated
  /-- A value is missing or empty. -/
  | missingValue
  /-- A value is not a 32-bit word. -/
  | notAWord
  /-- An argument is not known. -/
  | unknown
  /-- A value is given to a switch. -/
  | unwantedValue
deriving DecidableEq, Repr

/-- The exit code with which arguments are refused. -/
def UsageError.exitCode : UsageError → UInt32
  | .help => 0
  | _ => 2

namespace CommandLine

/-- The arguments that take a value. -/
inductive Valued where
  /-- The path of the project. -/
  | project
  /-- The frame rate. -/
  | frameRate
  /-- The largest number of frames. -/
  | maxFrames
deriving DecidableEq, Repr

/-- What has been taken in, and what is kept back. -/
structure Draft where
  /-- The path of the project. -/
  project : Option String := none
  /-- The frame rate. -/
  frameRate : Option UInt32 := none
  /-- Whether scripts are compiled. -/
  compile : Bool := false
  /-- The largest number of frames. -/
  maxFrames : Option UInt32 := none
  /-- The argument kept back, with its value once that has been met. -/
  pending : Option (Valued × Option String) := none
  /-- Whether a path has been met. -/
  hasPath : Bool := false
  /-- Whether only paths can follow. -/
  pathsOnly : Bool := false

/-- The 32-bit word that a text spells: decimal digits after an optional sign. Minus zero is
zero. -/
def word? (text : String) : Option UInt32 :=
  let (negative, digits) := match text.toList with
    | '-' :: rest => (true, rest)
    | '+' :: rest => (false, rest)
    | rest => (false, rest)
  if digits ≠ [] ∧ digits.all Char.isDigit then
    let n := digits.foldl (fun n c ↦ 10 * n + (c.toNat - '0'.toNat)) 0
    if n < UInt32.size ∧ (negative → n = 0) then some (UInt32.ofNat n) else none
  else none

/-- A word that must be given once. -/
def takeWord (earlier : Option UInt32) (text : String) : Except UsageError (Option UInt32) :=
  match earlier with
  | some _ => .error .repeated
  | none =>
    match word? text with
    | some n => .ok (some n)
    | none => .error .notAWord

/-- Takes in an argument with its value. -/
def take (draft : Draft) (argument : Valued) (value : String) : Except UsageError Draft :=
  match argument with
  | .project =>
    if value = "" then .error .missingValue else .ok { draft with project := some value }
  | .frameRate =>
    (takeWord draft.frameRate value).map fun n ↦ { draft with frameRate := n }
  | .maxFrames =>
    (takeWord draft.maxFrames value).map fun n ↦ { draft with maxFrames := n }

/-- Takes in what is kept back. -/
def takePending (draft : Draft) : Except UsageError Draft :=
  match draft.pending with
  | none => .ok draft
  | some (_, none) => .error .missingValue
  | some (argument, some value) => take { draft with pending := none } argument value

/-- The option of a name. -/
def option? (name : String) : Option Valued :=
  if name = "frame-rate" then some .frameRate
  else if name = "max-frames" then some .maxFrames
  else none

/-- An argument that starts with two dashes: its name, and the value after an equals sign. -/
def readLong (draft : Draft) (name : String) (value : Option String) : Except UsageError Draft :=
  match option? name, value with
  | some argument, some value => do
    let draft ← takePending draft
    take draft argument value
  | some argument, none => do
    let draft ← takePending draft
    return { draft with pending := some (argument, none) }
  | none, value =>
    if name = "compile" ∨ name = "help" then
      if value.isSome then .error .unwantedValue
      else do
        let draft ← takePending draft
        if name = "help" then .error .help
        else if draft.compile then .error .repeated
        else return { draft with compile := true }
    else .error .unknown

/-- An argument that starts with one dash: only the help switch is known. -/
def readShort (draft : Draft) (letters : List Char) : Except UsageError Draft :=
  if letters.head? = some 'h' then do
    let _ ← takePending draft
    .error .help
  else .error .unknown

/-- A path. -/
def readPath (draft : Draft) (path : String) : Except UsageError Draft :=
  if draft.hasPath then .error .unknown
  else do
    let draft ← takePending draft
    return { draft with pending := some (.project, some path), hasPath := true }

/-- An argument that is no option: the value that an option waits for, or a path. -/
def readPlain (draft : Draft) (text : String) : Except UsageError Draft :=
  match draft.pending with
  | some (argument, none) => .ok { draft with pending := some (argument, some text) }
  | _ => readPath draft text

/-- The name and the value of a long option without its dashes. -/
def splitEquals (letters : List Char) : String × Option String :=
  let name := String.ofList (letters.takeWhile (· ≠ '='))
  match letters.dropWhile (· ≠ '=') with
  | [] => (name, none)
  | _ :: value => (name, some (String.ofList value))

/-- One argument. -/
def read (draft : Draft) (text : String) : Except UsageError Draft :=
  if draft.pathsOnly then readPath draft text
  else
    match text.toList with
    | ['-', '-'] => .ok { draft with pathsOnly := true }
    | '-' :: '-' :: letters =>
      let (name, value) := splitEquals letters
      readLong draft name value
    | '-' :: letter :: letters => readShort draft (letter :: letters)
    | _ => readPlain draft text

/-- The arguments of a draft. -/
def finish (draft : Draft) : Except UsageError Arguments :=
  match draft.project with
  | none => .error .missingProject
  | some project => .ok {
      project
      frameRate := draft.frameRate.getD 30
      compile := draft.compile
      maxFrames := draft.maxFrames }

/-- What the user asks for. -/
def parse (arguments : List String) : Except UsageError Arguments := do
  let draft ← arguments.foldlM read {}
  let draft ← takePending draft
  finish draft

end CommandLine

end BlockScript
