/-!
# Settings

The frame rate and the budgets of an engine. Times are whole nanoseconds.

A frame may spend three quarters of its length on stepping threads. The divisor of that budget is a
32-bit word and is held at the largest one; the quotient is zero by then, so nothing is lost.
-/

namespace BlockScript

/-- A point in time or a length of time, in nanoseconds. -/
abbrev Time :=
  Nat

/-- The settings of an engine. -/
structure Settings where
  /-- Frames for each second. -/
  frameRate : UInt32
  /-- How long all threads together may step in one frame. -/
  workTime : Time
  /-- How long a thread in warp mode may run before it has to yield. -/
  warpTime : Time
  /-- Whether scripts are compiled where that is possible. -/
  compileScripts : Bool := false
deriving DecidableEq, Repr

namespace Settings

/-- One second. -/
def second : Time :=
  1000000000

/-- The settings for a frame rate, of which zero counts as one. -/
def ofFrameRate (rate : UInt32) : Settings :=
  let rate := max rate 1
  { frameRate := rate
    workTime := 3 * second / min (4 * rate.toNat) (UInt32.size - 1)
    warpTime := second / 2 }

/-- The settings when nothing is asked for. -/
def default : Settings :=
  ofFrameRate 30

instance : Inhabited Settings :=
  ⟨default⟩

/-- The length of a frame. -/
def frameTime (s : Settings) : Time :=
  second / max s.frameRate.toNat 1

end Settings

end BlockScript
