import BlockScript.Proofs.Schedule.TurnByTurn

/-!
# Runs that are driven from outside

A run is frames, one after another. What is decided from outside about each of them is a `Tick`:
what the clock shows in the course of it, the steps that a turn may take, the budgets, and which
threads are marked to be unwound before it begins. `Schedule.drive` is a run under any ticks, so that slices
may be cut anywhere, the budgets may change from frame to frame, and threads may be killed at any
depth of their stacks.

None of this is what the threads look at when they follow the stack machine: a change of the
settings (`Rests.under`) and a mark (`Rests.mark`) leave every thread where it rests. That is why a
schedule stays driven (`Driven.prepare`), and a run can fail in one way only (`Driven.drive`).
-/

namespace BlockScript

/-! ### Other settings -/

/-- Where a thread rests does not depend on the settings. -/
theorem Rests.under {w : World} {target : TargetId} {lot : Lot} {stack : Stack} {t : InlineThread}
    (h : Rests w target lot stack t) (settings : Settings) :
    Rests (w.under settings) target lot stack t := by
  have htop : ∀ {level : InlineLevel}, w.AtTop target level →
      (w.under settings).AtTop target level :=
    fun htop ↦ ⟨htop.switched_eq, htop.waiting_eq, htop.isLoop_of_flag⟩
  have hshape : ∀ {levels : List InlineLevel}, w.Shape target levels →
      (w.under settings).Shape target levels := by
    intro levels hshape
    cases levels with
    | nil => trivial
    | cons top rest =>
      refine ⟨htop hshape.1, fun level hmem ↦ ?_⟩
      have hbelow := hshape.2 level hmem
      exact ⟨htop hbelow.toAtTop, hbelow.isSome_block, hbelow.flag_of_isLoop⟩
  rw [Rests] at h ⊢
  split at h
  · rw [if_pos ‹_›]
    exact h
  · rw [if_neg ‹_›]
    exact ⟨h.target_eq, h.blocks_eq, hshape h.shape, h.live, h.lot_eq⟩

/-! ### Ticks -/

/-- What is decided from outside about one frame. -/
structure Tick where
  /-- What the clock shows. -/
  clock : Clock
  /-- The number of steps that a turn may take. -/
  turns : Nat
  /-- How long all threads together may step. -/
  workTime : Time
  /-- How long a thread in warp mode may run. -/
  warpTime : Time
  /-- The positions of the threads that are marked before the frame begins. -/
  kills : List Nat := []

/-- A clock that goes on by so much from turn to turn, and from step to step within a turn. -/
def Clock.steady (began pace : Time) : Clock where
  began
  shown := fun position turn ↦
    let now := began + pace * (position + turn)
    ⟨.still now, .still now⟩

/-- The settings with the budgets of a tick. -/
def Settings.withBudgets (settings : Settings) (tick : Tick) : Settings :=
  { settings with workTime := tick.workTime, warpTime := tick.warpTime }

/-- The world during the frame of a tick. -/
def World.during (w : World) (tick : Tick) : World :=
  w.under (w.settings.withBudgets tick)

@[simp]
theorem World.targets_during (w : World) (tick : Tick) : (w.during tick).targets = w.targets :=
  rfl

namespace Schedule

/-- The schedule as the frame of a tick finds it. -/
def prepare (s : Schedule) (tick : Tick) : Schedule where
  engine := { s.engine with settings := s.engine.settings.withBudgets tick }
  threads := s.threads.mapIdx fun i t ↦ if i ∈ tick.kills then { t with killed := true } else t

/-- Frames in order, each as its tick says. -/
def drive : List Tick → Schedule → Except Halt Schedule
  | [], s => .ok s
  | tick :: ticks, s => do
    let s ← (s.prepare tick).frame tick.clock tick.turns
    drive ticks s

variable {s s' : Schedule} {tick : Tick}

/-- A tick changes threads in nothing but their marks. -/
theorem getElem?_prepare (s : Schedule) (tick : Tick) (position : Nat) :
    (s.prepare tick).threads[position]? = (s.threads[position]?).map fun t ↦
      { t with killed := decide (position ∈ tick.kills) || t.killed } := by
  rw [prepare, List.getElem?_mapIdx]
  cases s.threads[position]? with
  | none => rfl
  | some t =>
    by_cases hkill : position ∈ tick.kills
    · simp [hkill]
    · simp [hkill]

/-- A run is its first frame, and the rest. -/
theorem drive_cons {ticks : List Tick}
    (hframe : (s.prepare tick).frame tick.clock tick.turns = .ok s') :
    s.drive (tick :: ticks) = s'.drive ticks := by
  rw [drive, hframe]
  rfl

namespace Driven

variable {w : World}

/-- The settings may change under way. -/
theorem under (h : Driven w s) (settings : Settings) :
    Driven (w.under settings) ⟨{ s.engine with settings }, s.threads⟩ where
  world := congrArg (World.mk settings) (congrArg World.targets h.world)
  lends := h.lends
  rests := by
    intro t hmem
    obtain ⟨target, lot, stack, hrests⟩ := h.rests t hmem
    exact ⟨target, lot, stack, hrests.under settings⟩

/-- A tick leaves a schedule driven. -/
theorem prepare (h : Driven w s) (tick : Tick) :
    Driven (w.during tick) (s.prepare tick) := by
  have hsettings : s.engine.settings = w.settings := congrArg World.settings h.world
  rw [World.during, ← hsettings]
  refine (h.under (s.engine.settings.withBudgets tick)).remark fun i ↦ ?_
  exact ⟨_, getElem?_prepare s tick i⟩

/-- **A whole run**, by induction from one frame: it does not fail unless it is cut short, and the
schedule stays driven, on the same targets. -/
theorem drive (ticks : List Tick) : ∀ {w : World} {s : Schedule}, Driven w s →
    Safely (fun s' ↦ ∃ settings, Driven (w.under settings) s') (s.drive ticks) := by
  induction ticks with
  | nil => exact fun h ↦ .ok ⟨_, h⟩
  | cons tick ticks ih =>
    intro w s h
    refine ((h.prepare tick).frame_safely tick.clock tick.turns).bind fun s₁ h₁ ↦ ?_
    -- The settings that a tick brings are forgotten at the next one.
    have hrest := ih h₁
    exact hrest

theorem of_drive {ticks : List Tick} (h : Driven w s) (hdrive : s.drive ticks = .ok s') :
    ∃ settings, Driven (w.under settings) s' := by
  have hsafely := drive ticks h
  rw [hdrive] at hsafely
  exact hsafely.of_ok

end Driven

end Schedule

end BlockScript
