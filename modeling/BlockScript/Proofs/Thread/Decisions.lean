import BlockScript.Proofs.Thread.Clock

/-!
# Clocks that decide alike

With budgets of nothing or without end it does not matter what the clock shows exactly: time is up
at every look at it, or at none (`Reading.Decides`). Two clocks that decide alike cut the same turns
out of the course of a thread. What the thread came to, what it asked for and what it looks like
afterwards are the same, except for its timer, which is what the clock showed
(`InlineThread.ButTimer.takeTurn`).

This is `InlineThread.stepBlock_blurred` once more, with a status that is not blurred at all:
yielding when it is due makes no difference as long as both clocks say that it is, or neither.
-/

namespace BlockScript

/-! ### Decisions -/

/-- The clock decides that the budget for warp mode is used up, since there is none, or that it is
not, since it is beyond what the clock shows. -/
def Moment.Decides (now : Moment) (warpTime : Time) (due : Bool) : Prop :=
  if due then warpTime = 0 else now.answered < warpTime

/-- **The clock decides** whether time is up for the frame, and whether it is for a stretch in warp
mode, whenever that began. -/
structure Reading.Decides (shown : Reading) (deadline warpTime : Time) (late due : Bool) :
    Prop where
  /-- Time is up for the frame, or it is not. -/
  late_iff : deadline ≤ shown.check.answered ↔ late = true
  /-- It is for the stretch, or it is not, while the step is made. -/
  step : shown.step.Decides warpTime due
  /-- And so while the time that is left is looked at. -/
  check : shown.check.Decides warpTime due

/-- The decision does not depend on when the stretch began. -/
theorem Moment.Decides.decide_eq {now : Moment} {warpTime : Time} {due : Bool}
    (h : now.Decides warpTime due) (began : Time) :
    decide (warpTime ≤ now.answered - began) = due := by
  rw [Moment.Decides] at h
  cases due with
  | true =>
    rw [if_pos rfl] at h
    simp [h]
  | false =>
    rw [if_neg Bool.false_ne_true] at h
    exact decide_eq_false (Nat.not_le.2 (Nat.lt_of_le_of_lt (Nat.sub_le _ began) h))

/-- Computations with the same image agree. -/
theorem Agree.of_map_eq {α β γ : Type} {f : α → γ} {g : β → γ} {x : Except Halt α}
    {y : Except Halt β} (h : x.map f = y.map g) : Agree (fun a b ↦ f a = g b) x y := by
  rcases x with cause | a <;> rcases y with cause' | b
  · cases h
    exact .error cause
  · cases h
  · cases h
  · exact .ok (Except.ok.inj h)

/-- Computations that agree have the same image. -/
theorem Agree.map_eq {α β γ : Type} {R : α → β → Prop} {f : α → γ} {g : β → γ} {x : Except Halt α}
    {y : Except Halt β} (h : Agree R x y) (hmap : ∀ a b, R a b → f a = g b) :
    x.map f = y.map g := by
  cases h with
  | ok hab => exact congrArg Except.ok (hmap _ _ hab)
  | error cause => rfl

namespace InlineThread

/-- The thread without its timer. -/
def timerless (t : InlineThread) : InlineThread :=
  { t with warpTimer := none }

/-- A result that comes with a value, without the timer. -/
def timerlessly {α : Type} (x : α × InlineThread) : α × InlineThread :=
  (x.1, x.2.timerless)

/-- Two threads that differ in their timers at most. -/
def ButTimer (t t' : InlineThread) : Prop :=
  t.timerless = t'.timerless

theorem isBlur_id : Status.IsBlur id :=
  ⟨rfl, fun _ ↦ rfl⟩

variable {w : World} {settings : Settings} {now : Moment} {shown shown' : Reading}
  {deadline deadline' : Time} {late due : Bool} {t t' : InlineThread}

/-- Whether a thread in warp mode has to yield is decided by the clock. -/
theorem shouldYield_of_decides (h : now.Decides w.settings.warpTime due) (t : InlineThread) :
    t.shouldYield w now = if t.inWarpMode then
      (due, t.withWarpTimer (some (t.warpTimer.getD now.asked))) else (true, t) := by
  rw [shouldYield, ← h.decide_eq (t.warpTimer.getD now.asked)]

/-! ### One turn, with the timer and without -/

section Turn

variable (h : shown.Decides deadline w.settings.warpTime late due)
  (h' : shown'.Decides deadline' settings.warpTime late due)

include h h'

/-- Whether a thread yields in a step does not depend on its timer. -/
theorem yieldIfDue_timerless (t : InlineThread) :
    (t.timerless.yieldIfDue (w.under settings) shown'.step).timerless =
      (t.yieldIfDue w shown.step).timerless := by
  have hstep' : shown'.step.Decides (w.under settings).settings.warpTime due := h'.step
  rw [yieldIfDue, yieldIfDue, shouldYield_of_decides h.step, shouldYield_of_decides hstep',
    show t.timerless.inWarpMode = t.inWarpMode from rfl]
  cases t.inWarpMode with
  | false => rfl
  | true => cases due <;> rfl

/-- **A step** does not depend on it either. -/
theorem stepBlock_timerless (hlive : t.status.awake = .running) :
    (t.timerless.stepBlock (w.under settings) shown'.step).map timerlessly =
      (t.stepBlock w shown.step).map timerlessly :=
  stepBlock_blurred isBlur_id (fun u _ ↦ yieldIfDue_timerless h h' u) hlive

/-- Nor does what follows it. -/
theorem yieldIfLate_timerless (t : InlineThread) :
    (t.timerless.yieldIfLate (w.under settings) shown'.check deadline').timerless =
      (t.yieldIfLate w shown.check deadline).timerless := by
  have hcheck' : shown'.check.Decides (w.under settings).settings.warpTime due := h'.check
  have hlate : decide (deadline ≤ shown.check.answered) = late := by simp [h.late_iff]
  have hlate' : decide (deadline' ≤ shown'.check.answered) = late := by simp [h'.late_iff]
  rw [yieldIfLate, yieldIfLate, show t.timerless.status = t.status from rfl]
  split
  · rw [outOfTime, outOfTime, shouldYield_of_decides h.check, shouldYield_of_decides hcheck',
      hlate, hlate', show t.timerless.inWarpMode = t.inWarpMode from rfl]
    cases t.inWarpMode with
    | false => cases late <;> rfl
    | true => cases due <;> rfl
  · rfl

end Turn

/-! ### Two threads that differ in their timers -/

namespace ButTimer

theorem status_eq (h : t.ButTimer t') : t.status = t'.status :=
  show t.timerless.status = t'.timerless.status from congrArg InlineThread.status h

theorem peek?_eq (h : t.ButTimer t') : t.peek? = t'.peek? :=
  show t.timerless.peek? = t'.timerless.peek? from congrArg InlineThread.peek? h

/-- Waking a thread does not look at its timer. -/
theorem wake (h : t.ButTimer t') : t.wake.ButTimer t'.wake := by
  rw [InlineThread.wake, InlineThread.wake, h.status_eq]
  split
  · exact congrArg (fun t ↦ t.withStatus .running) h
  · exact h

/-- Stopping a script is no matter of time. -/
theorem stopScript (h : t.ButTimer t') :
    Agree ButTimer (t.stopScript w) (t'.stopScript (w.under settings)) := by
  have hleft : t.timerless.stopScript (w.under settings) = (t.stopScript w).map timerless :=
    stopScript_blurred isBlur_id t
  have hright : t'.timerless.stopScript (w.under settings) =
      (t'.stopScript (w.under settings)).map timerless :=
    stopScript_blurred isBlur_id (w := w.under settings) t'
  exact .of_map_eq (by rw [← hleft, ← hright, h])

/-- And neither is ending a thread. -/
theorem kill (h : t.ButTimer t') :
    Agree ButTimer (t.kill w) (t'.kill (w.under settings)) := by
  have hleft : t.timerless.kill (w.under settings) = (t.kill w).map timerless :=
    kill_blurred isBlur_id t
  have hright : t'.timerless.kill (w.under settings) =
      (t'.kill (w.under settings)).map timerless :=
    kill_blurred isBlur_id (w := w.under settings) t'
  exact .of_map_eq (by rw [← hleft, ← hright, h])

/-- Results that are the same, the timers apart. -/
def OfResult {α : Type} (x y : α × InlineThread) : Prop :=
  x.1 = y.1 ∧ x.2.ButTimer y.2

/-- **One turn** of a thread at work, under two clocks that decide alike. Both sides are compared
with the thread that has no timer, under the second clock. -/
theorem turn (hsame : t.ButTimer t') (hrunning : t.status = .running)
    (h : shown.Decides deadline w.settings.warpTime late due)
    (h' : shown'.Decides deadline' settings.warpTime late due) :
    Agree OfResult (t.turn w shown deadline) (t'.turn (w.under settings) shown' deadline') := by
  have hself : shown'.Decides deadline' (w.under settings).settings.warpTime late due := h'
  have hawake : t.status.awake = .running := by rw [hrunning]; rfl
  have hawake' : t'.status.awake = .running := hsame.status_eq ▸ hawake
  have hstep : (t.stepBlock w shown.step).map timerlessly =
      (t'.stepBlock (w.under settings) shown'.step).map timerlessly :=
    calc (t.stepBlock w shown.step).map timerlessly
      _ = (t.timerless.stepBlock (w.under settings) shown'.step).map timerlessly :=
          (stepBlock_timerless h h' hawake).symm
      _ = (t'.timerless.stepBlock (w.under settings) shown'.step).map timerlessly := by rw [hsame]
      _ = (t'.stepBlock (w.under settings) shown'.step).map timerlessly :=
          stepBlock_timerless hself h' hawake'
  refine (Agree.of_map_eq hstep).bind ?_
  rintro ⟨request, u⟩ ⟨request', u'⟩ hresult
  obtain ⟨rfl, hu⟩ : request = request' ∧ u.timerless = u'.timerless := Prod.mk.inj hresult
  refine .ok ⟨rfl, ?_⟩
  calc (u.yieldIfLate w shown.check deadline).timerless
    _ = (u.timerless.yieldIfLate (w.under settings) shown'.check deadline').timerless :=
        (yieldIfLate_timerless h h' u).symm
    _ = (u'.timerless.yieldIfLate (w.under settings) shown'.check deadline').timerless := by
        rw [hu]
    _ = (u'.yieldIfLate (w.under settings) shown'.check deadline').timerless :=
        yieldIfLate_timerless hself h' u'

/-- **A slice**, by induction on the turns that it may have. -/
theorem slice (turns : Nat) : ∀ {readings readings' : Readings} {t t' : InlineThread},
    t.ButTimer t' → (∀ turn, (readings turn).Decides deadline w.settings.warpTime late due) →
    (∀ turn, (readings' turn).Decides deadline' settings.warpTime late due) →
    ∀ request : Option StopRequest,
      Agree (fun x y ↦ x.1 = y.1 ∧ OfResult x.2 y.2)
        (InlineThread.slice w deadline readings turns request t)
        (InlineThread.slice (w.under settings) deadline' readings' turns request t') := by
  induction turns with
  | zero =>
    intro readings readings' t t' hsame _ _ request
    rw [InlineThread.slice, InlineThread.slice, hsame.status_eq]
    split
    · exact .error _
    · exact .ok ⟨rfl, rfl, hsame⟩
  | succ turns ih =>
    intro readings readings' t t' hsame h h' request
    rw [InlineThread.slice, InlineThread.slice, hsame.status_eq, hsame.peek?_eq]
    split
    · next hrunning =>
      have hrunning' : t.status = .running := hsame.status_eq.trans hrunning
      refine (hsame.turn hrunning' (h 0) (h' 0)).bind ?_
      rintro ⟨latest, u⟩ ⟨_, u'⟩ ⟨rfl, hu⟩
      refine (ih hu (fun turn ↦ h (turn + 1)) (fun turn ↦ h' (turn + 1)) _).bind ?_
      rintro ⟨blocks, last⟩ ⟨_, last'⟩ ⟨rfl, hlast⟩
      exact .ok ⟨rfl, hlast⟩
    · exact .ok ⟨rfl, rfl, hsame⟩

/-- **A thread's turn in a frame**, under two clocks that decide alike. -/
theorem takeTurn {readings readings' : Readings} (hsame : t.ButTimer t')
    (h : ∀ turn, (readings turn).Decides deadline w.settings.warpTime late due)
    (h' : ∀ turn, (readings' turn).Decides deadline' settings.warpTime late due) (turns : Nat) :
    Agree (fun x y ↦ x.1 = y.1 ∧ OfResult x.2 y.2)
      (t.takeTurn w deadline readings turns)
      (t'.takeTurn (w.under settings) deadline' readings' turns) := by
  have hkilled : t.killed = t'.killed :=
    show t.timerless.killed = t'.timerless.killed from congrArg InlineThread.killed hsame
  have hprogram : t.program? = t'.program? :=
    show t.timerless.program? = t'.timerless.program? from congrArg InlineThread.program? hsame
  have htarget : t.target = t'.target :=
    show t.timerless.target = t'.timerless.target from congrArg InlineThread.target hsame
  rw [InlineThread.takeTurn, InlineThread.takeTurn, hkilled, hprogram, htarget]
  split
  · exact hsame.kill.map fun _ _ hu ↦ ⟨rfl, rfl, hu⟩
  · split
    · exact hsame.wake.stopScript.map fun _ _ hu ↦ ⟨rfl, rfl, hu⟩
    · exact ButTimer.slice turns hsame.wake h h' none

end ButTimer

end InlineThread

end BlockScript
