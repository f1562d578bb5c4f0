import BlockScript.Proofs.Activity.Turns

/-!
# The steps of a turn

A turn of a thread in a frame is a number of steps, and what the turn gives at its end is little of
what happened on the way: where the thread got to, and the **last** request that came up. This
module writes every step down (`Activity.steps`): the block that was executed, what it asked of the
other threads, and what the thread looked like afterwards.

The list is there whether the turn ends or not: a script that goes round for ever can be followed
for as many steps as one likes.

* `Mirrors.turnSteps`: the steps of a thread are those of the inline thread that it looks like;
* `InlineThread.slice_eq`: what a slice gives is read off its steps.
-/

namespace BlockScript

/-- One step of a thread, as it is seen from outside. -/
structure Step where
  /-- The block that was executed; none where a level was left. -/
  block : Option BlockId
  /-- What it asked of the other threads. -/
  request : Option StopRequest
  /-- What the thread looked like afterwards. -/
  after : InlineThread
deriving DecidableEq

namespace Activity

/-- The steps of a slice, of which there are at most so many. -/
def steps (deadline : Time) : Readings → Nat → Activity → List Step
  | _, 0, _ => []
  | shown, turns + 1, a =>
    if a.thread.status = .running then
      match a.turn (shown 0) deadline with
      | .ok (request, a') =>
        ⟨a.thread.peek?, request, a'.inline⟩ :: steps deadline shown.later turns a'
      | .error _ => []
    else []

/-- The steps of a thread's turn in a frame. Only a thread that is interpreted makes any. -/
def turnSteps (a : Activity) (deadline : Time) (shown : Readings) (turns : Nat) : List Step :=
  match a.begin with
  | .ok (true, a) => steps deadline shown turns a
  | _ => []

end Activity

namespace InlineThread

/-- The steps of a slice, of which there are at most so many. -/
def steps (w : World) (deadline : Time) : Readings → Nat → InlineThread → List Step
  | _, 0, _ => []
  | shown, turns + 1, t =>
    if t.status = .running then
      match t.turn w (shown 0) deadline with
      | .ok (request, t') => ⟨t.peek?, request, t'⟩ :: steps w deadline shown.later turns t'
      | .error _ => []
    else []

/-- The steps of a thread's turn in a frame. -/
def turnSteps (w : World) (t : InlineThread) (deadline : Time) (shown : Readings) (turns : Nat) :
    List Step :=
  if t.killed then []
  else
    match t.program? with
    | some _ => []
    | none => steps w deadline shown turns t.wake

/-- Where a thread is after these steps. -/
def afterSteps (t : InlineThread) (steps : List Step) : InlineThread :=
  (steps.getLast?.map Step.after).getD t

theorem afterSteps_cons (t : InlineThread) (step : Step) (steps : List Step) :
    t.afterSteps (step :: steps) = step.after.afterSteps steps := by
  rw [afterSteps, afterSteps, List.getLast?_cons, Option.map_some, Option.getD_some]
  cases steps.getLast? <;> rfl

variable {w : World} {deadline : Time} {shown : Readings}

theorem steps_of_turn {t t' : InlineThread} {request : Option StopRequest}
    (hrunning : t.status = .running) (hturn : t.turn w (shown 0) deadline = .ok (request, t'))
    (turns : Nat) :
    steps w deadline shown (turns + 1) t =
      ⟨t.peek?, request, t'⟩ :: steps w deadline shown.later turns t' := by
  rw [steps, if_pos hrunning, hturn]

theorem steps_of_not_running {t : InlineThread} (hrunning : t.status ≠ .running) (turns : Nat) :
    steps w deadline shown turns t = [] := by
  cases turns with
  | zero => rfl
  | succ turns => rw [steps, if_neg hrunning]

/-- **A slice and its steps.** The blocks that the thread came to are those of the steps, the
request that is kept is the last one, and the thread is where the last step left it. -/
theorem slice_eq (turns : Nat) : ∀ {t t' : InlineThread} {request last : Option StopRequest}
    {blocks : List BlockId}, slice w deadline shown turns request t = .ok (blocks, last, t') →
      blocks = (steps w deadline shown turns t).filterMap Step.block ∧
      last = ((steps w deadline shown turns t).filterMap Step.request).getLast?.or request ∧
      t' = t.afterSteps (steps w deadline shown turns t) := by
  induction turns generalizing shown with
  | zero =>
    intro t t' request last blocks hslice
    rw [slice] at hslice
    split at hslice
    · cases hslice
    · cases hslice
      exact ⟨rfl, rfl, rfl⟩
  | succ turns ih =>
    intro t t' request last blocks hslice
    rw [slice] at hslice
    split at hslice
    · obtain ⟨⟨latest, t₁⟩, hturn, hslice₁⟩ := exists_of_bind_eq_ok hslice
      obtain ⟨⟨blocks₁, last₁, t₂⟩, hrest, hslice₂⟩ := exists_of_bind_eq_ok hslice₁
      cases hslice₂
      obtain ⟨rfl, rfl, rfl⟩ := ih hrest
      rw [steps_of_turn ‹_› hturn, afterSteps_cons]
      refine ⟨?_, ?_, rfl⟩
      · rw [List.filterMap_cons]
        cases t.peek? <;> rfl
      · rw [List.filterMap_cons]
        cases latest with
        | none => rfl
        | some latest =>
          dsimp only
          rw [List.getLast?_cons, Option.some_or, Option.some_or]
          cases (List.filterMap Step.request _).getLast? <;> rfl
    · cases hslice
      rw [steps_of_not_running ‹_›]
      exact ⟨rfl, rfl, rfl⟩

/-- A turn has no steps, or those of the slice that the thread wakes up to. -/
theorem turnSteps_eq_or (w : World) (t : InlineThread) (deadline : Time) (shown : Readings)
    (turns : Nat) :
    t.turnSteps w deadline shown turns = [] ∨
      t.turnSteps w deadline shown turns = steps w deadline shown turns t.wake := by
  rw [turnSteps]
  split
  · exact .inl rfl
  · split
    · exact .inl rfl
    · exact .inr rfl

variable {t t' : InlineThread} {turns : Nat} {request : Option StopRequest} {blocks : List BlockId}

theorem turnSteps_of_killed (hkilled : t.killed = true) :
    t.turnSteps w deadline shown turns = [] := by
  rw [turnSteps, if_pos hkilled]

/-- Only a thread that is interpreted makes steps. -/
theorem interpreted_of_mem_turnSteps {step : Step}
    (hmem : step ∈ t.turnSteps w deadline shown turns) : t.killed = false ∧ t.program? = none := by
  rw [turnSteps] at hmem
  split at hmem
  · cases hmem
  · split at hmem
    · cases hmem
    · exact ⟨Bool.eq_false_iff.2 ‹_›, ‹_›⟩

/-- **A turn and its steps.** The request that leaves the turn is the last one. -/
theorem request_eq_of_takeTurn
    (hturn : t.takeTurn w deadline shown turns = .ok (blocks, request, t')) :
    request = ((t.turnSteps w deadline shown turns).filterMap Step.request).getLast? := by
  rw [takeTurn] at hturn
  rw [turnSteps]
  split at hturn
  · rw [if_pos ‹_›]
    cases hkill : t.kill w with
    | error cause => rw [hkill] at hturn; cases hturn
    | ok t₁ => rw [hkill] at hturn; cases hturn; rfl
  · rw [if_neg ‹_›]
    cases hprogram : t.program? with
    | some program =>
      rw [hprogram] at hturn
      dsimp only at hturn
      cases hstop : t.wake.stopScript w with
      | error cause => rw [hstop] at hturn; cases hturn
      | ok t₁ => rw [hstop] at hturn; cases hturn; rfl
    | none =>
      rw [hprogram] at hturn
      exact (slice_eq turns hturn).2.1.trans (Option.or_none)

/-- A thread that is interpreted is where the last step of its turn left it. -/
theorem eq_afterSteps_of_takeTurn (hkilled : t.killed = false) (hprogram : t.program? = none)
    (hturn : t.takeTurn w deadline shown turns = .ok (blocks, request, t')) :
    t' = t.wake.afterSteps (t.turnSteps w deadline shown turns) := by
  rw [takeTurn, hkilled, hprogram] at hturn
  rw [turnSteps, hkilled, hprogram]
  exact (slice_eq turns hturn).2.2

end InlineThread

namespace Mirrors

variable {e : Engine} {others : List FrameId} {a : Activity} {t : InlineThread}

theorem steps (deadline : Time) (shown : Readings) (turns : Nat) : ∀ {e : Engine} {a : Activity}
    {t : InlineThread}, Mirrors e others a t →
      Activity.steps deadline shown turns a =
        InlineThread.steps e.world deadline shown turns t := by
  induction turns generalizing shown with
  | zero => exact fun _ ↦ rfl
  | succ turns ih =>
    intro e a t h
    rw [Activity.steps, InlineThread.steps, h.status_eq, h.peek?_eq]
    split
    · have hturn := h.turn (shown 0) deadline
      rcases hresult : a.turn (shown 0) deadline with cause | ⟨request, a'⟩
      · rw [hresult] at hturn
        rw [hturn.eq_error]
      · rw [hresult] at hturn
        obtain ⟨⟨request', t'⟩, hok, hrequest, h'⟩ := hturn.exists_right
        obtain rfl : request = request' := hrequest
        have hrest := ih shown.later h'.mirrors
        rw [h'.world] at hrest
        rw [hok]
        dsimp only
        rw [hrest, h'.inline]
    · rfl

/-- **The steps of a turn** are those of the inline thread. -/
theorem turnSteps (h : Mirrors e others a t) (deadline : Time) (shown : Readings) (turns : Nat) :
    a.turnSteps deadline shown turns = t.turnSteps e.world deadline shown turns := by
  have hkilled : a.thread.killed = t.killed := by rw [← h.inline]; rfl
  have hprogram : a.wake.thread.program? = t.program? := by
    rw [← h.inline, Activity.wake]
    split <;> rfl
  rw [Activity.turnSteps, Activity.begin, InlineThread.turnSteps, hkilled]
  cases t.killed with
  | true =>
    simp only [if_true]
    cases a.kill <;> rfl
  | false =>
    simp only [Bool.false_eq_true, if_false, hprogram]
    cases t.program? with
    | none => exact h.wake.steps deadline shown turns
    | some program =>
      dsimp only
      cases a.wake.runProgram program <;> rfl

end Mirrors

end BlockScript
