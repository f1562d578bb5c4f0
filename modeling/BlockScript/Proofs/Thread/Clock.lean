import BlockScript.Proofs.Activity.Steps

/-!
# Steps without a clock

Time decides when a thread yields, and nothing else. `InlineThread.blurred` forgets what time can
change of a thread: its timer, and as much of its status as one likes. Every operation keeps step
with its image: it does to the blurred thread, under any settings and at any time, what it does to
the thread itself, provided that this is so of yielding when it is due (`stepBlock_blurred`).

That much is true if it is forgotten whether a thread waits for its next turn
(`InlineThread.timeless`), and the look at the clock that follows a step is not seen at all then
(`timeless_yieldIfLate`). So the next step is a function of the targets and of the timeless thread
(`InlineThread.pace`), and so is the course that a thread takes for any number of steps
(`InlineThread.course`). What a slice does, however long it is, is the beginning of that course
(`map_timeless_steps`).
-/

namespace BlockScript

/-- What a thread is doing once it has its next turn. -/
def Status.awake : Status → Status
  | .yield => .running
  | .yieldTick => .running
  | status => status

@[simp]
theorem Status.awake_awake (status : Status) : status.awake.awake = status.awake := by
  cases status <;> rfl

/-- A way to forget something about the status, but not that a thread is done. -/
structure Status.IsBlur (blur : Status → Status) : Prop where
  /-- A thread that is done is seen to be. -/
  done : blur .done = .done
  /-- What is forgotten is forgotten at once. -/
  idem : ∀ status, blur (blur status) = blur status

/-- Being awake is all that time can decide about. -/
theorem Status.isBlur_awake : Status.IsBlur Status.awake :=
  ⟨rfl, awake_awake⟩

namespace InlineThread

/-- The thread with its status blurred and without its timer. -/
def blurred (blur : Status → Status) (t : InlineThread) : InlineThread :=
  { t with status := blur t.status, warpTimer := none }

/-- A result that comes with a value, blurred. -/
def blurring (blur : Status → Status) {α : Type} (x : α × InlineThread) : α × InlineThread :=
  (x.1, x.2.blurred blur)

/-- The thread without what time can change. -/
def timeless (t : InlineThread) : InlineThread :=
  { t with status := t.status.awake, warpTimer := none }

/-- A result that comes with a value, without what time can change. -/
def timelessly {α : Type} (x : α × InlineThread) : α × InlineThread :=
  (x.1, x.2.timeless)

@[simp]
theorem timeless_timeless (t : InlineThread) : t.timeless.timeless = t.timeless := by
  simp [timeless]

/-- Waking a thread makes no difference to it without time. -/
theorem timeless_wake (t : InlineThread) : t.wake.timeless = t.timeless := by
  rw [wake]
  split
  · rename_i hyield
    rcases hyield with hyield | hyield <;> simp [timeless, withStatus, hyield, Status.awake]
  · rfl

/-! ### Operations on the stack -/

section Stack

variable (blur : Status → Status) (w : World) (settings : Settings) (t : InlineThread)

/-- Leaving a level is no matter of the status or the timer. -/
theorem pop_blurred : (t.blurred blur).pop = t.pop.map (blurring blur) := by
  rcases t with
    ⟨_, - | ⟨⟨_, _, - | -⟩, rest⟩, _, - | ⟨target, targetStack⟩, _, _, _, _, _, _, _⟩ <;> rfl

/-- Nor does it change the status. -/
theorem status_of_pop {t : InlineThread} {result : Option BlockId × InlineThread}
    (h : t.pop = .ok result) : result.2.status = t.status := by
  rcases t with
    ⟨_, - | ⟨⟨_, _, - | -⟩, rest⟩, _, - | ⟨target, targetStack⟩, _, _, _, _, _, _, _⟩ <;>
    cases h <;> rfl

/-- Neither is moving on. -/
theorem advance_blurred :
    (t.blurred blur).advance (w.under settings) = (t.advance w).map (blurred blur) := by
  rcases t with ⟨_, - | ⟨level, rest⟩, _, _, _, _, _, _, _, _, _⟩ <;> rfl

theorem enterOrAdvance_blurred (b : Block) :
    (t.blurred blur).enterOrAdvance (w.under settings) b =
      (t.enterOrAdvance w b).map (blurred blur) := by
  rw [enterOrAdvance, enterOrAdvance]
  cases b.substack? with
  | none => exact advance_blurred blur w settings t
  | some body => rfl

/-- Unwinding only leaves levels and moves on. -/
theorem unwind_blurred (rounds : Nat) : ∀ t : InlineThread,
    (t.blurred blur).unwind (w.under settings) rounds =
      (t.unwind w rounds).map (blurred blur) := by
  induction rounds with
  | zero => exact fun t ↦ rfl
  | succ rounds ih =>
    intro t
    rw [unwind, unwind, show (t.blurred blur).levels = t.levels from rfl]
    cases t.levels with
    | nil => rfl
    | cons level rest =>
      dsimp only
      rw [show (t.blurred blur).isCall (w.under settings) level = t.isCall w level from rfl]
      cases level.frame.waitingReporter with
      | true => rfl
      | false =>
        cases t.isCall w level with
        | true => exact advance_blurred blur w settings t
        | false =>
          simp only [Bool.false_eq_true, if_false, pop_blurred]
          rcases t.pop with cause | ⟨block, t₁⟩
          · rfl
          · exact ih t₁

/-- So does leaving all levels. -/
theorem unwindAll_blurred (rounds : Nat) : ∀ t : InlineThread,
    (t.blurred blur).unwindAll rounds = (t.unwindAll rounds).map (blurred blur) := by
  induction rounds with
  | zero => exact fun t ↦ rfl
  | succ rounds ih =>
    intro t
    rw [unwindAll, unwindAll, pop_blurred]
    rcases t.pop with cause | ⟨block, t₁⟩
    · rfl
    · exact ih t₁

end Stack

section Blurred

variable {blur : Status → Status} (hblur : Status.IsBlur blur) {w : World} {settings : Settings}

include hblur

/-- What is blurred already does not change. -/
theorem blurred_blurred (t : InlineThread) : (t.blurred blur).blurred blur = t.blurred blur := by
  simp [blurred, hblur.idem]

theorem map_blurred_map (x : Except Halt InlineThread) :
    (x.map (blurred blur)).map (blurred blur) = x.map (blurred blur) := by
  cases x with
  | error cause => rfl
  | ok t => exact congrArg Except.ok (blurred_blurred hblur t)

/-- A thread without levels is done, however it is looked at. -/
theorem settle_blurred (t : InlineThread) :
    (t.blurred blur).settle = t.settle.blurred blur := by
  rcases t with ⟨_, - | ⟨level, rest⟩, _, _, _, _, _, _, _, _, _⟩
  · simp [settle, blurred, hblur.done]
  · rfl

/-- **Stopping a script** is no matter of time. -/
theorem stopScript_blurred (t : InlineThread) :
    (t.blurred blur).stopScript (w.under settings) = (t.stopScript w).map (blurred blur) := by
  rw [stopScript, stopScript, show (t.blurred blur).depth = t.depth from rfl,
    unwind_blurred]
  rcases t.unwind w t.depth with cause | t₁
  · rfl
  · exact congrArg Except.ok (settle_blurred hblur t₁)

/-- And neither is **ending a thread**. -/
theorem kill_blurred (t : InlineThread) :
    (t.blurred blur).kill (w.under settings) = (t.kill w).map (blurred blur) := by
  rw [kill, kill, show (t.blurred blur).depth = t.depth from rfl, unwindAll_blurred]
  rcases t.unwindAll t.depth with cause | t₁
  · rfl
  · exact stopScript_blurred hblur t₁

/-! ### Executing blocks

From here on a step may yield, so that both sides are compared blurred, and it matters that a thread
which yields if that is due does so on both. -/

/-- An endless loop yields on its way, which is blurred. -/
theorem enterLoop_blurred (t : InlineThread) (b : Block) :
    ((t.blurred blur).enterLoop b).blurred blur = (t.enterLoop b).blurred blur := by
  rw [enterLoop, enterLoop]
  cases b.substack? with
  | none => rfl
  | some body =>
    exact blurred_blurred hblur ((t.modifyTopFrame fun frame ↦ { frame with isLoop := true }).push
      body none)

variable {t : InlineThread} {now now' : Moment}
  (hdue : ∀ u : InlineThread, u.status.awake = .running →
    ((u.blurred blur).yieldIfDue (w.under settings) now').blurred blur =
      (u.yieldIfDue w now).blurred blur)

include hdue

/-- A recursive call may yield, if time is up by one clock or by the other. -/
theorem enterProcedure_blurred (hlive : t.status.awake = .running) (b : Block) (code : String)
    (body : BlockId) :
    ((t.blurred blur).enterProcedure (w.under settings) now' b code body).blurred blur =
      (t.enterProcedure w now b code body).blurred blur := by
  have hentered : ∀ u : InlineThread, u.status.awake = .running →
      (if t.isRecursiveCall w code then (u.blurred blur).yieldIfDue (w.under settings) now'
        else u.blurred blur).blurred blur =
      (if t.isRecursiveCall w code then u.yieldIfDue w now else u).blurred blur := by
    intro u hu
    split
    · exact hdue u hu
    · exact blurred_blurred hblur u
  rw [enterProcedure, enterProcedure,
    show (t.blurred blur).isRecursiveCall (w.under settings) code = t.isRecursiveCall w code
      from rfl]
  cases b.isWarp with
  | false => exact hentered (t.initParams.push body none) hlive
  | true =>
    exact hentered ((t.initParams.push body none).modifyTopFrame
      fun frame ↦ { frame with warpMode := true }) hlive

/-- A call comes to the same procedure. -/
theorem call_blurred (hlive : t.status.awake = .running) (b : Block) :
    ((t.blurred blur).call (w.under settings) now' b).map (blurred blur) =
      (t.call w now b).map (blurred blur) := by
  have hadvance : ((t.blurred blur).advance (w.under settings)).map (blurred blur) =
      (t.advance w).map (blurred blur) := by
    rw [advance_blurred, map_blurred_map hblur]
  rw [call, call]
  cases b.proccode with
  | none => exact hadvance
  | some code =>
    dsimp only
    rw [show (w.under settings).procedureBody? (t.blurred blur).target code =
      w.procedureBody? t.target code from rfl]
    cases w.procedureBody? t.target code with
    | none => exact hadvance
    | some body =>
      exact congrArg Except.ok (enterProcedure_blurred hblur hdue hlive b code body)

omit hblur hdue in
/-- A request beside a thread is not blurred. -/
theorem map_blurring_of_map_blurred {x y : Except Halt InlineThread}
    (request : Option StopRequest) (h : x.map (blurred blur) = y.map (blurred blur)) :
    (x.map fun t ↦ (request, t)).map (blurring blur) =
      (y.map fun t ↦ (request, t)).map (blurring blur) := by
  have hmap : ∀ z : Except Halt InlineThread, (z.map fun t ↦ (request, t)).map (blurring blur) =
      (z.map (blurred blur)).map fun t ↦ (request, t) := by
    intro z
    cases z <;> rfl
  rw [hmap, hmap, h]

/-- **Performing a block**, with one case for each command. -/
theorem perform_blurred (hlive : t.status.awake = .running) (b : Block) :
    ((t.blurred blur).perform (w.under settings) now' b).map (blurring blur) =
      (t.perform w now b).map (blurring blur) := by
  rw [perform, perform]
  cases b.command with
  | stopAll =>
    refine map_blurring_of_map_blurred _ ?_
    rw [kill_blurred hblur, map_blurred_map hblur]
  | stopOthers =>
    refine map_blurring_of_map_blurred _ ?_
    rw [advance_blurred, map_blurred_map hblur]
  | stopThis =>
    refine map_blurring_of_map_blurred _ ?_
    rw [stopScript_blurred hblur, map_blurred_map hblur]
  | forever => exact congrArg (fun t ↦ Except.ok (none, t)) (enterLoop_blurred hblur t b)
  | call => exact map_blurring_of_map_blurred _ (call_blurred hblur hdue hlive b)
  | plain =>
    refine map_blurring_of_map_blurred _ ?_
    rw [enterOrAdvance_blurred, map_blurred_map hblur]

/-- Executing a block, which may not exist. -/
theorem execute_blurred (hlive : t.status.awake = .running) (id : BlockId) :
    ((t.blurred blur).execute (w.under settings) now' id).map (blurring blur) =
      (t.execute w now id).map (blurring blur) := by
  rw [execute, execute, show (w.under settings).resolve? (t.blurred blur).target id =
    w.resolve? t.target id from rfl]
  cases w.resolve? t.target id with
  | none =>
    refine map_blurring_of_map_blurred _ ?_
    rw [stopScript_blurred hblur, map_blurred_map hblur]
  | some b =>
    have hglow : ({ t with blockGlow := some id } : InlineThread).status.awake = .running := hlive
    exact perform_blurred hblur hdue hglow b

/-- Coming back to an enclosing block, which may be a loop. -/
theorem resume_blurred (hlive : t.status.awake = .running) (parent : BlockId) :
    ((t.blurred blur).resume (w.under settings) now' parent).map (blurred blur) =
      (t.resume w now parent).map (blurred blur) := by
  rw [resume, resume, show (t.blurred blur).topFrame? = t.topFrame? from rfl,
    show (w.under settings).substack? (t.blurred blur).target parent = w.substack? t.target parent
      from rfl]
  cases t.topFrame?.elim false Frame.isLoop with
  | false =>
    simp only [Bool.false_eq_true, if_false]
    rw [advance_blurred, map_blurred_map hblur]
  | true =>
    cases w.substack? t.target parent with
    | none => exact congrArg Except.ok (hdue t hlive)
    | some body => exact congrArg Except.ok (hdue (t.push body none) hlive)

/-- **One step** of a thread at work, whatever the settings and the time, as long as they agree on
what is due. -/
theorem stepBlock_blurred (hlive : t.status.awake = .running) :
    ((t.blurred blur).stepBlock (w.under settings) now').map (blurring blur) =
      (t.stepBlock w now).map (blurring blur) := by
  rw [stepBlock, stepBlock, show (t.blurred blur).peek? = t.peek? from rfl]
  cases t.peek? with
  | some id => exact execute_blurred hblur hdue hlive id
  | none =>
    dsimp only
    rw [pop_blurred]
    rcases hpop : t.pop with cause | ⟨block, t₁⟩
    · rfl
    · have hlive₁ : t₁.status.awake = .running := by
        rw [status_of_pop hpop]
        exact hlive
      rw [show Except.map (blurring blur) (Except.ok (block, t₁)) = .ok (block, t₁.blurred blur)
        from rfl]
      simp only [bind, Except.bind]
      rw [show (t₁.blurred blur).peek? = t₁.peek? from rfl]
      cases t₁.peek? with
      | none =>
        refine map_blurring_of_map_blurred _ ?_
        rw [stopScript_blurred hblur, map_blurred_map hblur]
      | some parent =>
        exact map_blurring_of_map_blurred _ (resume_blurred hblur hdue hlive₁ parent)

end Blurred

/-! ### What time cannot change -/

variable {w : World} {settings : Settings} {t : InlineThread} {now now' : Moment}

/-- A thread at work that yields is the same thread afterwards. -/
theorem timeless_yield (hlive : t.status.awake = .running) : t.yield.timeless = t.timeless := by
  show ({ t with status := .running, warpTimer := none } : InlineThread) = t.timeless
  rw [timeless, hlive]

/-- Without time one does not see whether a thread yielded. -/
theorem timeless_yieldIfDue (hlive : t.status.awake = .running) (w : World) (now : Moment) :
    (t.yieldIfDue w now).timeless = t.timeless := by
  rw [yieldIfDue, shouldYield]
  cases t.inWarpMode with
  | true =>
    simp only [if_true]
    split
    · exact timeless_yield hlive
    · rfl
  | false => exact timeless_yield hlive

theorem yieldIfDue_timeless (hlive : t.status.awake = .running) (w w' : World) (now now' : Moment) :
    (t.timeless.yieldIfDue w' now').timeless = (t.yieldIfDue w now).timeless := by
  have hawake : t.timeless.status.awake = .running := (Status.awake_awake t.status).trans hlive
  rw [timeless_yieldIfDue hawake, timeless_yieldIfDue hlive, timeless_timeless]

/-- **One step** of a thread at work, whatever the settings and the time. -/
theorem stepBlock_timeless (hlive : t.status.awake = .running) :
    (t.timeless.stepBlock (w.under settings) now').map timelessly =
      (t.stepBlock w now).map timelessly :=
  stepBlock_blurred Status.isBlur_awake
    (fun _ hu ↦ yieldIfDue_timeless hu w (w.under settings) now now') hlive

/-- The look at the clock that follows a step is not seen. -/
theorem timeless_yieldIfLate (w : World) (t : InlineThread) (now : Moment) (deadline : Time) :
    (t.yieldIfLate w now deadline).timeless = t.timeless := by
  rw [yieldIfLate]
  split
  · next hrunning =>
    have hlate : t.outOfTime w now deadline = ((t.outOfTime w now deadline).1,
        t.withWarpTimer (t.outOfTime w now deadline).2.warpTimer) := by
      rw [outOfTime, shouldYield]
      cases t.inWarpMode <;> rfl
    rw [hlate]
    dsimp only
    split
    · exact timeless_yield (show t.status.awake = .running by rw [hrunning]; rfl)
    · rfl
  · rfl

/-- The second half of a turn, which looks at the time that is left, cannot be seen. -/
theorem turn_timeless (w : World) (t : InlineThread) (shown : Reading) (deadline : Time) :
    (t.turn w shown deadline).map timelessly = (t.stepBlock w shown.step).map timelessly := by
  rw [turn]
  rcases t.stepBlock w shown.step with cause | ⟨request, t₁⟩
  · rfl
  · exact congrArg (fun t ↦ Except.ok (request, t)) (timeless_yieldIfLate w t₁ shown.check deadline)

/-! ### The course of a thread -/

/-- The step that a thread makes, whatever the clock says. -/
def pace (targets : List Target) (t : InlineThread) :
    Except Halt (Option StopRequest × InlineThread) :=
  (t.timeless.stepBlock ⟨default, targets⟩ 0).map timelessly

/-- **The next step is a function of the targets and of the timeless thread.** -/
theorem map_timelessly_turn (hlive : t.status.awake = .running) (w : World) (shown : Reading)
    (deadline : Time) :
    (t.turn w shown deadline).map timelessly = t.timeless.pace w.targets := by
  rw [turn_timeless, pace, timeless_timeless]
  exact (stepBlock_timeless hlive).symm

/-- The first so many steps that a thread makes, if it makes as many. -/
def course (targets : List Target) : Nat → InlineThread → List Step
  | 0, _ => []
  | n + 1, t =>
    if t.status = .running then
      match t.pace targets with
      | .ok (request, t') => ⟨t.peek?, request, t'⟩ :: course targets n t'
      | .error _ => []
    else []

variable {targets : List Target}

/-- A shorter course is the beginning of a longer one. -/
theorem take_course {k : Nat} : ∀ {n : Nat} {t : InlineThread}, k ≤ n →
    (course targets n t).take k = course targets k t := by
  induction k with
  | zero => exact fun _ ↦ List.take_zero
  | succ k ih =>
    intro n t hle
    obtain ⟨n, rfl⟩ : ∃ m, n = m + 1 := ⟨n - 1, by omega⟩
    rw [course, course]
    split
    · cases t.pace targets with
      | error cause => rfl
      | ok result => exact congrArg _ (ih (Nat.le_of_succ_le_succ hle))
    · rfl

/-- A course that is taken up where an earlier part of it ended. -/
theorem course_add (n : Nat) {m : Nat} : ∀ {t : InlineThread}, (course targets m t).length = m →
    course targets (m + n) t =
      course targets m t ++ course targets n (t.afterSteps (course targets m t)) := by
  induction m with
  | zero =>
    intro t hlength
    rw [Nat.zero_add]
    rfl
  | succ m ih =>
    intro t hlength
    rw [Nat.succ_add]
    rw [course] at hlength ⊢
    rw [course]
    split at hlength
    · rw [if_pos ‹_›, if_pos ‹_›]
      rcases hpace : t.pace targets with cause | ⟨request, t'⟩
      · rw [hpace] at hlength
        cases hlength
      · rw [hpace] at hlength
        dsimp only at hlength ⊢
        rw [ih (Nat.succ.inj hlength), List.cons_append, afterSteps_cons]
    · cases hlength

end InlineThread

/-- The step without what time can change. -/
def Step.timeless (step : Step) : Step :=
  { step with after := step.after.timeless }

namespace InlineThread

/-- The steps that were made may be seen without time as well. -/
theorem timeless_afterSteps (t : InlineThread) (steps : List Step) :
    (t.afterSteps steps).timeless = t.timeless.afterSteps (steps.map Step.timeless) := by
  rw [afterSteps, afterSteps, List.getLast?_map]
  cases steps.getLast? <;> rfl

/-- **The steps of a slice** are the beginning of the course, whatever the settings, the time, and
the number of steps that the slice was granted. -/
theorem map_timeless_steps {w : World} {deadline : Time} {shown : Readings} (turns : Nat) :
    ∀ t : InlineThread,
    (steps w deadline shown turns t).map Step.timeless =
      course w.targets (steps w deadline shown turns t).length t.timeless := by
  induction turns generalizing shown with
  | zero => exact fun t ↦ rfl
  | succ turns ih =>
    intro t
    by_cases hrunning : t.status = .running
    · have hawake : t.status.awake = .running := by rw [hrunning]; rfl
      have hpace := map_timelessly_turn hawake w (shown 0) deadline
      rcases hturn : t.turn w (shown 0) deadline with cause | ⟨request, t'⟩
      · rw [steps, if_pos hrunning, hturn]
        rfl
      · rw [hturn] at hpace
        rw [steps_of_turn hrunning hturn, List.map_cons, List.length_cons, course,
          if_pos (show t.timeless.status = .running from hawake), ← hpace, ih]
        rfl
    · rw [steps_of_not_running hrunning]
      rfl

end InlineThread

end BlockScript
