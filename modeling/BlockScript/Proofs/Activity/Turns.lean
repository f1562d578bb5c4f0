import BlockScript.Proofs.Activity.Refinement

/-!
# A thread's turn, with frames pooled and inline

`BlockScript.Proofs.Activity.Refinement` compares the operations on a stack. This module carries the
comparison on to what drives a thread: executing a block, one step, a slice of steps, and the whole
turn that a thread has in a frame.

Unlike the operations on the stack, these leave more than traces in the journal. What they leave is
the **blocks that the thread came to**, in order (`Engine.blocksRun`), so that the relation gets one
more argument: `Reports e others blocks a t` says that the activity looks like `t`, has kept its
hands off what is not its own since `e`, and has come to `blocks` in the meantime. An inline thread
has no journal; there a turn gives the blocks as part of its result (`InlineThread.slice`,
`InlineThread.takeTurn`).

`Mirrors.takeTurn` is what later modules use: a turn on pooled frames is a turn on inline frames.
-/

namespace BlockScript

/-! ### The blocks that were come to -/

/-- The block that an event says a script came to, whether it exists or not. -/
def Event.block? : Event → Option BlockId
  | .missing _ block => some block
  | .executed _ block _ _ => some block
  | .ranCompiled _ block _ => some block
  | _ => none

/-- The blocks that scripts came to, in order. -/
def Engine.blocksRun (e : Engine) : List BlockId :=
  e.history.filterMap Event.block?

/-- What is only traced reports no block. -/
theorem Event.block?_of_trace {event : Event} (h : event.severity = .trace) :
    event.block? = none := by
  cases event <;> first | rfl | cases h

/-- A block is run when it is reported. -/
theorem Engine.blocksRun_note (e : Engine) (event : Event) :
    (e.note event).blocksRun = e.blocksRun ++ event.block?.toList := by
  rw [blocksRun, history_note, List.filterMap_append]
  cases h : event.block? <;> simp [blocksRun, h]

/-- Traces say nothing of the blocks that were come to. -/
theorem Engine.blocksRun_eq (e : Engine) :
    e.blocksRun = e.chronicle.reverse.filterMap Event.block? := by
  rw [blocksRun, history, chronicle, ← List.filter_reverse, List.filterMap_filter]
  refine List.filterMap_congr fun event _ ↦ ?_
  by_cases htrace : event.severity = .trace
  · rw [Event.block?_of_trace htrace]
    simp
  · simp [htrace]

/-- The activity looks like the inline thread, has come to these blocks since the earlier engine
`e`, and has kept its hands off what is not its own. -/
structure Reports (e : Engine) (others : List FrameId) (blocks : List BlockId) (a : Activity)
    (t : InlineThread) : Prop where
  /-- The settings and the targets are the same. -/
  world : a.engine.world = e.world
  /-- The blocks that were come to. -/
  blocksRun : a.engine.blocksRun = e.blocksRun ++ blocks
  /-- The pool has lent out the frames of the thread and those of the others. -/
  lends : a.engine.pool.Lends (a.thread.frames ++ others)
  /-- The frames of the others are the same. -/
  kept : ∀ id ∈ others, a.engine.pool.frameAt id = e.pool.frameAt id
  /-- The thread of the activity is the inline thread. -/
  inline : a.inline = t

/-- Results that come with a value: the values are equal, and the states are related. -/
def Reports.WithValue {α : Type} (e : Engine) (others : List FrameId) (blocks : List BlockId)
    (x : α × Activity) (y : α × InlineThread) : Prop :=
  x.1 = y.1 ∧ Reports e others blocks x.2 y.2

namespace Reports

variable {e : Engine} {others : List FrameId} {blocks blocks' : List BlockId} {a a' : Activity}
  {t t' : InlineThread}

/-- Whatever happened before, an activity spares everything that it has not touched yet. -/
theorem mirrors (h : Reports e others blocks a t) : Mirrors a.engine others a t :=
  ⟨⟨rfl, rfl, h.lends, fun _ _ ↦ rfl⟩, h.inline⟩

/-- One report after another is the report of both. -/
theorem trans (h : Reports e others blocks a t) (h' : Reports a.engine others blocks' a' t') :
    Reports e others (blocks ++ blocks') a' t' where
  world := h'.world.trans h.world
  blocksRun := by rw [h'.blocksRun, h.blocksRun, List.append_assoc]
  lends := h'.lends
  kept := fun id hmem ↦ (h'.kept id hmem).trans (h.kept id hmem)
  inline := h'.inline

/-- Work that comes to no block. -/
theorem then_mirrors (h : Reports e others blocks a t) (h' : Mirrors a.engine others a' t') :
    Reports e others blocks a' t' where
  world := h'.world.trans h.world
  blocksRun := by rw [Engine.blocksRun_eq, h'.chronicle, ← Engine.blocksRun_eq, h.blocksRun]
  lends := h'.lends
  kept := fun id hmem ↦ (h'.kept id hmem).trans (h.kept id hmem)
  inline := h'.inline

end Reports

namespace Mirrors

open Activity

variable {e : Engine} {others : List FrameId} {a : Activity} {t : InlineThread}

/-- Operations that only mirror each other come to no block. -/
theorem reports (h : Mirrors e others a t) : Reports e others [] a t where
  world := h.world
  blocksRun := by
    rw [Engine.blocksRun_eq, h.chronicle, ← Engine.blocksRun_eq, List.append_nil]
  lends := h.lends
  kept := h.kept
  inline := h.inline

/-- An event that is recorded beforehand. -/
theorem note (h : Mirrors e others a t) (event : Event) :
    Mirrors (e.note event) others (a.note event) t where
  world := h.world
  chronicle := by
    have hsame : a.engine.chronicle = e.chronicle := h.chronicle
    by_cases htrace : event.severity = .trace
    · rw [Engine.chronicle_note_of_trace htrace, ← hsame]
      exact Engine.chronicle_note_of_trace htrace
    · rw [Engine.chronicle_note htrace, ← hsame]
      exact Engine.chronicle_note htrace
  lends := h.lends
  kept := h.kept
  inline := h.inline

/-- Work after the record that the thread came to a block. -/
theorem reports_of_note {event : Event} {id : BlockId} (hevent : event.block? = some id)
    (h : Mirrors (e.note event) others a t) : Reports e others [id] a t where
  world := h.world
  blocksRun := by
    rw [Engine.blocksRun_eq, h.chronicle, ← Engine.blocksRun_eq, Engine.blocksRun_note, hevent]
    rfl
  lends := h.lends
  kept := h.kept
  inline := h.inline

/-! ### Yielding -/

/-- Both threads may be given a status. -/
theorem withStatus (h : Mirrors e others a t) (status : Status) :
    Mirrors e others (a.withStatus status) (t.withStatus status) := by
  obtain rfl := h.inline
  exact h.of_thread rfl rfl rfl rfl

theorem withWarpTimer (h : Mirrors e others a t) (timer : Option Time) :
    Mirrors e others (a.withWarpTimer timer) (t.withWarpTimer timer) := by
  obtain rfl := h.inline
  exact h.of_thread rfl rfl rfl rfl

theorem yield (h : Mirrors e others a t) : Mirrors e others a.yield t.yield :=
  (h.withWarpTimer none).withStatus .yield

/-- **Whether to yield** is decided alike, as both have the same timer. -/
theorem shouldYield (h : Mirrors e others a t) (now : Moment) :
    Agree (WithValue (Mirrors e others)) (a.shouldYield now) (.ok (t.shouldYield e.world now)) := by
  have htimer : a.thread.warpTimer = t.warpTimer := by rw [← h.inline]; rfl
  have hsettings : a.engine.settings = e.settings := congrArg World.settings h.world
  rw [Activity.shouldYield, InlineThread.shouldYield, h.inWarpMode]
  cases t.inWarpMode with
  | false => exact .ok ⟨rfl, h⟩
  | true =>
    refine .ok ⟨?_, ?_⟩
    · show decide _ = decide _
      rw [htimer, hsettings]
      rfl
    · show Mirrors e others (a.withWarpTimer _) (t.withWarpTimer _)
      rw [htimer]
      exact h.withWarpTimer _

/-- Both yield, or neither does. -/
theorem yieldIfDue (h : Mirrors e others a t) (now : Moment) :
    Agree (Mirrors e others) (a.yieldIfDue now) (.ok (t.yieldIfDue e.world now)) := by
  rw [Activity.yieldIfDue, InlineThread.yieldIfDue]
  obtain ⟨⟨due, a'⟩, hok, hdue, h'⟩ := (h.shouldYield now).exists_left
  rw [hok]
  obtain rfl : due = (t.shouldYield e.world now).1 := hdue
  show Agree _ (.ok (if (t.shouldYield e.world now).1 then a'.yield else a'))
    (.ok (if (t.shouldYield e.world now).1 then _ else _))
  cases (t.shouldYield e.world now).1 with
  | false => exact .ok h'
  | true => exact .ok h'.yield

/-! ### Commands -/

/-- Both enter a block, or both leave it behind. -/
theorem enterOrAdvance (h : Mirrors e others a t) (b : Block) :
    Agree (Mirrors e others) (a.enterOrAdvance b) (t.enterOrAdvance e.world b) := by
  rw [Activity.enterOrAdvance, InlineThread.enterOrAdvance]
  cases b.substack? with
  | some body => exact h.push body none
  | none => exact h.advance

/-- Both enter a loop, or both stay at it. -/
theorem enterLoop (h : Mirrors e others a t) (b : Block) :
    Agree (Mirrors e others) (a.enterLoop b) (.ok (t.enterLoop b)) := by
  rw [Activity.enterLoop, InlineThread.enterLoop]
  obtain ⟨a', hok, h'⟩ :=
    (h.modifyTopFrame fun frame ↦ { frame with isLoop := true }).exists_left
  rw [hok]
  cases b.substack? with
  | some body => exact h'.push body none
  | none => exact .ok (h'.withStatus .yield)

/-- Both enter a procedure, with a frame that takes arguments. -/
theorem enterProcedure (h : Mirrors e others a t) (now : Moment) (b : Block) (code : String)
    (body : BlockId) :
    Agree (Mirrors e others) (a.enterProcedure now b code body)
      (.ok (t.enterProcedure e.world now b code body)) := by
  rw [Activity.enterProcedure, InlineThread.enterProcedure, h.isRecursiveCall]
  obtain ⟨a₁, hinit, h₁⟩ := h.initParams.exists_left
  obtain ⟨a₂, hpush, h₂⟩ := (h₁.push body none).exists_left
  show Agree _ (a.initParams >>= _) _
  rw [hinit]
  show Agree _ (a₁.push body none >>= _) _
  rw [hpush]
  have hyield : ∀ {a' : Activity} {t' : InlineThread}, Mirrors e others a' t' →
      Agree (Mirrors e others)
        (if t.isRecursiveCall e.world code then a'.yieldIfDue now else .ok a')
        (.ok (if t.isRecursiveCall e.world code then t'.yieldIfDue e.world now else t')) := by
    intro a' t' h'
    cases t.isRecursiveCall e.world code with
    | false => exact .ok h'
    | true => exact h'.yieldIfDue now
  cases b.isWarp with
  | false => exact hyield h₂
  | true =>
    obtain ⟨a₃, hmode, h₃⟩ :=
      (h₂.modifyTopFrame fun frame ↦ { frame with warpMode := true }).exists_left
    show Agree _ (a₂.modifyTopFrame _ >>= _) _
    rw [hmode]
    exact hyield h₃

/-- Both find the same procedure. -/
theorem call (h : Mirrors e others a t) (now : Moment) (b : Block) :
    Agree (Mirrors e others) (a.call now b) (t.call e.world now b) := by
  rw [Activity.call, InlineThread.call]
  cases b.proccode with
  | none => exact h.advance
  | some code =>
    dsimp only
    rw [h.procedureBody?, ← h.target_eq]
    cases e.world.procedureBody? t.target code with
    | none => exact h.advance
    | some body => exact h.enterProcedure now b code body

/-- **Performing a block**, with one case for each command. -/
theorem perform (h : Mirrors e others a t) (now : Moment) (b : Block) :
    Agree (WithValue (Mirrors e others)) (a.perform now b) (t.perform e.world now b) := by
  rw [Activity.perform, InlineThread.perform]
  cases b.command with
  | stopAll => exact h.kill.map fun _ _ h' ↦ ⟨rfl, h'⟩
  | stopOthers => exact h.advance.map fun _ _ h' ↦ ⟨by rw [h.target_eq], h'⟩
  | stopThis => exact h.stopScript.map fun _ _ h' ↦ ⟨rfl, h'⟩
  | forever => exact (h.enterLoop b).map fun _ _ h' ↦ ⟨rfl, h'⟩
  | call => exact (h.call now b).map fun _ _ h' ↦ ⟨rfl, h'⟩
  | plain => exact (h.enterOrAdvance b).map fun _ _ h' ↦ ⟨rfl, h'⟩

/-- Executing a block is recorded, whether the block exists or not. -/
theorem execute (h : Mirrors e others a t) (now : Moment) (id : BlockId) :
    Agree (Reports.WithValue e others [id]) (a.execute now id) (t.execute e.world now id) := by
  rw [Activity.execute, InlineThread.execute, h.resolve?, ← h.target_eq]
  cases e.world.resolve? t.target id with
  | none =>
    have hnoted := h.note (.missing a.thread.topBlock id)
    exact hnoted.stopScript.map fun _ _ h' ↦ ⟨rfl, h'.reports_of_note rfl⟩
  | some b =>
    set event := Event.executed a.thread.topBlock id
      ((a.engine.target? t.target).map Target.name) b.opcode
    have hnoted : Mirrors (e.note event) others
        { a.note event with thread := { a.thread with blockGlow := some id } }
        { t with blockGlow := some id } := by
      obtain rfl := h.inline
      exact (h.note event).of_thread rfl rfl rfl rfl
    exact (hnoted.perform now b).mono fun _ _ h' ↦ ⟨h'.1, h'.2.reports_of_note rfl⟩

/-! ### Steps -/

/-- Coming back to an enclosing block. -/
theorem resume (h : Mirrors e others a t) (now : Moment) (parent : BlockId) :
    Agree (Mirrors e others) (a.resume now parent) (t.resume e.world now parent) := by
  rw [Activity.resume, InlineThread.resume, h.topFrame?]
  show Agree _ (if t.topFrame?.elim false Frame.isLoop then _ else _) _
  cases t.topFrame?.elim false Frame.isLoop with
  | false => exact h.advance
  | true =>
    simp only [if_true]
    rw [h.substack?, ← h.target_eq]
    cases e.world.substack? t.target parent with
    | none => exact h.yieldIfDue now
    | some body =>
      obtain ⟨a', hpush, h'⟩ := (h.push body none).exists_left
      show Agree _ (a.push body none >>= _) _
      rw [hpush]
      exact h'.yieldIfDue now

/-- **A step** reports the block that it comes to. -/
theorem stepBlock (h : Mirrors e others a t) (now : Moment) :
    Agree (Reports.WithValue e others t.peek?.toList) (a.stepBlock now)
      (t.stepBlock e.world now) := by
  rw [Activity.stepBlock, InlineThread.stepBlock, ← h.peek?_eq]
  cases t.peek? with
  | some id => exact h.execute now id
  | none =>
    refine h.pop.bind fun x y hxy ↦ ?_
    obtain ⟨id, a'⟩ := x
    obtain ⟨id', t'⟩ := y
    have h' : Mirrors e others a' t' := hxy.2
    dsimp only
    rw [← h'.peek?_eq]
    cases t'.peek? with
    | none => exact h'.stopScript.map fun _ _ h'' ↦ ⟨rfl, h''.reports⟩
    | some parent => exact (h'.resume now parent).map fun _ _ h'' ↦ ⟨rfl, h''.reports⟩

/-- Whether time is up is decided alike. -/
theorem outOfTime (h : Mirrors e others a t) (now : Moment) (deadline : Time) :
    Agree (WithValue (Mirrors e others)) (a.outOfTime now deadline)
      (.ok (t.outOfTime e.world now deadline)) := by
  rw [Activity.outOfTime, InlineThread.outOfTime, h.inWarpMode]
  cases t.inWarpMode with
  | false => exact .ok ⟨rfl, h.withWarpTimer none⟩
  | true => exact h.shouldYield now

/-- Both yield for it, or neither does. -/
theorem yieldIfLate (h : Mirrors e others a t) (now : Moment) (deadline : Time) :
    Agree (Mirrors e others) (a.yieldIfLate now deadline)
      (.ok (t.yieldIfLate e.world now deadline)) := by
  rw [Activity.yieldIfLate, InlineThread.yieldIfLate, ← h.status_eq]
  by_cases hrunning : t.status = .running
  · rw [if_pos hrunning, if_pos hrunning]
    obtain ⟨⟨late, a'⟩, hok, hlate, h'⟩ := (h.outOfTime now deadline).exists_left
    rw [hok]
    obtain rfl : late = (t.outOfTime e.world now deadline).1 := hlate
    show Agree _ (.ok (if (t.outOfTime e.world now deadline).1 then a'.yield else a'))
      (.ok (if (t.outOfTime e.world now deadline).1 then _ else _))
    cases (t.outOfTime e.world now deadline).1 with
    | false => exact .ok h'
    | true => exact .ok h'.yield
  · rw [if_neg hrunning, if_neg hrunning]
    exact .ok h

/-- A step, and what time is left after it. -/
theorem turn (h : Mirrors e others a t) (shown : Reading) (deadline : Time) :
    Agree (Reports.WithValue e others t.peek?.toList) (a.turn shown deadline)
      (t.turn e.world shown deadline) := by
  rw [Activity.turn, InlineThread.turn]
  refine (h.stepBlock shown.step).bind fun x y hxy ↦ ?_
  obtain ⟨request, a'⟩ := x
  obtain ⟨request', t'⟩ := y
  obtain ⟨rfl, h'⟩ : request = request' ∧ Reports e others t.peek?.toList a' t' := hxy
  have hworld : a'.engine.world = e.world := h'.world
  obtain ⟨a'', hok, h''⟩ := (h'.mirrors.yieldIfLate shown.check deadline).exists_left
  rw [hworld] at h''
  show Agree _ (a'.yieldIfLate shown.check deadline >>= _) _
  rw [hok]
  exact .ok ⟨rfl, h'.then_mirrors h''⟩

end Mirrors

/-! ### Turns of inline threads -/

namespace InlineThread

/-- The program of a compiled script. -/
def program? (t : InlineThread) : Option Program :=
  match t.compilation with
  | .compiled program => some program
  | _ => none

/-- A thread that yielded runs again at its next turn. -/
def wake (t : InlineThread) : InlineThread :=
  if t.status = .yield ∨ t.status = .yieldTick then t.withStatus .running else t

/-- Turns until the thread no longer runs, for so many turns at most. Gives the blocks that the
thread came to and the last request that came up. -/
def slice (w : World) (deadline : Time) : Readings → Nat → Option StopRequest → InlineThread →
    Except Halt (List BlockId × Option StopRequest × InlineThread)
  | shown, turns, request, t =>
    if t.status = .running then
      match turns with
      | 0 => .error .unfinished
      | turns + 1 => do
        let (latest, t') ← t.turn w (shown 0) deadline
        let (blocks, last) ← slice w deadline shown.later turns (latest.or request) t'
        return (t.peek?.toList ++ blocks, last)
    else .ok ([], request, t)

/-- A thread's turn in a frame: a killed thread ends, a compiled one comes to the blocks of its
program, and any other is interpreted. -/
def takeTurn (w : World) (t : InlineThread) (deadline : Time) (shown : Readings) (turns : Nat) :
    Except Halt (List BlockId × Option StopRequest × InlineThread) :=
  if t.killed then (t.kill w).map fun t ↦ ([], none, t)
  else
    match t.program? with
    | some program => (t.wake.stopScript w).map fun t' ↦
        (program.filter fun id ↦ (w.resolve? t.target id).isSome, none, t')
    | none => slice w deadline shown turns none t.wake

end InlineThread

/-- Results of a turn: the requests are equal, and the blocks were reported. -/
def Reports.OfTurn (e : Engine) (others : List FrameId) (x : Option StopRequest × Activity)
    (y : List BlockId × Option StopRequest × InlineThread) : Prop :=
  x.1 = y.2.1 ∧ Reports e others y.1 x.2 y.2.2

namespace Mirrors

variable {e : Engine} {others : List FrameId} {a : Activity} {t : InlineThread}

/-- Both are woken, or neither needs to be. -/
theorem wake (h : Mirrors e others a t) : Mirrors e others a.wake t.wake := by
  rw [Activity.wake, InlineThread.wake, h.status_eq]
  by_cases hyield : a.thread.status = .yield ∨ a.thread.status = .yieldTick
  · rw [if_pos hyield, if_pos hyield]
    exact h.withStatus .running
  · rw [if_neg hyield, if_neg hyield]
    exact h

/-- **A slice**, by induction on the turns that it may have. -/
theorem slice (deadline : Time) (shown : Readings) (turns : Nat) : ∀ {e : Engine} {a : Activity}
    {t : InlineThread} (request : Option StopRequest), Mirrors e others a t →
      Agree (Reports.OfTurn e others) (Activity.slice deadline shown turns request a)
        (InlineThread.slice e.world deadline shown turns request t) := by
  induction turns generalizing shown with
  | zero =>
    intro e a t request h
    rw [Activity.slice, InlineThread.slice, h.status_eq]
    split
    · exact .error _
    · exact .ok ⟨rfl, h.reports⟩
  | succ turns ih =>
    intro e a t request h
    rw [Activity.slice, InlineThread.slice, h.status_eq]
    split
    · refine (h.turn (shown 0) deadline).bind fun x y hxy ↦ ?_
      obtain ⟨latest, a'⟩ := x
      obtain ⟨latest', t'⟩ := y
      obtain ⟨rfl, h'⟩ : latest = latest' ∧ Reports e others t.peek?.toList a' t' := hxy
      -- The rest of the slice is compared from the engine as the first turn left it.
      have hrest := ih shown.later (latest.or request) h'.mirrors
      rw [h'.world] at hrest
      exact hrest.bind_right fun z z' hz ↦ .ok ⟨hz.1, h'.trans hz.2⟩
    · exact .ok ⟨rfl, h.reports⟩

/-- A program reports those of its blocks that exist, in order, before the script is stopped. -/
private theorem runProgram (program : Program) : ∀ {e : Engine} {a : Activity},
    Mirrors e others a t → ∃ a', a.runProgram program = a'.stopScript ∧
      Reports e others (program.filter fun id ↦ (e.world.resolve? t.target id).isSome) a' t := by
  induction program with
  | nil => exact fun h ↦ ⟨_, rfl, h.reports⟩
  | cons id rest ih =>
    intro e a h
    rw [List.filter_cons]
    have hresolve : a.engine.resolve? a.thread.target id = e.world.resolve? t.target id := by
      rw [h.resolve?, h.target_eq]
    cases hblock : e.world.resolve? t.target id with
    | none =>
      obtain ⟨a', hrun, h'⟩ := ih h
      refine ⟨a', ?_, h'⟩
      rw [← hrun, Activity.runProgram, List.foldl_cons, hresolve, hblock]
      rfl
    | some block =>
      have hnoted : Reports e others [id]
          (a.note (.ranCompiled a.thread.topBlock id block.opcode)) t :=
        (h.note _).reports_of_note rfl
      obtain ⟨a', hrun, h'⟩ := ih hnoted.mirrors
      refine ⟨a', ?_, ?_⟩
      · rw [← hrun, Activity.runProgram, List.foldl_cons, hresolve, hblock]
        rfl
      · rw [hnoted.world] at h'
        exact hnoted.trans h'

/-- **A turn.** -/
theorem takeTurn (h : Mirrors e others a t) (deadline : Time) (shown : Readings) (turns : Nat) :
    Agree (Reports.OfTurn e others) (a.takeTurn deadline shown turns)
      (t.takeTurn e.world deadline shown turns) := by
  have hkilled : a.thread.killed = t.killed := by rw [← h.inline]; rfl
  have hprogram : a.thread.program? = t.program? := by rw [← h.inline]; rfl
  have hwake : a.wake.thread.program? = a.thread.program? := by
    rw [Activity.wake]
    split <;> rfl
  have htarget : t.wake.target = t.target := by
    rw [InlineThread.wake]
    split <;> rfl
  rw [Activity.takeTurn, Activity.begin, InlineThread.takeTurn, hkilled]
  cases t.killed with
  | true =>
    rcases hkill : a.kill with cause | a'
    · rw [show t.kill e.world = _ from (hkill ▸ h.kill).eq_error]
      exact .error cause
    · obtain ⟨t', ht', h'⟩ := (hkill ▸ h.kill : Agree _ (.ok a') _).exists_right
      rw [ht']
      exact .ok ⟨rfl, h'.reports⟩
  | false =>
    dsimp only [Bool.false_eq_true, if_false]
    rw [hwake, hprogram]
    cases t.program? with
    | none => exact h.wake.slice deadline shown turns none
    | some program =>
      -- Running the program only writes to the log: the thread that stops is the one that woke up.
      obtain ⟨a', hrun, hreported⟩ := h.wake.runProgram program
      have hstop := hreported.mirrors.stopScript
      rw [hreported.world, ← hrun] at hstop
      rw [htarget] at hreported
      dsimp only
      rcases hstopped : a.wake.runProgram program with cause | a''
      · rw [show t.wake.stopScript e.world = _ from (hstopped ▸ hstop).eq_error]
        exact .error cause
      · obtain ⟨t'', ht'', h''⟩ := (hstopped ▸ hstop : Agree _ (.ok a'') _).exists_right
        rw [ht'']
        exact .ok ⟨rfl, hreported.then_mirrors h''⟩

end Mirrors

end BlockScript
