import BlockScript.Proofs.Thread.Modes

/-!
# When a call yields

A call that seems to recurse yields, unless it is in warp mode and has time left. Whether it seems
to is decided by a search through the enclosing levels (`Activity.anyCalls`), which gives up at the
first block that it cannot find, and which spends two of its looks on a level that waits for a
reporter. So in general the search may miss a call that is near enough.

It does not where the enclosing levels are **plain to see** (`InlineThread.Visible`): each of them
has a block that is found, and none waits for a reporter. Then the search is for a call of the same
procedure among the nearest enclosing levels, as many as there are looks
(`InlineThread.Visible.isRecursiveCall_iff`), and the step of a call yields just when there is one
and the new level has no time in warp mode left (`InlineThread.Visible.stepBlock_of_call`).
-/

namespace BlockScript

/-! ### Calls of a procedure -/

/-- The block calls the procedure, for its effect or for its value. -/
def Block.Calls (b : Block) (code : String) : Prop :=
  (b.opcode = callOpcode ∨ b.opcode = callReturnOpcode) ∧ b.proccode = some code

theorem Block.calls_iff {b : Block} {code : String} :
    b.Calls code ↔ (b.isProcedureCall && b.proccode == some code) = true := by
  rw [Bool.and_eq_true, isProcedureCall, Bool.or_eq_true, beq_iff_eq, beq_iff_eq, beq_iff_eq]
  exact Iff.rfl

/-- A level with this block calls the procedure. -/
def World.Calls (w : World) (target : TargetId) (code : String) (block : Option BlockId) : Prop :=
  ∃ id b, block = some id ∧ w.resolve? target id = some b ∧ b.Calls code

variable {w : World}

/-- A level with a block that is found calls the procedure if the block does. -/
theorem World.calls_some_iff {target : TargetId} {code : String} {id : BlockId} {b : Block}
    (hb : w.resolve? target id = some b) : w.Calls target code (some id) ↔ b.Calls code := by
  constructor
  · rintro ⟨id', b', hid, hb', hcalls⟩
    obtain rfl := Option.some.inj hid
    obtain rfl := Option.some.inj (hb.symm.trans hb')
    exact hcalls
  · exact fun hcalls ↦ ⟨id, b, rfl, hb, hcalls⟩

/-- Where every block is found, the search is for any call among them. -/
theorem World.anyCalls_iff {target : TargetId} {code : String} {blocks : List (Option BlockId)}
    (hfound : ∀ block ∈ blocks, ∃ id b, block = some id ∧ w.resolve? target id = some b) :
    Activity.anyCalls (w.resolve? target) code blocks = true ↔
      ∃ block ∈ blocks, w.Calls target code block := by
  induction blocks with
  | nil => exact ⟨fun h ↦ (by cases h), fun ⟨_, hmem, _⟩ ↦ by cases hmem⟩
  | cons block rest ih =>
    obtain ⟨⟨id, b, rfl, hb⟩, hrest⟩ := List.forall_mem_cons.1 hfound
    rw [Activity.anyCalls, Option.bind_some, hb, List.exists_mem_cons_iff, calls_some_iff hb,
      ← ih hrest, Block.calls_iff, Bool.or_eq_true]

namespace InlineThread

variable {t : InlineThread} {now : Moment} {code : String}

/-! ### The search -/

/-- **The enclosing levels are plain to see**: each has a block that is found, and none waits for a
reporter. -/
def Visible (w : World) (t : InlineThread) : Prop :=
  ∀ level ∈ t.levels.tail, level.frame.waitingReporter = false ∧
    ∃ id b, level.block = some id ∧ w.resolve? t.target id = some b

/-- One look for each level, then. -/
theorem Visible.enclosing_eq (h : t.Visible w) :
    t.enclosing = t.levels.tail.map InlineLevel.block := by
  have hlooks : ∀ levels : List InlineLevel,
      (∀ level ∈ levels, level.frame.waitingReporter = false) →
      (levels.flatMap fun level ↦
        (if level.frame.waitingReporter then [level.frame.reporting] else []) ++ [level.block]) =
        levels.map InlineLevel.block := by
    intro levels hwaiting
    induction levels with
    | nil => rfl
    | cons level rest ih =>
      obtain ⟨hlevel, hrest⟩ := List.forall_mem_cons.1 hwaiting
      rw [List.flatMap_cons, ih hrest, hlevel, List.map_cons]
      rfl
  exact hlooks t.levels.tail fun level hmem ↦ (h level hmem).1

/-- One of the nearest enclosing levels, as many as there are looks, calls the procedure. -/
def Recurs (w : World) (t : InlineThread) (code : String) : Prop :=
  ∃ level ∈ t.levels.tail.take Activity.maxEnclosingCalls, w.Calls t.target code level.block

/-- **The search misses nothing within its reach**, and finds nothing else. -/
theorem Visible.isRecursiveCall_iff (h : t.Visible w) :
    t.isRecursiveCall w code = true ↔ t.Recurs w code := by
  have hfound : ∀ block ∈ (t.levels.tail.map InlineLevel.block).take Activity.maxEnclosingCalls,
      ∃ id b, block = some id ∧ w.resolve? t.target id = some b := by
    intro block hmem
    obtain ⟨level, hlevel, rfl⟩ := List.mem_map.1 (List.mem_of_mem_take hmem)
    exact (h level hlevel).2
  rw [isRecursiveCall, h.enclosing_eq, World.anyCalls_iff hfound, ← List.map_take]
  constructor
  · rintro ⟨block, hmem, hcalls⟩
    obtain ⟨level, hlevel, rfl⟩ := List.mem_map.1 hmem
    exact ⟨level, hlevel, hcalls⟩
  · rintro ⟨level, hlevel, hcalls⟩
    exact ⟨level.block, List.mem_map_of_mem hlevel, hcalls⟩

/-! ### Time -/

/-- The thread is not in warp mode, or its stretch in warp mode is used up. Without a budget any
stretch is. -/
def IsDue (w : World) (t : InlineThread) (now : Moment) : Prop :=
  t.inWarpMode = false ∨ w.settings.warpTime ≤ now.answered - t.warpTimer.getD now.asked

theorem status_yieldIfDue_of_isDue (h : t.IsDue w now) :
    (t.yieldIfDue w now).status = .yield := by
  have hdue : (t.shouldYield w now).1 = true := by
    rw [shouldYield]
    split
    · rename_i hwarp
      rcases h with h | h
      · rw [h] at hwarp
        cases hwarp
      · exact decide_eq_true h
    · rfl
  rw [yieldIfDue]
  dsimp only
  rw [if_pos hdue]
  rfl

theorem status_yieldIfDue_of_not_isDue (h : ¬t.IsDue w now) :
    (t.yieldIfDue w now).status = t.status := by
  have hwarp : t.inWarpMode = true := by
    rw [← Bool.not_eq_false]
    exact fun hwarp ↦ h (.inl hwarp)
  have hdue : ¬w.settings.warpTime ≤ now.answered - t.warpTimer.getD now.asked :=
    fun hdue ↦ h (.inr hdue)
  rw [yieldIfDue, shouldYield, if_pos hwarp]
  dsimp only
  rw [if_neg (by rw [decide_eq_true_eq]; exact hdue)]
  rfl

theorem levels_yieldIfDue (w : World) (t : InlineThread) (now : Moment) :
    (t.yieldIfDue w now).levels = t.levels := by
  have hclock : (t.shouldYield w now).2.levels = t.levels := by
    rw [shouldYield]
    split
    · rfl
    · rfl
  rw [yieldIfDue]
  dsimp only
  split
  · exact hclock
  · exact hclock

/-! ### The step of a call -/

/-- Entering a procedure changes nothing about the thread but its levels. -/
theorem entered_eq (t : InlineThread) (b : Block) (body : BlockId) :
    t.entered b body = t.withLevels (t.entered b body).levels := by
  rw [entered]
  split
  · rfl
  · rfl

/-- What a call steps to. It has a procedure to go to here, and so it does not move on. -/
theorem stepBlock_eq_of_call {id body : BlockId} {b : Block} (hpeek : t.peek? = some id)
    (hb : w.resolve? t.target id = some b) (hcall : b.command = .call)
    (hcode : b.proccode = some code) (hbody : w.procedureBody? t.target code = some body)
    (now : Moment) :
    t.stepBlock w now =
      .ok (none, { t with blockGlow := some id }.enterProcedure w now b code body) := by
  rw [stepBlock, hpeek]
  dsimp only
  rw [execute, hb]
  dsimp only
  rw [perform, hcall]
  dsimp only
  rw [call, hcode]
  dsimp only
  rw [hbody]
  rfl

/-- **The step of a call yields just when it should**: when one of the nearest enclosing levels
calls the same procedure, and the new level is not in warp mode or has no time left. Otherwise the
status stays. -/
theorem Visible.stepBlock_of_call (h : t.Visible w) {id body : BlockId} {b : Block}
    (hpeek : t.peek? = some id) (hb : w.resolve? t.target id = some b) (hcall : b.command = .call)
    (hcode : b.proccode = some code) (hbody : w.procedureBody? t.target code = some body)
    (now : Moment) :
    ∃ t' frame, t.stepBlock w now = .ok (none, t') ∧ t'.topFrame? = some frame ∧
      t'.levels.map InlineLevel.block = some body :: t.levels.map InlineLevel.block ∧
      (t.Recurs w code ∧
        (frame.warpMode = false ∨
          w.settings.warpTime ≤ now.answered - t.warpTimer.getD now.asked) → t'.status = .yield) ∧
      (¬(t.Recurs w code ∧
        (frame.warpMode = false ∨
          w.settings.warpTime ≤ now.answered - t.warpTimer.getD now.asked)) →
        t'.status = t.status) := by
  set lit : InlineThread := { t with blockGlow := some id } with hlit
  rcases hlevels : t.levels with - | ⟨level, rest⟩
  · rw [peek?, hlevels] at hpeek
    cases hpeek
  · have hentered := levels_entered (t := lit) hlevels b body
    have htop : (lit.entered b body).topFrame? =
        some (Frame.ofMode (level.frame.warpMode || b.isWarp)) := by
      rw [topFrame?, hentered]
      rfl
    have hrest := entered_eq lit b body
    have hstatus : (lit.entered b body).status = t.status := by
      rw [hrest]
      rfl
    have hsearch : lit.isRecursiveCall w code = true ↔ t.Recurs w code :=
      Visible.isRecursiveCall_iff (t := lit) h
    have hlevels' : (lit.enterProcedure w now b code body).levels =
        (lit.entered b body).levels := by
      rw [enterProcedure_eq]
      split
      · exact levels_yieldIfDue w _ now
      · rfl
    -- Whether it is time to yield is a matter of the new level's mode and of the clock.
    have hdue : ∀ frame, (lit.entered b body).topFrame? = some frame →
        ((lit.entered b body).IsDue w now ↔
          frame.warpMode = false ∨
            w.settings.warpTime ≤ now.answered - t.warpTimer.getD now.asked) := by
      intro frame hframe
      have htimer : (lit.entered b body).warpTimer = t.warpTimer := by
        rw [hrest]
        rfl
      rw [IsDue, inWarpMode, hframe, htimer]
      exact Iff.rfl
    refine ⟨_, Frame.ofMode (level.frame.warpMode || b.isWarp),
      stepBlock_eq_of_call hpeek hb hcall hcode hbody now, ?_, ?_, ?_, ?_⟩
    · rw [topFrame?, hlevels', ← topFrame?, htop]
    · rw [hlevels', hentered]
      rfl
    · rintro ⟨hrecurs, htime⟩
      rw [enterProcedure_eq, if_pos (hsearch.2 hrecurs)]
      exact status_yieldIfDue_of_isDue ((hdue _ htop).2 htime)
    · intro hnot
      rw [enterProcedure_eq]
      split
      · rename_i hcalls
        refine (status_yieldIfDue_of_not_isDue fun htime ↦ ?_).trans hstatus
        exact hnot ⟨hsearch.1 hcalls, (hdue _ htop).1 htime⟩
      · exact hstatus

end InlineThread

end BlockScript
