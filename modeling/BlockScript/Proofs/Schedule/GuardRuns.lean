import BlockScript.Proofs.Schedule.PathRuns
import BlockScript.Proofs.Thread.Guard

/-!
# The recursion guard in runs

The search for recursive calls can be led astray by a block that is not found and by a level that
waits for a reporter. A driver brings about neither: the stack is a path, on which every level below
another one has a block that is found, and no block makes its level wait. So in every schedule that
a driver reaches the guard is exact (`Schedule.guardsRecursion_of_reached`): a call yields just when
one of the nearest enclosing levels calls the same procedure and there is no time left in warp mode.

What the guard does for threads whose enclosing levels are plain to see is in
`BlockScript.Proofs.Thread.Guard`.
-/

namespace BlockScript

/-- On a path, the enclosing levels are plain to see. -/
theorem OnTrack.visible {w : World} {hat : BlockId × TargetId} {t : InlineThread}
    (h : OnTrack w hat t) : t.Visible w := by
  intro level hmem
  constructor
  · obtain ⟨lot, stack, hrests, -⟩ := h.path
    have hne : stack ≠ [] := by
      rintro rfl
      rw [hrests.levels_eq_nil] at hmem
      cases hmem
    have hshape := (hrests.stands hne).shape
    rcases hlevels : t.levels with - | ⟨top, rest⟩
    · rw [hlevels] at hmem
      cases hmem
    · rw [hlevels] at hmem hshape
      exact (hshape.2 level hmem).waiting_eq
  · obtain ⟨i, hi⟩ := List.mem_iff_getElem?.1 hmem
    rw [List.getElem?_tail] at hi
    obtain ⟨hlt, -⟩ := List.getElem?_eq_some_iff.1 hi
    obtain ⟨upper, hupper⟩ : ∃ upper, t.levels[i]? = some upper :=
      ⟨_, List.getElem?_eq_getElem (Nat.lt_of_succ_lt hlt)⟩
    obtain ⟨id, b, -, hid, hb, -⟩ := h.isPath.exists_of_getElem? (i := i)
      (by rw [List.getElem?_map, hupper, Option.map_some])
      (by rw [List.getElem?_map, hi, Option.map_some])
    rw [h.home.target_eq]
    exact ⟨id, b, hid, hb⟩

namespace Schedule

/-- One of the nearest enclosing levels, five at most, calls the procedure. -/
def Recurs (s : Schedule) (t : Thread) (code : String) : Prop :=
  ∃ level ∈ t.levels.tail.take Activity.maxEnclosingCalls,
    s.engine.world.Calls t.target code level.block

/-- **The guard against recursion is exact.** -/
structure GuardsRecursion (s : Schedule) (t : Thread) : Prop where
  /-- Every enclosing level has a block that is found. -/
  found : ∀ level ∈ t.levels.tail, ∃ id b, level.block = some id ∧
    s.engine.resolve? t.target id = some b
  /-- No enclosing level waits for a reporter. -/
  waiting_eq : ∀ level ∈ t.levels.tail, ∃ frame,
    s.engine.pool.get level.frame = .ok frame ∧ frame.waitingReporter = false
  /-- The search finds a call of the procedure in one of the nearest enclosing levels if there is
  one. -/
  search : ∀ code, ∃ recursive, Activity.isRecursiveCall ⟨s.engine, t⟩ code = .ok recursive ∧
    (recursive = true ↔ s.Recurs t code)
  /-- The step of a call enters its procedure. It yields if the call recurs and the new level is not
  in warp mode or has no time left, which without a budget is always so; otherwise the thread stays
  as it was in this respect. -/
  call : ∀ {id body : BlockId} {b : Block} {code : String}, t.peek? = some id →
    s.engine.resolve? t.target id = some b → b.opcode = Block.callOpcode →
    b.proccode = some code → s.engine.procedureBody? t.target code = some body → ∀ now,
    ∃ a frame, Activity.stepBlock ⟨s.engine, t⟩ now = .ok (none, a) ∧
      a.thread.levels.map Level.block = some body :: t.levels.map Level.block ∧
      a.topFrame? = .ok (some frame) ∧
      (s.Recurs t code ∧ (frame.warpMode = false ∨
          s.engine.settings.warpTime ≤ now.answered - t.warpTimer.getD now.asked) →
        a.thread.status = .yield) ∧
      (¬(s.Recurs t code ∧ (frame.warpMode = false ∨
          s.engine.settings.warpTime ≤ now.answered - t.warpTimer.getD now.asked)) →
        a.thread.status = t.status)

theorem guardsRecursion_of_mirrors {s : Schedule} {t : Thread} {others : List FrameId}
    (hvisible : (t.inline s.engine.pool).Visible s.engine.world)
    (hmirrors : Mirrors s.engine others ⟨s.engine, t⟩ (t.inline s.engine.pool)) :
    s.GuardsRecursion t := by
  have htail : (t.inline s.engine.pool).levels.tail =
      t.levels.tail.map (Level.inline s.engine.pool) := List.map_tail.symm
  have hinline : ∀ level ∈ t.levels.tail,
      level.inline s.engine.pool ∈ (t.inline s.engine.pool).levels.tail := by
    intro level hlevel
    rw [htail]
    exact List.mem_map_of_mem hlevel
  have hrecurs : ∀ code, (t.inline s.engine.pool).Recurs s.engine.world code ↔
      s.Recurs t code := by
    intro code
    rw [InlineThread.Recurs, htail, ← List.map_take]
    constructor
    · rintro ⟨level, hmem, hcalls⟩
      obtain ⟨lower, hlower, rfl⟩ := List.mem_map.1 hmem
      exact ⟨lower, hlower, hcalls⟩
    · rintro ⟨level, hmem, hcalls⟩
      exact ⟨level.inline s.engine.pool, List.mem_map_of_mem hmem, hcalls⟩
  refine ⟨fun level hlevel ↦ (hvisible _ (hinline level hlevel)).2, ?_, ?_, ?_⟩
  · intro level hlevel
    exact ⟨_, hmirrors.get_of_mem (List.mem_of_mem_tail hlevel),
      (hvisible _ (hinline level hlevel)).1⟩
  · intro code
    exact ⟨_, hmirrors.isRecursiveCall code, hvisible.isRecursiveCall_iff.trans (hrecurs code)⟩
  · intro id body b code hpeek hb hcall hcode hbody now
    obtain ⟨t', frame, hstep, htop, hblocks, hyields, hstays⟩ := hvisible.stepBlock_of_call
      (hmirrors.peek?_eq.trans hpeek) hb (Block.command_eq_call_iff.2 hcall) hcode hbody now
    have hagree := hmirrors.stepBlock now
    rw [hstep] at hagree
    obtain ⟨⟨request, a⟩, hok, hrequest, hreports⟩ := hagree.exists_left
    obtain rfl : request = none := hrequest
    have ha := hreports.mirrors
    refine ⟨a, frame, hok, ?_, ?_, ?_, ?_⟩
    · rw [ha.levels_eq, List.map_map] at hblocks
      rw [Thread.inline, List.map_map] at hblocks
      exact hblocks
    · rw [ha.topFrame?, htop]
    · rw [← ha.status_eq, ← hrecurs code]
      exact hyields
    · rw [← ha.status_eq, ← hrecurs code]
      exact hstays

/-- **The recursion guard is exact in runs**, for every thread of every schedule that a driver
reaches with the scripts of a project. -/
theorem guardsRecursion_of_reached {settings : Settings} {project : Project}
    {scripts : List (BlockId × TargetId)} {s : Schedule} {t : Thread}
    (h : Reached (Engine.ofProject settings project) scripts s) (hmem : t ∈ s.threads) :
    s.GuardsRecursion t := by
  obtain ⟨settings', hs⟩ := h.upholds lasting_onTrack (Engine.pool_ofProject settings project)
  obtain ⟨position, ht⟩ := List.mem_iff_getElem?.1 hmem
  obtain ⟨hat, -, htrack⟩ := hs.exists_script ht
  rw [← hs.world] at htrack
  exact guardsRecursion_of_mirrors htrack.visible
    ((hs.driven lasting_onTrack).mirrored.activity ht)

/-! ### A procedure that calls itself -/

/-- Single steps lead from reached schedules to reached schedules. -/
theorem Reached.stepAt {e : Engine} {scripts : List (BlockId × TargetId)} {s s' : Schedule}
    {now : Moment} {position : Nat} (h : Reached e scripts s)
    (hstep : s.stepAt (fun _ a ↦ a.stepBlock now) position = .ok s') : Reached e scripts s' := by
  rcases ht : s.threads[position]? with - | t
  · rw [Schedule.stepAt, ht] at hstep
    cases hstep
    exact h
  · obtain ⟨request, a, hturn, rfl⟩ := exists_of_stepAt ht hstep
    exact (h.work ht (.step hturn)).mark request position

/-- A script that calls a procedure which does nothing but call itself, in warp mode. -/
def selfish : Project where
  targets := [{
    name := "sprite"
    blocks := ⟨[
      ("hat", { opcode := "event_whenflagclicked", next := some "call" }),
      ("call", { opcode := "procedures_call",
                 mutation := some { proccode := some "p", warp := some (.boolean true) } }),
      ("definition", { opcode := "procedures_definition", next := some "again",
                       inputs := ⟨[("custom_block", .block "prototype")],
                         List.nodup_singleton "custom_block"⟩ }),
      ("prototype", { opcode := "procedures_prototype",
                      mutation := some { proccode := some "p" } }),
      ("again", { opcode := "procedures_call",
                  mutation := some { proccode := some "p", warp := some (.boolean true) } })],
      by decide⟩ }]

/-- The block is a call of the procedure that calls itself. -/
def isSelfish (b : Block) : Bool :=
  b.opcode == Block.callOpcode && b.proccode == some "p"

/-- After two steps the thread is inside the procedure, and runs. The next call is recursive, there
is no budget for warp mode, and the thread yields. -/
theorem guardsRecursion_selfish :
    ∃ scripts s t a, Reached (Engine.ofProject ⟨30, 9, 0, false⟩ selfish) scripts s ∧
      t ∈ s.threads ∧ t.levels.map Level.block = [some "again", some "call"] ∧
      t.status = .running ∧ s.GuardsRecursion t ∧
      Activity.stepBlock ⟨s.engine, t⟩ 0 = .ok (none, a) ∧ a.thread.status = .yield := by
  set step : Nat → Activity → Except Halt (Option StopRequest × Activity) :=
    fun _ a ↦ a.stepBlock 0 with hstep
  have hrun : (start (Engine.ofProject ⟨30, 9, 0, false⟩ selfish) >>= fun s ↦
      s.stepAt step 0 >>= fun s ↦ s.stepAt step 0).map (fun s ↦ s.threads.map fun t ↦
        (t.levels.map Level.block, decide (t.status = .running ∧
          s.engine.settings.warpTime = 0 ∧
          (s.engine.resolve? t.target "again").any isSelfish ∧
          (s.engine.resolve? t.target "call").any isSelfish ∧
          s.engine.procedureBody? t.target "p" = some "again"))) =
      .ok [([some "again", some "call"], true)] := by
    rw [hstep]
    decide +kernel
  obtain ⟨s, hsteps, hthreads⟩ := exists_of_map_eq_ok hrun
  obtain ⟨s₀, hstart, hsteps⟩ := exists_of_bind_eq_ok hsteps
  obtain ⟨s₁, hfirst, hsecond⟩ := exists_of_bind_eq_ok hsteps
  have hreached := ((Reached.start hstart).stepAt hfirst).stepAt hsecond
  obtain ⟨t, hs, hfacts⟩ := List.map_eq_singleton_iff.1 hthreads
  obtain ⟨hblocks, hfacts⟩ := Prod.mk.inj hfacts
  obtain ⟨hrunning, hbudget, hagain, hcall, hbody⟩ := of_decide_eq_true hfacts
  have hmem : t ∈ s.threads := hs ▸ List.mem_singleton_self t
  have hguards := guardsRecursion_of_reached hreached hmem
  -- The block at work and the one below it call the same procedure.
  obtain ⟨again, hb, hselfish⟩ := (Option.any_eq_true _ _).1 hagain
  obtain ⟨call, hb', hselfish'⟩ := (Option.any_eq_true _ _).1 hcall
  rw [isSelfish, Bool.and_eq_true, beq_iff_eq, beq_iff_eq] at hselfish hselfish'
  obtain ⟨top, rest, hlevels, htop, hrest⟩ := List.map_eq_cons_iff.1 hblocks
  obtain ⟨lower, rfl, hlower⟩ := List.map_eq_singleton_iff.1 hrest
  have hpeek : t.peek? = some "again" := by
    rw [Thread.peek?, hlevels]
    exact htop
  have hrecurs : s.Recurs t "p" := by
    refine ⟨lower, ?_, "call", call, hlower, hb', .inl hselfish'.1, hselfish'.2⟩
    rw [hlevels]
    exact List.mem_singleton_self lower
  obtain ⟨a, frame, hcalled, -, -, hyields, -⟩ :=
    hguards.call hpeek hb hselfish.1 hselfish.2 hbody 0
  refine ⟨_, s, t, a, hreached, hmem, hblocks, hrunning, hguards, hcalled, hyields ⟨hrecurs, ?_⟩⟩
  exact .inr (Nat.le_trans (Nat.le_of_eq hbudget) (Nat.zero_le _))

end Schedule

end BlockScript
