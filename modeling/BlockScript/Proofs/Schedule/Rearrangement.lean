import BlockScript.Proofs.Schedule.Interleaving
import BlockScript.Proofs.Schedule.QuietRuns
import BlockScript.Proofs.Thread.Enumeration
import Mathlib.Algebra.GroupWithZero.Nat

/-!
# The order of blocks and threads cannot be observed

Two things about a run are arbitrary: the order in which a target lists its blocks, which decides in
what order the scripts are started, and with it the order of the threads. As long as no thread ends
another one, neither can be observed (`Schedule.drive_reordered`): the threads live the same lives,
and what differs is the order in which they stand and the cells of the pool in which they keep their
frames. A clock that goes on shows them something else the later their turns come, which under
budgets of nothing or without end is seen in their timers only.

Neither run is compared with the other. In a quiet run each thread lives the life that it would live
by itself (`Driven.quietly_of_drive`), which is a matter of the world alone
(`World.Agrees.quietly`); and such lives make a run in whatever order they are put
(`Driven.exists_drive`).
-/

namespace BlockScript

/-! ### Lives in worlds that agree -/

namespace World.Agrees

variable {w w' : World}

theorem during (h : w.Agrees w') (tick : Tick) : (w.during tick).Agrees (w'.during tick) := by
  rw [World.during, World.during, h.settings_eq]
  exact h.under _

/-- A turn is a matter of the world alone. -/
theorem atTick (h : w.Agrees w') (v : View) (tick : Tick) (t : InlineThread) :
    t.atTick v w tick = t.atTick v w' tick :=
  congrArg (Except.map v.result) ((h.during tick).takeTurn t _ _ _)

theorem afterTick (h : w.Agrees w') (v : View) (tick : Tick) (t : InlineThread) :
    t.afterTick v w tick = t.afterTick v w' tick := by
  rw [InlineThread.afterTick, InlineThread.afterTick, h.atTick]

/-- And so is it whether all turns end quietly. -/
theorem quietly (h : w.Agrees w') {v : View} (ticks : List Tick) : ∀ {t : InlineThread},
    t.Quietly v w ticks → t.Quietly v w' ticks := by
  induction ticks with
  | nil => exact fun _ ↦ trivial
  | cons tick ticks ih =>
    rintro t ⟨blocks, t', hturn, hrest⟩
    exact ⟨blocks, t', h.atTick v tick t ▸ hturn, fun hlive ↦ ih (hrest hlive)⟩

/-- So is the life of a thread. -/
theorem life (h : w.Agrees w') (v : View) (ticks : List Tick) : ∀ t : InlineThread,
    t.life v w ticks = t.life v w' ticks := by
  induction ticks with
  | nil => exact fun _ ↦ rfl
  | cons tick ticks ih =>
    intro t
    rw [InlineThread.life, InlineThread.life, h.atTick]
    simp only [ih]

/-- So is what is left of it. -/
theorem remains (h : w.Agrees w') (v : View) (ticks : List Tick) : ∀ t : InlineThread,
    t.remains v w ticks = t.remains v w' ticks := by
  induction ticks with
  | nil => exact fun _ ↦ rfl
  | cons tick ticks ih =>
    intro t
    rw [InlineThread.remains, InlineThread.remains, h.afterTick, ih]

end World.Agrees

namespace Schedule

/-! ### The start -/

/-- What the thread of a hat looks like at its start. -/
def opening (e : Engine) (hat : BlockId × TargetId) : InlineThread :=
  InlineThread.started hat ((e.compilation hat).toOption.getD .pending)

/-- What the threads look like at the start is a matter of their hats. -/
theorem inlines_start {e : Engine} {s : Schedule} (hpool : e.pool = Pool.empty)
    (hstart : start e = .ok s) : s.inlines = (hats e).map (opening e) := by
  obtain ⟨-, hlength, hthreads⟩ := driven_start hpool hstart
  refine List.ext_getElem? fun position ↦ ?_
  rw [getElem?_inlines, List.getElem?_map]
  rcases hhat : (hats e)[position]? with - | hat
  · rw [List.getElem?_eq_none_iff, ← hlength, ← List.getElem?_eq_none_iff] at hhat
    rw [hhat]
    rfl
  · have hlt : position < s.threads.length := hlength ▸ (List.getElem?_eq_some_iff.1 hhat).1
    have ht := List.getElem?_eq_getElem hlt
    obtain ⟨compilation, hcompilation, hinline⟩ := hthreads position hat _ hhat ht
    rw [ht, Option.map_some, Option.map_some, hinline, opening, hcompilation]
    rfl

/-- Compiling comes to a result where the scripts are started. -/
theorem exists_compilation_of_start {e : Engine} {s : Schedule} (hpool : e.pool = Pool.empty)
    (hstart : start e = .ok s) :
    ∀ hat ∈ hats e, ∃ compilation, e.compilation hat = .ok compilation := by
  intro hat hmem
  obtain ⟨-, hlength, hthreads⟩ := driven_start hpool hstart
  obtain ⟨position, hhat⟩ := List.mem_iff_getElem?.1 hmem
  have hlt : position < s.threads.length := hlength ▸ (List.getElem?_eq_some_iff.1 hhat).1
  obtain ⟨compilation, hcompilation, -⟩ :=
    hthreads position hat _ hhat (List.getElem?_eq_getElem hlt)
  exact ⟨compilation, hcompilation⟩

section Reordered

variable {e e' : Engine} (h : List.Forall₂ Target.Reordered e.targets e'.targets)

include h

/-- The same scripts are started in another order. -/
theorem perm_hats : (hats e).Perm (hats e') := by
  rw [hats, hats]
  generalize e.targets = targets, e'.targets = targets' at h
  -- The positions of the targets may be counted from any number.
  generalize 0 = first
  induction h generalizing first with
  | nil => exact List.Perm.refl _
  | cons hfirst _ ih =>
    rw [List.zipIdx_cons, List.zipIdx_cons, List.map_cons, List.map_cons, List.flatten_cons,
      List.flatten_cons]
    exact ((hfirst.blocks_perm.filter _).map _).append (ih (first + 1))

/-- There are as many blocks. -/
theorem blockCount_eq : e.blockCount = e'.blockCount := by
  rw [Engine.blockCount, Engine.blockCount]
  generalize e.targets = targets, e'.targets = targets' at h
  generalize 0 = count
  induction h generalizing count with
  | nil => rfl
  | cons hfirst _ ih =>
    rw [List.foldl_cons, List.foldl_cons, Table.size, Table.size, hfirst.blocks_perm.length_eq, ih]

/-- They are compiled alike. -/
theorem compilation_eq (hagree : e.world.Agrees e'.world) : e.compilation = e'.compilation := by
  funext hat
  have hsettings : e.settings = e'.settings := hagree.settings_eq
  have hresolve : e.resolve? = e'.resolve? := hagree.resolve?_eq
  rw [Engine.compilation, Engine.compilation, hsettings, StraightLine.compile,
    StraightLine.compile, StraightLine.follow_congr hresolve, blockCount_eq h]

/-- The same threads are started, in another order. -/
theorem perm_inlines_start {s s' : Schedule} (hagree : e.world.Agrees e'.world)
    (hpool : e.pool = Pool.empty) (hpool' : e'.pool = Pool.empty) (hstart : start e = .ok s)
    (hstart' : start e' = .ok s') : s.inlines.Perm s'.inlines := by
  have hopening : opening e = opening e' := by
    funext hat
    rw [opening, opening, compilation_eq h hagree]
  rw [inlines_start hpool hstart, inlines_start hpool' hstart', hopening]
  exact (perm_hats h).map _

end Reordered

/-! ### Runs -/

/-- What is seen of the threads of a schedule, each with all that is seen of it in a run. -/
def lives (v : View) (s : Schedule) (ticks : List Tick) :
    List (InlineThread × List (List BlockId × InlineThread)) :=
  s.inlines.mapIdx fun position t ↦ (v.see t, (s.reportsOf ticks position).map v.report)

/-- What is seen of a thread is a matter of the thread, if it is so at every position. -/
theorem lives_eq {v : View} {s : Schedule} {ticks : List Tick}
    {life : InlineThread → List (List BlockId × InlineThread)}
    (hreports : ∀ position t, s.inlines[position]? = some t →
      (s.reportsOf ticks position).map v.report = life (v.see t)) :
    s.lives v ticks = (s.inlines.map v.see).map fun t ↦ (t, life t) := by
  refine List.ext_getElem? fun position ↦ ?_
  rw [lives, List.getElem?_mapIdx, List.getElem?_map, List.getElem?_map]
  rcases ht : s.inlines[position]? with - | t
  · rfl
  · rw [Option.map_some, Option.map_some, Option.map_some, hreports position t ht]

/-- The same threads in another order, with as many frames in use. -/
structure Rearranged (v : View) (s s' : Schedule) : Prop where
  /-- The threads look the same. -/
  inlines_perm : (s.inlines.map v.see).Perm (s'.inlines.map v.see)
  /-- The pools have lent out equally many frames. -/
  inUseCount_eq : s.engine.pool.inUseCount = s'.engine.pool.inUseCount

namespace Driven

variable {w w' : World} {s s' : Schedule}

/-- The threads may stand in any order. -/
theorem permuted (h : Driven w s) {threads : List Thread} (hperm : s.threads.Perm threads) :
    Driven w ⟨s.engine, threads⟩ where
  world := h.world
  lends := h.lends.perm (hperm.flatMap_right _)
  rests := fun t hmem ↦ h.rests t (hperm.mem_iff.2 hmem)

/-- What the threads look like tells how many frames are in use. -/
theorem inUseCount_eq (h : Driven w s) :
    s.engine.pool.inUseCount = (s.inlines.map InlineThread.depth).sum := by
  have hdepth : ∀ t : Thread, (t.inline s.engine.pool).depth = t.frames.length := by
    intro t
    rw [InlineThread.depth, Thread.inline, List.length_map, Thread.frames, List.length_map]
  rw [h.lends.inUseCount_eq, held, List.length_flatMap, inlines, List.map_map]
  exact congrArg List.sum (List.map_congr_left fun t _ ↦ (hdepth t).symm)

/-- Schedules whose threads look the same have as many frames in use. -/
theorem rearranged {v : View} (h : Driven w s) (h' : Driven w' s')
    (hperm : (s.inlines.map v.see).Perm (s'.inlines.map v.see)) : Rearranged v s s' := by
  have hdepth : ∀ ts : List InlineThread,
      ts.map InlineThread.depth = (ts.map v.see).map InlineThread.depth := by
    intro ts
    rw [List.map_map]
    refine List.map_congr_left fun t _ ↦ ?_
    rw [Function.comp, InlineThread.depth, InlineThread.depth, v.levels_see]
  refine ⟨hperm, ?_⟩
  rw [h.inUseCount_eq, h'.inUseCount_eq, hdepth s.inlines, hdepth s'.inlines]
  exact (hperm.map _).sum_nat

/-- **Two runs of the same threads**, in worlds that agree and under ticks that are seen alike: if
the first one ends and is quiet, the second one ends as well, and the threads live the same
lives. -/
theorem rearranged_of_drive {v : View} {ticks ticks' owns : List Tick} {f : Schedule}
    (h : Driven w s) (h' : Driven w' s') (hagree : w.Agrees w') (hperm : s.inlines.Perm s'.inlines)
    (hseen : List.Forall₂ (Tick.SeenAs v) ticks owns)
    (hseen' : List.Forall₂ (Tick.SeenAs v) ticks' owns) (hdrive : s.drive ticks = .ok f)
    (hquiet : s.Undisturbed ticks) :
    ∃ f', s'.drive ticks' = .ok f' ∧ Rearranged v f f' ∧
      (s.lives v ticks).Perm (s'.lives v ticks') := by
  have hlives := quietly_of_drive hseen h (fun _ ↦ rfl) hdrive hquiet
  have hlives' : ∀ t ∈ s'.inlines, (v.see t).Quietly v w' owns :=
    fun t hmem ↦ hagree.quietly owns (hlives t (hperm.mem_iff.2 hmem))
  obtain ⟨f₁, hdrive₁, hleft, hreports⟩ := exists_drive hseen h (fun _ ↦ rfl) hlives
  obtain rfl : f₁ = f := Except.ok.inj (hdrive₁.symm.trans hdrive)
  obtain ⟨f', hdrive', hleft', hreports'⟩ := exists_drive hseen' h' (fun _ ↦ rfl) hlives'
  obtain ⟨settings, hf⟩ := h.of_drive hdrive
  obtain ⟨settings', hf'⟩ := h'.of_drive hdrive'
  refine ⟨f', hdrive', hf.rearranged hf' ?_, ?_⟩
  · rw [hleft, hleft', ← funext (hagree.remains v owns)]
    exact (hperm.map _).filterMap _
  · rw [lives_eq hreports, lives_eq hreports', ← funext (hagree.life v owns)]
    exact (hperm.map _).map _

end Driven

/-- **The order of blocks and threads cannot be observed** without stop requests. Let the blocks of
each target of a project stand in another order, and let no target define a procedure twice. Then
the same scripts are started, and their threads may be put into any order, here and there: if frames
of the one schedule come to an end, and no thread executes a block that ends other scripts, then the
frames of the other schedule come to an end. The same threads remain, with the same levels and
frames, as many frames are in use, and each thread has lived the same life.

The frames of both schedules have the same budgets, of nothing or without end; what the clocks show
in them is only seen in the timers of the threads. If there is one clock, and it shows the same to
all threads, the budgets may be any, and the timers are the same too. -/
theorem drive_reordered {settings : Settings} {project project' : Project} {s₁ : Schedule}
    (h : project.Reordered project') (hunique : project.UniqueDefinitions)
    (hstart : start (Engine.ofProject settings project) = .ok s₁) :
    ∃ s₂, start (Engine.ofProject settings project') = .ok s₂ ∧ Rearranged .full s₁ s₂ ∧
      ∀ threads₁ threads₂ ticks₁ f₁, s₁.threads.Perm threads₁ → s₂.threads.Perm threads₂ →
        drive ticks₁ ⟨s₁.engine, threads₁⟩ = .ok f₁ → Undisturbed ⟨s₁.engine, threads₁⟩ ticks₁ →
        (∀ ticks₂, List.Forall₂ Tick.SameBudgets ticks₁ ticks₂ →
          ∃ f₂, drive ticks₂ ⟨s₂.engine, threads₂⟩ = .ok f₂ ∧ Rearranged .timerless f₁ f₂ ∧
            (lives .timerless ⟨s₁.engine, threads₁⟩ ticks₁).Perm
              (lives .timerless ⟨s₂.engine, threads₂⟩ ticks₂)) ∧
        ((∀ tick ∈ ticks₁, tick.Impartial) →
          ∃ f₂, drive ticks₁ ⟨s₂.engine, threads₂⟩ = .ok f₂ ∧ Rearranged .full f₁ f₂ ∧
            (lives .full ⟨s₁.engine, threads₁⟩ ticks₁).Perm
              (lives .full ⟨s₂.engine, threads₂⟩ ticks₁)) := by
  have hpool := Engine.pool_ofProject settings project
  have hpool' := Engine.pool_ofProject settings project'
  have htargets : List.Forall₂ Target.Reordered (Engine.ofProject settings project).targets
      (Engine.ofProject settings project').targets := by
    rw [Engine.targets_ofProject, Engine.targets_ofProject]
    exact h
  have hagree : (Engine.ofProject settings project).world.Agrees
      (Engine.ofProject settings project').world := by
    rw [Engine.world_ofProject, Engine.world_ofProject]
    exact h.agrees hunique settings
  obtain ⟨s₂, hstart'⟩ : ∃ s₂, start (Engine.ofProject settings project') = .ok s₂ := by
    refine exists_start hpool' fun hat hmem ↦ ?_
    rw [← compilation_eq htargets hagree]
    exact exists_compilation_of_start hpool hstart hat ((perm_hats htargets).mem_iff.2 hmem)
  have hperm := perm_inlines_start htargets hagree hpool hpool' hstart hstart'
  have h₁ := (driven_start hpool hstart).1
  have h₂ := (driven_start hpool' hstart').1
  refine ⟨s₂, hstart', h₁.rearranged h₂ (hperm.map _), ?_⟩
  intro threads₁ threads₂ ticks₁ f₁ hperm₁ hperm₂ hdrive hquiet
  have hinlines : (inlines ⟨s₁.engine, threads₁⟩).Perm (inlines ⟨s₂.engine, threads₂⟩) :=
    ((hperm₁.map _).symm.trans hperm).trans (hperm₂.map _)
  constructor
  · intro ticks₂ hsame
    obtain ⟨owns, hseen₁, hseen₂⟩ := Tick.exists_seenAs hsame
    exact (h₁.permuted hperm₁).rearranged_of_drive (h₂.permuted hperm₂) hagree hinlines hseen₁
      hseen₂ hdrive hquiet
  · intro himpartial
    have hseen : List.Forall₂ (Tick.SeenAs .full) ticks₁ ticks₁ :=
      List.forall₂_same.2 fun tick hmem ↦ (himpartial tick hmem).seenAs
    exact (h₁.permuted hperm₁).rearranged_of_drive (h₂.permuted hperm₂) hagree hinlines hseen hseen
      hdrive hquiet

/-! ### Two scripts in two orders -/

/-- The blocks of two scripts: a call of a procedure, and an endless loop. -/
def pairBlocks : List (BlockId × Block) := [
  ("hat", { opcode := "event_whenflagclicked", next := some "call" }),
  ("call", { opcode := "procedures_call", mutation := some { proccode := some "p" } }),
  ("definition", { opcode := "procedures_definition", next := some "body",
                   inputs := ⟨[("custom_block", .block "prototype")],
                     List.nodup_singleton "custom_block"⟩ }),
  ("prototype", { opcode := "procedures_prototype", mutation := some { proccode := some "p" } }),
  ("body", { opcode := "looks_say" }),
  ("other hat", { opcode := "event_whenflagclicked", next := some "loop" }),
  ("loop", { opcode := "control_forever",
             inputs := ⟨[("SUBSTACK", .block "say")], List.nodup_singleton "SUBSTACK"⟩ }),
  ("say", { opcode := "looks_say" })]

theorem nodup_pairBlocks : (pairBlocks.map Prod.fst).Nodup := by
  decide

/-- The two scripts. -/
def pair : Project :=
  ⟨[{ name := "sprite", blocks := ⟨pairBlocks, nodup_pairBlocks⟩ }]⟩

/-- The two scripts, with all blocks in reverse order. -/
def reversedPair : Project :=
  ⟨[{ name := "sprite",
      blocks := ⟨pairBlocks.reverse, by
        rw [List.map_reverse, List.nodup_reverse]
        exact nodup_pairBlocks⟩ }]⟩

/-- Six frames without any time, in which the clock goes on at a pace. -/
def sixFrames (pace : Time) : List Tick :=
  (List.range 6).map fun now ↦ ⟨.steady now pace, 9, 0, 0, []⟩

/-- Without any time it is always up. -/
theorem decides_steady (now pace : Time) : Tick.Decides ⟨.steady now pace, 9, 0, 0, []⟩ true true :=
  ⟨rfl, fun _ _ ↦ ⟨iff_of_true (Nat.le_add_right now _) rfl, rfl, rfl⟩⟩

/-- The second script is started first, the frames are kept in other cells, and the clock goes on in
the second run. After six frames the loop has lived the same life in both runs, and the other script
is over. -/
theorem drive_reordered_reversedPair :
    ∃ s₁ s₂ f₁ f₂ g₂, start (Engine.ofProject ⟨30, 0, 0, false⟩ pair) = .ok s₁ ∧
      start (Engine.ofProject ⟨30, 0, 0, false⟩ reversedPair) = .ok s₂ ∧
      s₁.threads.map Thread.topBlock = ["hat", "other hat"] ∧
      s₂.threads.map Thread.topBlock = ["other hat", "hat"] ∧
      s₁.drive (sixFrames 0) = .ok f₁ ∧ s₂.drive (sixFrames 1) = .ok f₂ ∧
      s₂.drive (sixFrames 0) = .ok g₂ ∧ f₁.held = [⟨3⟩, ⟨1⟩] ∧ f₂.held = [⟨2⟩, ⟨0⟩] ∧
      Rearranged .timerless f₁ f₂ ∧
      (s₁.lives .timerless (sixFrames 0)).Perm (s₂.lives .timerless (sixFrames 1)) ∧
      Rearranged .full f₁ g₂ ∧
      (s₁.lives .full (sixFrames 0)).Perm (s₂.lives .full (sixFrames 0)) := by
  have hrun : (do
      let s ← start (Engine.ofProject ⟨30, 0, 0, false⟩ pair)
      let f ← s.drive (sixFrames 0)
      return (s.threads.map Thread.topBlock, f.held)) =
      .ok (["hat", "other hat"], [⟨3⟩, ⟨1⟩]) := by
    decide +kernel
  have hrun' : (do
      let s ← start (Engine.ofProject ⟨30, 0, 0, false⟩ reversedPair)
      let f ← s.drive (sixFrames 1)
      return (s.threads.map Thread.topBlock, f.held)) =
      .ok (["other hat", "hat"], [⟨2⟩, ⟨0⟩]) := by
    decide +kernel
  obtain ⟨s₁, hstart, hrun₁⟩ := exists_of_bind_eq_ok hrun
  obtain ⟨f₁, hdrive, hrun₁⟩ := exists_of_bind_eq_ok hrun₁
  obtain ⟨s₂, hstart', hrun₂⟩ := exists_of_bind_eq_ok hrun'
  obtain ⟨f₂, hdrive', hrun₂⟩ := exists_of_bind_eq_ok hrun₂
  obtain ⟨htops, hheld⟩ := Prod.mk.inj (Except.ok.inj hrun₁)
  obtain ⟨htops', hheld'⟩ := Prod.mk.inj (Except.ok.inj hrun₂)
  have hreordered : pair.Reordered reversedPair :=
    .cons ⟨rfl, rfl, (List.reverse_perm pairBlocks).symm⟩ .nil
  have hquiet : s₁.Undisturbed (sixFrames 0) := by
    refine Driven.undisturbed _ (driven_start (Engine.pool_ofProject _ _) hstart).1 ?_
    intro target id b hb
    obtain ⟨sprite, hsprite, hmem⟩ := World.exists_of_resolve? hb
    have hopcode : ∀ entry ∈ pairBlocks, entry.2.opcode ≠ Block.stopOpcode := by decide
    obtain rfl := List.mem_singleton.1 hsprite
    exact ⟨fun hall ↦ hopcode _ hmem hall.1, fun hothers ↦ hopcode _ hmem hothers.1⟩
  have hsame : List.Forall₂ Tick.SameBudgets (sixFrames 0) (sixFrames 1) := by
    rw [sixFrames, sixFrames, List.forall₂_map_left_iff, List.forall₂_map_right_iff,
      List.forall₂_same]
    exact fun now _ ↦ ⟨rfl, true, true, decides_steady now 0, decides_steady now 1⟩
  have himpartial : ∀ tick ∈ sixFrames 0, tick.Impartial := by
    intro tick hmem
    obtain ⟨now, -, rfl⟩ := List.mem_map.1 hmem
    exact ⟨rfl, fun _ _ ↦ funext fun _ ↦ by simp [Clock.steady]⟩
  obtain ⟨s₂', hs₂', -, hruns⟩ := drive_reordered hreordered (by decide) hstart
  obtain rfl : s₂' = s₂ := Except.ok.inj (hs₂'.symm.trans hstart')
  obtain ⟨hbudgets, halike⟩ :=
    hruns s₁.threads s₂'.threads (sixFrames 0) f₁ (.refl _) (.refl _) hdrive hquiet
  obtain ⟨f₂', hf₂', hrearranged, hlives⟩ := hbudgets (sixFrames 1) hsame
  obtain ⟨g₂, hg₂, hrearranged', hlives'⟩ := halike himpartial
  obtain rfl : f₂' = f₂ := Except.ok.inj (hf₂'.symm.trans hdrive')
  exact ⟨s₁, s₂', f₁, f₂', g₂, hstart, hstart', htops, htops', hdrive, hdrive', hg₂, hheld, hheld',
    hrearranged, hlives, hrearranged', hlives'⟩

end Schedule

end BlockScript
