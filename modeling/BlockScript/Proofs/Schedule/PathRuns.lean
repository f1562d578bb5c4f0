import BlockScript.Proofs.Schedule.Reaching
import BlockScript.Proofs.Thread.Paths

/-!
# Threads stay on their scripts

Whatever a driver does with the threads of a project, and in whatever order, the stack of each of
them is a path through the program that starts where its script starts
(`Schedule.followsPath_of_reached`). `OnTrack` is the property behind this. It lasts
(`lasting_onTrack`), because a thread follows the stack machine, and the machine keeps to paths.

No check in the engine says any of this. A step that finds the level below without a block takes the
thread for finished, and a thread that switched targets would look its blocks up elsewhere; that
neither comes up is what the path is for.
-/

namespace BlockScript

namespace Rests

variable {w : World} {target : TargetId} {lot : Lot} {stack : Stack} {t : InlineThread}

/-- The levels have the blocks of the stack, done or not. -/
theorem blocks_eq (h : Rests w target lot stack t) :
    t.levels.map InlineLevel.block = stack := by
  by_cases hnil : stack = []
  · subst hnil
    rw [h.levels_eq_nil, List.map_nil]
  · exact (h.stands hnil).blocks_eq

/-- **One step** of a thread that may be done. It follows the machine, whatever the time. -/
theorem stepBlock (h : Rests w target lot stack t) (now : Moment) :
    ∃ t', t.stepBlock w now = .ok (Stack.request? w target stack, t') ∧
      Rests w target lot (Stack.step w target stack) t' := by
  by_cases hnil : stack = []
  · subst hnil
    have hlevels := h.levels_eq_nil
    have hpeek : t.peek? = none := by
      rw [InlineThread.peek?, hlevels]
      rfl
    have hpop : t.pop = .ok (none, t) := by rw [InlineThread.pop, hlevels]
    obtain ⟨t', hstop, h'⟩ := h.stopScript
    refine ⟨t', ?_, h'⟩
    rw [InlineThread.stepBlock, hpeek, hpop]
    simp only [bind, Except.bind, hpeek, hstop, Except.map]
    rfl
  · exact (h.stands hnil).stepBlock hnil now

end Rests

/-- The thread runs the script that it started with, and its stack is a path through it. -/
structure OnTrack (w : World) (hat : BlockId × TargetId) (t : InlineThread) : Prop where
  /-- It is where it started. -/
  home : t.AtHome hat
  /-- It is not highlighted once it is done. -/
  dimmed : t.Dimmed
  /-- It follows the machine, along a path. -/
  path : ∃ lot stack, Rests w hat.2 lot stack t ∧ Stack.IsPath w hat.2 hat.1 stack

/-- **A thread on track stays on track.** -/
theorem lasting_onTrack : Lasting OnTrack where
  rests := by
    intro w hat t h
    obtain ⟨lot, stack, hrests, -⟩ := h.path
    exact ⟨lot, stack, hrests⟩
  started := by
    intro w hat compilation
    refine ⟨⟨rfl, rfl, rfl, ?_⟩, ?_, _, _, Rests.started w hat compilation,
      .start w hat.2 hat.1⟩
    · intro level hmem
      obtain rfl := List.mem_singleton.1 hmem
      rfl
    · intro hdone
      cases hdone
  stepBlock := by
    intro w hat t t' now request h hstep
    obtain ⟨lot, stack, hrests, hpath⟩ := h.path
    obtain ⟨t₁, hstep₁, hrests₁⟩ := hrests.stepBlock now
    obtain ⟨-, rfl⟩ := Prod.mk.inj (Except.ok.inj (hstep₁.symm.trans hstep))
    exact ⟨(InlineThread.kept_atHome hat).stepBlock h.home hstep,
      InlineThread.kept_dimmed.stepBlock h.dimmed hstep, lot, _, hrests₁, hpath.step⟩
  stopScript := by
    intro w hat t t' h hstop
    obtain ⟨lot, stack, hrests, hpath⟩ := h.path
    obtain ⟨t₁, hstop₁, hrests₁⟩ := hrests.stopScript
    obtain rfl : t₁ = t' := Except.ok.inj (hstop₁.symm.trans hstop)
    exact ⟨(InlineThread.kept_atHome hat).stopScript h.home hstop,
      InlineThread.kept_dimmed.stopScript h.dimmed hstop, lot, _, hrests₁, hpath.unwind⟩
  kill := by
    intro w hat t t' h hkill
    obtain ⟨lot, stack, hrests, -⟩ := h.path
    obtain ⟨t₁, hkill₁, hrests₁⟩ := hrests.kill
    obtain rfl : t₁ = t' := Except.ok.inj (hkill₁.symm.trans hkill)
    exact ⟨(InlineThread.kept_atHome hat).kill h.home hkill,
      InlineThread.kept_dimmed.kill h.dimmed hkill, lot, _, hrests₁, .nil⟩
  pace := by
    intro w hat t status timer h hlive hstatus
    obtain ⟨lot, stack, hrests, hpath⟩ := h.path
    have hne : stack ≠ [] := mt hrests.status_eq_done_iff.2 hlive
    have hstands := hrests.stands hne
    have hpaced : Stands w hat.2 lot stack ((t.withWarpTimer timer).withStatus status) :=
      ⟨hstands.target_eq, hstands.blocks_eq, hstands.shape, hstatus, hstands.lot_eq⟩
    refine ⟨⟨h.home.topBlock_eq, h.home.target_eq, h.home.targetStack_eq, h.home.switched_eq⟩, ?_,
      lot, stack, hpaced.rests hne, hpath⟩
    intro hdone
    have hdone' : status = .done := hdone
    rcases hstatus with rfl | rfl <;> cases hdone'
  mark := by
    intro w hat t killed h
    obtain ⟨lot, stack, hrests, hpath⟩ := h.path
    exact ⟨⟨h.home.topBlock_eq, h.home.target_eq, h.home.targetStack_eq, h.home.switched_eq⟩,
      h.dimmed, _, stack, hrests.mark killed, hpath⟩
  under := by
    intro w hat t settings h
    obtain ⟨lot, stack, hrests, hpath⟩ := h.path
    exact ⟨h.home, h.dimmed, lot, stack, hrests.under settings, hpath.under settings⟩

/-- The levels have the blocks of a path. -/
theorem OnTrack.isPath {w : World} {hat : BlockId × TargetId} {t : InlineThread}
    (h : OnTrack w hat t) : Stack.IsPath w hat.2 hat.1 (t.levels.map InlineLevel.block) := by
  obtain ⟨lot, stack, hrests, hpath⟩ := h.path
  rw [hrests.blocks_eq]
  exact hpath

/-- A level is flagged as a loop only if its block is one. -/
theorem OnTrack.isLoop_of_flag {w : World} {hat : BlockId × TargetId} {t : InlineThread}
    (h : OnTrack w hat t) {level : InlineLevel} (hmem : level ∈ t.levels)
    (hflag : level.frame.isLoop = true) : w.isLoop hat.2 level.block = true := by
  obtain ⟨lot, stack, hrests, -⟩ := h.path
  have hne : stack ≠ [] := by
    rintro rfl
    rw [hrests.levels_eq_nil] at hmem
    cases hmem
  have hshape := (hrests.stands hne).shape
  rcases hlevels : t.levels with - | ⟨top, rest⟩
  · rw [hlevels] at hmem
    cases hmem
  · rw [hlevels] at hmem hshape
    rcases List.mem_cons.1 hmem with rfl | hmem
    · exact hshape.1.isLoop_of_flag hflag
    · exact (hshape.2 level hmem).isLoop_of_flag hflag

namespace Schedule

/-- **A thread whose stack is a path** through the program, from the block and the target that its
script started with. Levels are innermost first, as everywhere. -/
structure FollowsPath (s : Schedule) (hat : BlockId × TargetId) (t : Thread) : Prop where
  /-- It runs the script that it started with. -/
  topBlock_eq : t.topBlock = hat.1
  /-- It is on the target that it started on. -/
  target_eq : t.target = hat.2
  /-- It has no target to return to. -/
  targetStack_eq : t.targetStack = []
  /-- No level has switched targets. -/
  switched_eq : ∀ level ∈ t.levels, level.switched = false
  /-- Every level but the top one has a block, and it exists. -/
  found : ∀ level ∈ t.levels.tail, ∃ id b, level.block = some id ∧
    s.engine.resolve? t.target id = some b
  /-- The outermost level is on the chain of the script. -/
  outermost : ∀ {level : Level}, t.levels.getLast? = some level →
    s.engine.world.OnChain t.target t.topBlock level.block
  /-- A level above another one is on the chain that the other one leads into. -/
  enclosed : ∀ {i : Nat} {upper lower : Level}, t.levels[i]? = some upper →
    t.levels[i + 1]? = some lower → ∃ id b first, lower.block = some id ∧
      s.engine.resolve? t.target id = some b ∧
      s.engine.world.inside? t.target b = some first ∧
      s.engine.world.OnChain t.target first upper.block
  /-- Every level has a frame, which is flagged as a loop only if the block is one. -/
  isLoop_of_flag : ∀ level ∈ t.levels, ∃ frame, s.engine.pool.get level.frame = .ok frame ∧
    (frame.isLoop = true → ∃ id b, level.block = some id ∧
      s.engine.resolve? t.target id = some b ∧ b.opcode = Block.foreverOpcode)

theorem followsPath_of_onTrack {s : Schedule} {hat : BlockId × TargetId} {t : Thread}
    (h : OnTrack s.engine.world hat (t.inline s.engine.pool)) (hlends : s.engine.pool.Lends s.held)
    (hmem : t ∈ s.threads) : s.FollowsPath hat t := by
  have htarget : t.target = hat.2 := h.home.target_eq
  have htop : t.topBlock = hat.1 := h.home.topBlock_eq
  have hblocks : (t.inline s.engine.pool).levels.map InlineLevel.block =
      t.levels.map Level.block := by
    rw [Thread.inline, List.map_map]
    rfl
  have hpath := h.isPath
  rw [hblocks, ← htarget, ← htop] at hpath
  have hinline : ∀ level ∈ t.levels,
      level.inline s.engine.pool ∈ (t.inline s.engine.pool).levels :=
    fun level hlevel ↦ List.mem_map_of_mem hlevel
  have henclosed : ∀ {i : Nat} {upper lower : Level}, t.levels[i]? = some upper →
      t.levels[i + 1]? = some lower → ∃ id b first, lower.block = some id ∧
        s.engine.resolve? t.target id = some b ∧
        s.engine.world.inside? t.target b = some first ∧
        s.engine.world.OnChain t.target first upper.block := by
    intro i upper lower hupper hlower
    refine hpath.exists_of_getElem? (i := i) ?_ ?_
    · rw [List.getElem?_map, hupper, Option.map_some]
    · rw [List.getElem?_map, hlower, Option.map_some]
  refine ⟨htop, htarget, h.home.targetStack_eq, ?_, ?_, ?_, henclosed, ?_⟩
  · intro level hlevel
    exact h.home.switched_eq _ (hinline level hlevel)
  · intro level hlevel
    obtain ⟨i, hi⟩ := List.mem_iff_getElem?.1 hlevel
    rw [List.getElem?_tail] at hi
    obtain ⟨hlt, -⟩ := List.getElem?_eq_some_iff.1 hi
    obtain ⟨id, b, -, hid, hb, -⟩ :=
      henclosed (List.getElem?_eq_getElem (Nat.lt_of_succ_lt hlt)) hi
    exact ⟨id, b, hid, hb⟩
  · intro level hlast
    refine hpath.onChain_getLast? ?_
    rw [List.getLast?_map, hlast, Option.map_some]
  · intro level hlevel
    refine ⟨(level.inline s.engine.pool).frame, hlends.get_of_mem ?_, fun hflag ↦ ?_⟩
    · exact List.mem_flatMap.2 ⟨t, hmem, List.mem_map_of_mem hlevel⟩
    · have hloop := h.isLoop_of_flag (hinline level hlevel) hflag
      rcases hblock : level.block with - | id
      · have hnone : (level.inline s.engine.pool).block = none := hblock
        rw [hnone] at hloop
        cases hloop
      · have hsome : (level.inline s.engine.pool).block = some id := hblock
        rw [hsome] at hloop
        obtain ⟨b, hb, hforever, -⟩ := World.exists_of_isLoop hloop
        rw [← htarget] at hb
        exact ⟨id, b, rfl, hb, Block.opcode_eq_forever hforever⟩

/-! ### Which scripts are left -/

theorem remaining_sublist (scripts : List (BlockId × TargetId)) (threads : List Thread) :
    (remaining scripts threads).Sublist scripts := by
  have hzip : ((scripts.zip threads).map Prod.fst).Sublist scripts := by
    rw [List.zip_eq_zip_take_min, List.map_fst_zip (by simp)]
    exact List.take_sublist _ _
  exact (List.filter_sublist.map Prod.fst).trans hzip

/-- The scripts of the threads are scripts of the project, in order. -/
theorem Reached.sublist_hats {e : Engine} {scripts : List (BlockId × TargetId)} {s : Schedule}
    (h : Reached e scripts s) : scripts.Sublist (hats e) := by
  induction h with
  | start _ => exact List.Sublist.refl _
  | prepare _ _ ih => exact ih
  | work _ _ _ ih => exact ih
  | mark _ _ _ ih => exact ih
  | sweep _ ih => exact (remaining_sublist _ _).trans ih

/-- **The stack is always a path through the program.** In every schedule that a driver reaches with
the scripts of a project, every thread belongs to one of the project's scripts, and its stack is a
path from the start of that script. Its next step returns, too. -/
theorem followsPath_of_reached {settings : Settings} {project : Project}
    {scripts : List (BlockId × TargetId)} {s : Schedule}
    (h : Reached (Engine.ofProject settings project) scripts s) :
    scripts.Sublist (hats (Engine.ofProject settings project)) ∧
      scripts.length = s.threads.length ∧
      ∀ {position : Nat} {hat : BlockId × TargetId} {t : Thread}, scripts[position]? = some hat →
        s.threads[position]? = some t → s.FollowsPath hat t ∧
          ∀ now, ∃ result, Activity.stepBlock ⟨s.engine, t⟩ now = .ok result := by
  obtain ⟨settings', hs⟩ := h.upholds lasting_onTrack (Engine.pool_ofProject settings project)
  refine ⟨h.sublist_hats, hs.length_eq, ?_⟩
  intro position hat t hhat ht
  have htrack := hs.holds hhat ht
  have hmirrors := (hs.driven lasting_onTrack).mirrored.activity ht
  rw [← hs.world] at htrack
  refine ⟨followsPath_of_onTrack htrack hs.lends (List.mem_of_getElem? ht), fun now ↦ ?_⟩
  obtain ⟨lot, stack, hrests, -⟩ := htrack.path
  obtain ⟨t', hstep, -⟩ := hrests.stepBlock now
  have hagree := hmirrors.stepBlock now
  rw [hstep] at hagree
  obtain ⟨result, hok, -⟩ := hagree.exists_left
  exact ⟨result, hok⟩

/-! ### A call within a loop -/

/-- A hat and an endless loop around a call of a procedure with two blocks. -/
def winding : Project where
  targets := [{
    name := "sprite"
    blocks := ⟨[
      ("hat", { opcode := "event_whenflagclicked", next := some "loop" }),
      ("loop", { opcode := "control_forever",
                 inputs := ⟨[("SUBSTACK", .block "call")], List.nodup_singleton "SUBSTACK"⟩ }),
      ("call", { opcode := "procedures_call", mutation := some { proccode := some "p" } }),
      ("definition", { opcode := "procedures_definition", next := some "one",
                       inputs := ⟨[("custom_block", .block "prototype")],
                         List.nodup_singleton "custom_block"⟩ }),
      ("prototype", { opcode := "procedures_prototype",
                      mutation := some { proccode := some "p" } }),
      ("one", { opcode := "looks_say", next := some "other" }),
      ("other", { opcode := "looks_say" })], by decide⟩ }]

/-- With one step a frame the thread is at the second block of the procedure after four frames, and
the three levels are a path: the call is what the loop encloses, and the procedure is what the call
leads into. -/
theorem followsPath_winding :
    ∃ s t, Reached (Engine.ofProject ⟨30, 0, 0, false⟩ winding) [("hat", ⟨0⟩)] s ∧
      s.threads = [t] ∧ t.levels.map Level.block = [some "other", some "call", some "loop"] ∧
      s.FollowsPath ("hat", ⟨0⟩) t := by
  set e := Engine.ofProject ⟨30, 0, 0, false⟩ winding with he
  set ticks : List Tick := (List.range 4).map fun now ↦ ⟨.still now, 9, 0, 0, []⟩ with hticks
  have hrun : (start e >>= drive ticks).map (fun s ↦
      s.threads.map fun t ↦ t.levels.map Level.block) =
        .ok [[some "other", some "call", some "loop"]] := by
    rw [he, hticks]
    decide +kernel
  rcases hstart : start e with cause | s₀
  · rw [hstart] at hrun
    cases hrun
  · obtain ⟨s, hdrive, hthreads⟩ := exists_of_map_eq_ok hrun
    rw [hstart] at hdrive
    obtain ⟨scripts, hreached⟩ := (Reached.start hstart).drive ticks hdrive
    obtain ⟨t, hs, hlevels⟩ := List.map_eq_singleton_iff.1 hthreads
    obtain ⟨hsublist, hlength, hfollows⟩ := followsPath_of_reached hreached
    -- The project has one script, so it is the script of the one thread that is left.
    rw [hs] at hlength
    have hscripts : scripts = [("hat", ⟨0⟩)] := hsublist.eq_of_length hlength
    subst hscripts
    have ht : s.threads[0]? = some t := by
      rw [hs]
      rfl
    exact ⟨s, t, hreached, hs, hlevels, (hfollows rfl ht).1⟩

end Schedule

end BlockScript
