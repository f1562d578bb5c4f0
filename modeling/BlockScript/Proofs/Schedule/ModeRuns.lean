import BlockScript.Proofs.Schedule.PathRuns
import BlockScript.Proofs.Thread.Modes

/-!
# Warp mode in runs

A thread in warp mode is not held to the budget of the frame, so it matters that no level is in warp
mode by accident: frames are used again, blocks of any kind may have a mutation, and levels come and
go. In every schedule that a driver reaches, a level is in warp mode just when it is inside a call
of a procedure in warp mode (`Schedule.warpsInCalls_of_reached`).

The rule for single threads is in `BlockScript.Proofs.Thread.Modes`. What is added here is that it
lasts (`lasting_inMode`), and what it says of the frames in the pool.
-/

namespace BlockScript

/-- **A thread on track whose modes are right stays like that.** -/
theorem lasting_inMode : Lasting fun w hat t ↦ OnTrack w hat t ∧ t.InMode w hat where
  rests := fun h ↦ lasting_onTrack.rests h.1
  started := by
    intro w hat compilation
    have htrack := lasting_onTrack.started w hat compilation
    refine ⟨htrack, htrack.home, ⟨rfl, trivial⟩, ?_⟩
    exact List.forall_mem_cons.2 ⟨fun hflag ↦ (by cases hflag), fun _ hmem ↦ by cases hmem⟩
  stepBlock := by
    rintro w hat t t' now request ⟨htrack, hmode⟩ hstep
    exact ⟨lasting_onTrack.stepBlock htrack hstep,
      (InlineThread.keptIn_inMode w hat).stepBlock hmode hstep⟩
  stopScript := by
    rintro w hat t t' ⟨htrack, hmode⟩ hstop
    exact ⟨lasting_onTrack.stopScript htrack hstop,
      (InlineThread.keptIn_inMode w hat).stopScript hmode hstop⟩
  kill := by
    rintro w hat t t' ⟨htrack, hmode⟩ hkill
    exact ⟨lasting_onTrack.kill htrack hkill,
      (InlineThread.keptIn_inMode w hat).kill hmode hkill⟩
  pace := by
    rintro w hat t status timer ⟨htrack, hmode⟩ hlive hstatus
    have htrack' := lasting_onTrack.pace timer htrack hlive hstatus
    exact ⟨htrack', htrack'.home, hmode.moded, hmode.isLoop_of_flag⟩
  mark := by
    rintro w hat t killed ⟨htrack, hmode⟩
    have htrack' := lasting_onTrack.mark killed htrack
    exact ⟨htrack', htrack'.home, hmode.moded, hmode.isLoop_of_flag⟩
  under := by
    rintro w hat t settings ⟨htrack, hmode⟩
    exact ⟨lasting_onTrack.under settings htrack, hmode.home, hmode.moded.under settings,
      hmode.isLoop_of_flag⟩

namespace Schedule

/-- The frame of a level is in warp mode. -/
def InWarpMode (s : Schedule) (level : Level) : Prop :=
  ∃ frame, s.engine.pool.get level.frame = .ok frame ∧ frame.warpMode = true

/-- The block of a level, as it is found, calls a procedure in warp mode. -/
def IsWarpCall (s : Schedule) (t : Thread) (level : Level) : Prop :=
  ∃ id b m, level.block = some id ∧ s.engine.resolve? t.target id = some b ∧
    b.opcode = Block.callOpcode ∧ b.mutation = some m ∧ m.isWarp = true

/-- **Warp mode is being inside a call in warp mode**, for all levels of a thread. Levels are
innermost first, as everywhere. -/
structure WarpsInCalls (s : Schedule) (t : Thread) : Prop where
  /-- Every level has a frame. -/
  held : ∀ level ∈ t.levels, ∃ frame, s.engine.pool.get level.frame = .ok frame
  /-- The outermost level is not in warp mode. -/
  outermost : ∀ {level : Level}, t.levels.getLast? = some level → ¬s.InWarpMode level
  /-- A level above another is in warp mode just when the other one is, or is a call in warp
  mode. -/
  above_iff : ∀ {i : Nat} {upper lower : Level}, t.levels[i]? = some upper →
    t.levels[i + 1]? = some lower →
      (s.InWarpMode upper ↔ s.InWarpMode lower ∨ s.IsWarpCall t lower)
  /-- A level is in warp mode just when some level below it is a call in warp mode. -/
  inside_iff : ∀ {i : Nat} {level : Level}, t.levels[i]? = some level →
    (s.InWarpMode level ↔
      ∃ j lower, i < j ∧ t.levels[j]? = some lower ∧ s.IsWarpCall t lower)
  /-- What is above a level in warp mode is in warp mode. -/
  upward : ∀ {i j : Nat} {upper lower : Level}, i ≤ j → t.levels[i]? = some upper →
    t.levels[j]? = some lower → s.InWarpMode lower → s.InWarpMode upper

theorem warpsInCalls_of_inMode {s : Schedule} {hat : BlockId × TargetId} {t : Thread}
    (h : (t.inline s.engine.pool).InMode s.engine.world hat)
    (hlends : s.engine.pool.Lends s.held) (hmem : t ∈ s.threads) : s.WarpsInCalls t := by
  have htarget : t.target = hat.2 := h.home.target_eq
  have hget : ∀ level ∈ t.levels, s.engine.pool.get level.frame =
      .ok (level.inline s.engine.pool).frame :=
    fun level hlevel ↦ hlends.get_of_mem
      (List.mem_flatMap.2 ⟨t, hmem, List.mem_map_of_mem hlevel⟩)
  have hmode : ∀ level ∈ t.levels,
      (s.InWarpMode level ↔ (level.inline s.engine.pool).frame.warpMode = true) := by
    intro level hlevel
    refine ⟨?_, fun hwarp ↦ ⟨_, hget level hlevel, hwarp⟩⟩
    rintro ⟨frame, hframe, hwarp⟩
    obtain rfl := Except.ok.inj (hframe.symm.trans (hget level hlevel))
    exact hwarp
  have hcall : ∀ level, s.IsWarpCall t level ↔
      s.engine.world.isWarpCall hat.2 (level.inline s.engine.pool).block = true := by
    intro level
    rw [World.isWarpCall_eq_true_iff, ← htarget]
    exact Iff.rfl
  have hinline : ∀ i : Nat, (t.inline s.engine.pool).levels[i]? =
      (t.levels[i]?).map (Level.inline s.engine.pool) := fun i ↦ List.getElem?_map
  have hinside : ∀ {i : Nat} {level : Level}, t.levels[i]? = some level →
      (s.InWarpMode level ↔
        ∃ j lower, i < j ∧ t.levels[j]? = some lower ∧ s.IsWarpCall t lower) := by
    intro i level hlevel
    rw [hmode level (List.mem_of_getElem? hlevel),
      h.moded.warpMode_eq_true_iff (i := i) (by rw [hinline, hlevel, Option.map_some])]
    constructor
    · rintro ⟨j, lower, hlt, hlower, hwarp⟩
      rw [hinline] at hlower
      obtain ⟨lower, hlower', rfl⟩ := Option.map_eq_some_iff.1 hlower
      exact ⟨j, lower, hlt, hlower', (hcall lower).2 hwarp⟩
    · rintro ⟨j, lower, hlt, hlower, hwarp⟩
      exact ⟨j, _, hlt, by rw [hinline, hlower, Option.map_some], (hcall lower).1 hwarp⟩
  refine ⟨fun level hlevel ↦ ⟨_, hget level hlevel⟩, ?_, ?_, hinside, ?_⟩
  · intro level hlast hwarp
    rw [hmode level (List.mem_of_getLast? hlast), h.moded.warpMode_getLast?] at hwarp
    · cases hwarp
    · show (t.levels.map (Level.inline s.engine.pool)).getLast? = _
      rw [List.getLast?_map, hlast, Option.map_some]
  · intro i upper lower hupper hlower
    have hpair := h.moded.warpMode_getElem? (i := i) (by rw [hinline, hupper, Option.map_some])
      (by rw [hinline, hlower, Option.map_some])
    rw [hmode upper (List.mem_of_getElem? hupper), hmode lower (List.mem_of_getElem? hlower), hpair,
      Bool.or_eq_true, hcall]
  · intro i j upper lower hle hupper hlower hwarp
    obtain ⟨k, call, hlt, hcall, hwarpCall⟩ := (hinside hlower).1 hwarp
    exact (hinside hupper).2 ⟨k, call, Nat.lt_of_le_of_lt hle hlt, hcall, hwarpCall⟩

/-- **A level is in warp mode just when it is inside a call in warp mode**, for every thread of
every schedule that a driver reaches with the scripts of a project. -/
theorem warpsInCalls_of_reached {settings : Settings} {project : Project}
    {scripts : List (BlockId × TargetId)} {s : Schedule} {t : Thread}
    (h : Reached (Engine.ofProject settings project) scripts s) (hmem : t ∈ s.threads) :
    s.WarpsInCalls t := by
  obtain ⟨settings', hs⟩ := h.upholds lasting_inMode (Engine.pool_ofProject settings project)
  obtain ⟨position, ht⟩ := List.mem_iff_getElem?.1 hmem
  obtain ⟨hat, -, -, hmode⟩ := hs.exists_script ht
  rw [← hs.world] at hmode
  exact warpsInCalls_of_inMode hmode hs.lends hmem

/-! ### A call in warp mode within a repetition -/

/-- A hat and a repetition around a call of a procedure in warp mode. The repetition has the
mutation of a call in warp mode, but is no call. -/
def brisk : Project where
  targets := [{
    name := "sprite"
    blocks := ⟨[
      ("hat", { opcode := "event_whenflagclicked", next := some "repeat" }),
      ("repeat", { opcode := "control_repeat",
                   inputs := ⟨[("SUBSTACK", .block "call")], List.nodup_singleton "SUBSTACK"⟩
                   mutation := some { proccode := some "p", warp := some (.boolean true) } }),
      ("call", { opcode := "procedures_call",
                 mutation := some { proccode := some "p", warp := some (.boolean true) } }),
      ("definition", { opcode := "procedures_definition", next := some "one",
                       inputs := ⟨[("custom_block", .block "prototype")],
                         List.nodup_singleton "custom_block"⟩ }),
      ("prototype", { opcode := "procedures_prototype",
                      mutation := some { proccode := some "p" } }),
      ("one", { opcode := "looks_say", next := some "other" }),
      ("other", { opcode := "looks_say" })], by decide⟩ }]

/-- With one step a frame the thread is at the second block of the procedure after four frames. It
is in warp mode there, and nowhere below. -/
theorem warpsInCalls_brisk :
    ∃ scripts s t, Reached (Engine.ofProject ⟨30, 0, 0, false⟩ brisk) scripts s ∧ t ∈ s.threads ∧
      t.levels.map (fun level ↦
        (level.block, (s.engine.pool.get level.frame).map Frame.warpMode)) =
        [(some "other", .ok true), (some "call", .ok false), (some "repeat", .ok false)] ∧
      s.WarpsInCalls t := by
  have hrun : (start (Engine.ofProject ⟨30, 0, 0, false⟩ brisk) >>=
      drive ((List.range 4).map fun now ↦ ⟨.still now, 9, 0, 0, []⟩)).map (fun s ↦
        s.threads.map fun t ↦ t.levels.map fun level ↦
          (level.block, (s.engine.pool.get level.frame).map Frame.warpMode)) =
        .ok [[(some "other", .ok true), (some "call", .ok false),
          (some "repeat", .ok false)]] := by
    decide +kernel
  obtain ⟨s, hdriven, hthreads⟩ := exists_of_map_eq_ok hrun
  obtain ⟨s₀, hstart, hdrive⟩ := exists_of_bind_eq_ok hdriven
  obtain ⟨scripts, hreached⟩ := (Reached.start hstart).drive _ hdrive
  obtain ⟨t, hs, hlevels⟩ := List.map_eq_singleton_iff.1 hthreads
  have hmem : t ∈ s.threads := hs ▸ List.mem_singleton_self t
  exact ⟨scripts, s, t, hreached, hmem, hlevels, warpsInCalls_of_reached hreached hmem⟩

end Schedule

end BlockScript
