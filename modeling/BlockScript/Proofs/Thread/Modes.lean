import BlockScript.Proofs.Thread.Paths
import BlockScript.Proofs.Thread.Upkeep

/-!
# Warp mode is being inside a call in warp mode

The mode of a frame is set in several places. A new level inherits it, a call in warp mode sets it
on the level that it has just pushed, and replacing a block keeps it. `World.Moded` is the rule that
comes out of this, level by level: a level is in warp mode just when the level below is, or the
block of the level below is a call in warp mode (`World.modeAbove`), and with nothing below it is
not. Nothing that is left of an earlier use of a frame comes into it.

The rule speaks of the block that the level below has **now**, not of the one that it had when the
level was pushed. These are the same because a block is only replaced at the top. A loop is what
makes this worth a proof: its level is returned to and pushes again, and it must not have become a
call in the meantime. That is why `InlineThread.InMode`, which is what operations keep, also says
that only loops are flagged as loops.
-/

namespace BlockScript

namespace World

/-- Whether a level with this block is a call of a procedure in warp mode. -/
def isWarpCall (w : World) (target : TargetId) (block : Option BlockId) : Bool :=
  (block.bind (w.resolve? target)).any fun b ↦ b.command == .call && b.isWarp

/-- The mode of a level above these levels. -/
def modeAbove (w : World) (target : TargetId) : List InlineLevel → Bool
  | [] => false
  | level :: _ => level.frame.warpMode || w.isWarpCall target level.block

/-- Every level has the mode that the levels below it call for. -/
def Moded (w : World) (target : TargetId) : List InlineLevel → Prop
  | [] => True
  | level :: rest => level.frame.warpMode = w.modeAbove target rest ∧ w.Moded target rest

variable {w : World} {target : TargetId} {id : BlockId} {b : Block}

theorem isWarpCall_some (hb : w.resolve? target id = some b) :
    w.isWarpCall target (some id) = (b.command == .call && b.isWarp) := by
  rw [isWarpCall, Option.bind_some, hb]
  rfl

theorem isWarpCall_eq_false (hb : w.resolve? target id = some b) (hcommand : b.command ≠ .call) :
    w.isWarpCall target (some id) = false := by
  rw [isWarpCall_some hb, beq_false_of_ne hcommand, Bool.false_and]

theorem isWarpCall_of_isLoop {block : Option BlockId} (h : w.isLoop target block = true) :
    w.isWarpCall target block = false := by
  rcases block with - | id
  · cases h
  · obtain ⟨b, hb, hforever, -⟩ := exists_of_isLoop h
    exact isWarpCall_eq_false hb (by rw [hforever]; exact Command.noConfusion)

/-- A call in warp mode, said of the block that is found. -/
theorem isWarpCall_eq_true_iff {block : Option BlockId} : w.isWarpCall target block = true ↔
    ∃ id b m, block = some id ∧ w.resolve? target id = some b ∧ b.opcode = Block.callOpcode ∧
      b.mutation = some m ∧ m.isWarp = true := by
  constructor
  · intro h
    obtain ⟨b, hb, hwarp⟩ := (Option.any_eq_true _ _).1 h
    obtain ⟨id, rfl, hid⟩ := Option.bind_eq_some_iff.1 hb
    rw [Bool.and_eq_true, beq_iff_eq, Block.command_eq_call_iff] at hwarp
    rcases hmutation : b.mutation with - | m
    · rw [Block.isWarp, hmutation] at hwarp
      cases hwarp.2
    · rw [Block.isWarp, hmutation] at hwarp
      exact ⟨id, b, m, rfl, hid, hwarp.1, hmutation, hwarp.2⟩
  · rintro ⟨id, b, m, rfl, hb, hcall, hmutation, hwarp⟩
    rw [isWarpCall_some hb, Block.command_eq_call_iff.2 hcall, Block.isWarp, hmutation]
    exact hwarp

/-! ### What the rule says of single levels -/

namespace Moded

variable {levels : List InlineLevel} {i j : Nat} {upper lower level : InlineLevel}

theorem warpMode_getLast? (h : w.Moded target levels) (hlast : levels.getLast? = some level) :
    level.frame.warpMode = false := by
  induction levels with
  | nil => cases hlast
  | cons top rest ih =>
    rcases rest with - | ⟨lower, rest⟩
    · obtain rfl : top = level := Option.some.inj hlast
      exact h.1
    · exact ih h.2 hlast

theorem warpMode_getElem? (h : w.Moded target levels) (hupper : levels[i]? = some upper)
    (hlower : levels[i + 1]? = some lower) :
    upper.frame.warpMode = (lower.frame.warpMode || w.isWarpCall target lower.block) := by
  induction levels generalizing i with
  | nil => cases hupper
  | cons top rest ih =>
    rcases i with - | i
    · obtain rfl : top = upper := Option.some.inj hupper
      rcases rest with - | ⟨below, rest⟩
      · cases hlower
      · obtain rfl : below = lower := Option.some.inj hlower
        exact h.1
    · exact ih h.2 hupper hlower

/-- **A level is in warp mode just when a call in warp mode is somewhere below it.** -/
theorem warpMode_eq_true_iff (h : w.Moded target levels) (hlevel : levels[i]? = some level) :
    level.frame.warpMode = true ↔
      ∃ j lower, i < j ∧ levels[j]? = some lower ∧ w.isWarpCall target lower.block = true := by
  induction levels generalizing i level with
  | nil => cases hlevel
  | cons top rest ih =>
    rcases i with - | i
    · obtain rfl : top = level := Option.some.inj hlevel
      rw [h.1]
      rcases rest with - | ⟨below, rest⟩
      · refine ⟨fun hmode ↦ (by cases hmode), ?_⟩
        rintro ⟨- | j, lower, hlt, hlower, -⟩
        · exact absurd hlt (Nat.lt_irrefl 0)
        · cases hlower
      · -- The call is right below the top, or it is below that.
        rw [modeAbove, Bool.or_eq_true, ih (i := 0) h.2 rfl]
        constructor
        · rintro (⟨j, lower, -, hlower, hcall⟩ | hcall)
          · exact ⟨j + 1, lower, Nat.succ_pos j, hlower, hcall⟩
          · exact ⟨1, below, Nat.one_pos, rfl, hcall⟩
        · rintro ⟨- | - | j, lower, hlt, hlower, hcall⟩
          · exact absurd hlt (Nat.lt_irrefl 0)
          · obtain rfl : below = lower := Option.some.inj hlower
            exact .inr hcall
          · exact .inl ⟨j + 1, lower, Nat.succ_pos j, hlower, hcall⟩
    · rw [ih h.2 hlevel]
      constructor
      · rintro ⟨j, lower, hlt, hlower, hcall⟩
        exact ⟨j + 1, lower, Nat.succ_lt_succ hlt, hlower, hcall⟩
      · rintro ⟨- | j, lower, hlt, hlower, hcall⟩
        · exact absurd hlt (Nat.not_lt_zero _)
        · exact ⟨j, lower, Nat.lt_of_succ_lt_succ hlt, hlower, hcall⟩

/-- The rule does not depend on the settings. -/
theorem under (h : w.Moded target levels) (settings : Settings) :
    (w.under settings).Moded target levels := by
  induction levels with
  | nil => trivial
  | cons top rest ih =>
    refine ⟨h.1.trans ?_, ih h.2⟩
    cases rest <;> rfl

end Moded

end World

/-! ### What operations keep -/

namespace InlineThread

/-- The thread is where its script started, its levels have the modes that the levels below them
call for, and only loops are flagged as loops. -/
structure InMode (w : World) (hat : BlockId × TargetId) (t : InlineThread) : Prop where
  /-- It is where it started. -/
  home : t.AtHome hat
  /-- The modes are right. -/
  moded : w.Moded hat.2 t.levels
  /-- Only loops are flagged. -/
  isLoop_of_flag : ∀ level ∈ t.levels, level.frame.isLoop = true →
    w.isLoop hat.2 level.block = true

variable {w : World} {hat : BlockId × TargetId} {t : InlineThread} {b : Block}

/-- A block at work is the block of a level. -/
theorem AtWork.exists_levels (h : t.AtWork w b) : ∃ id level rest, t.levels = level :: rest ∧
    level.block = some id ∧ w.resolve? t.target id = some b := by
  obtain ⟨id, hpeek, hb⟩ := h
  rcases hlevels : t.levels with - | ⟨level, rest⟩
  · rw [peek?, hlevels] at hpeek
    cases hpeek
  · rw [peek?, hlevels] at hpeek
    exact ⟨id, level, rest, rfl, hpeek, hb⟩

/-- The levels of a thread that has entered a procedure: the new one is in warp mode if the call is,
or if the level of the call is. -/
theorem levels_entered {level : InlineLevel} {rest : List InlineLevel}
    (hlevels : t.levels = level :: rest) (b : Block) (body : BlockId) :
    (t.entered b body).levels =
      ⟨some body, Frame.ofMode (level.frame.warpMode || b.isWarp), false⟩ ::
        { level with frame :=
          { level.frame with params := some (level.frame.params.getD Table.empty) } } :: rest := by
  have hpushed : (t.initParams.push body none).levels =
      ⟨some body, Frame.ofMode level.frame.warpMode, false⟩ ::
        { level with frame :=
          { level.frame with params := some (level.frame.params.getD Table.empty) } } :: rest := by
    have hinit : t.initParams.levels = { level with frame :=
        { level.frame with params := some (level.frame.params.getD Table.empty) } } :: rest := by
      rw [initParams, modifyTopFrame, hlevels]
      rfl
    show ⟨some body, Frame.ofMode t.initParams.inWarpMode, false⟩ :: t.initParams.levels = _
    rw [inWarpMode, topFrame?, hinit]
    rfl
  rw [entered]
  cases b.isWarp with
  | false =>
    rw [Bool.or_false]
    exact hpushed
  | true =>
    rw [if_pos rfl, Bool.or_true, modifyTopFrame, hpushed]
    rfl

/-- A new level above a block that is no call in warp mode. -/
theorem InMode.push (h : t.InMode w hat) {level : InlineLevel} {rest : List InlineLevel}
    (hlevels : t.levels = level :: rest) (hcall : w.isWarpCall hat.2 level.block = false)
    (body : BlockId) : (t.push body none).InMode w hat := by
  have hmode : t.inWarpMode = w.modeAbove hat.2 t.levels := by
    rw [inWarpMode, topFrame?, hlevels, World.modeAbove, hcall, Bool.or_false]
    rfl
  exact ⟨(kept_atHome hat).push body h.home, ⟨hmode, h.moded⟩,
    List.forall_mem_cons.2 ⟨fun hflag ↦ (by cases hflag), h.isLoop_of_flag⟩⟩

/-- **The modes stay right**, whatever a step is made of. -/
theorem keptIn_inMode (w : World) (hat : BlockId × TargetId) : KeptIn w (InMode w hat) where
  reuse := by
    intro t t' block h hreuse
    have hhome := (kept_atHome hat).reuse h.home hreuse
    obtain ⟨level, rest, hlevels, rfl⟩ := exists_of_reuse hreuse
    have hmoded := h.moded
    have hflags := h.isLoop_of_flag
    rw [hlevels] at hmoded hflags
    exact ⟨hhome, hmoded, List.forall_mem_cons.2
      ⟨fun hflag ↦ (by cases hflag), (List.forall_mem_cons.1 hflags).2⟩⟩
  pop := by
    intro t t' block h hpop
    have hhome := (kept_atHome hat).pop h.home hpop
    obtain ⟨-, rfl⟩ | ⟨level, rest, hlevels, hcases⟩ := pop_cases hpop
    · exact h
    · have hmoded := h.moded
      have hflags := h.isLoop_of_flag
      rw [hlevels] at hmoded hflags
      have hrest : t'.levels = rest := by
        obtain ⟨-, rfl⟩ | ⟨-, target, targetStack, -, rfl⟩ := hcases
        · rfl
        · rfl
      refine ⟨hhome, ?_, ?_⟩
      · rw [hrest]
        exact hmoded.2
      · rw [hrest]
        exact (List.forall_mem_cons.1 hflags).2
  flag := by
    intro t b h hb hforever
    have hhome :=
      (kept_atHome hat).modifyTopFrame (fun frame ↦ { frame with isLoop := true }) h.home
    obtain ⟨id, level, rest, hlevels, hid, hresolve⟩ := hb.exists_levels
    have hmoded := h.moded
    have hflags := h.isLoop_of_flag
    rw [hlevels] at hmoded hflags
    have hloop : w.isLoop hat.2 level.block = true := by
      rw [hid, ← h.home.target_eq, World.isLoop_some hresolve, hforever]
      rfl
    have hlevels' : (t.modifyTopFrame fun frame ↦ { frame with isLoop := true }).levels =
        { level with frame := { level.frame with isLoop := true } } :: rest := by
      rw [modifyTopFrame, hlevels]
      rfl
    refine ⟨hhome, ?_, ?_⟩
    · rw [hlevels']
      exact hmoded
    · rw [hlevels']
      exact List.forall_mem_cons.2 ⟨fun _ ↦ hloop, (List.forall_mem_cons.1 hflags).2⟩
  enter := by
    intro t b body h hb hcommand
    obtain ⟨id, level, rest, hlevels, hid, hresolve⟩ := hb.exists_levels
    refine h.push hlevels ?_ body
    rw [hid, ← h.home.target_eq]
    exact World.isWarpCall_eq_false hresolve hcommand
  reenter := by
    intro t body h hflag
    rcases hlevels : t.levels with - | ⟨level, rest⟩
    · rw [topFrame?, hlevels] at hflag
      cases hflag
    · rw [topFrame?, hlevels] at hflag
      refine h.push hlevels (World.isWarpCall_of_isLoop ?_) body
      exact h.isLoop_of_flag level (hlevels ▸ List.mem_cons_self) hflag
  entered := by
    intro t b body h hb hcommand
    have hhome := ((kept_atHome hat).keptIn w).entered body h.home hb hcommand
    obtain ⟨id, level, rest, hlevels, hid, hresolve⟩ := hb.exists_levels
    have hmoded := h.moded
    have hflags := h.isLoop_of_flag
    rw [hlevels] at hmoded hflags
    have hwarp : w.isWarpCall hat.2 level.block = b.isWarp := by
      rw [hid, ← h.home.target_eq, World.isWarpCall_some hresolve, hcommand]
      rfl
    have hentered := levels_entered hlevels b body
    refine ⟨hhome, ?_, ?_⟩
    · rw [hentered]
      refine ⟨?_, hmoded⟩
      show (level.frame.warpMode || b.isWarp) =
        (level.frame.warpMode || w.isWarpCall hat.2 level.block)
      rw [hwarp]
    · rw [hentered]
      exact List.forall_mem_cons.2 ⟨fun hflag ↦ (by cases hflag),
        List.forall_mem_cons.2 (List.forall_mem_cons.1 hflags)⟩
  settle := by
    intro t h
    have hlevels : t.settle.levels = t.levels := by
      rw [InlineThread.settle]
      split
      · rfl
      · rfl
    refine ⟨(kept_atHome hat).settle h.home, ?_, ?_⟩
    · rw [hlevels]
      exact h.moded
    · rw [hlevels]
      exact h.isLoop_of_flag
  yield := fun h ↦ ⟨(kept_atHome hat).yield h.home, h.moded, h.isLoop_of_flag⟩
  withWarpTimer := fun timer h ↦
    ⟨(kept_atHome hat).withWarpTimer timer h.home, h.moded, h.isLoop_of_flag⟩
  highlight := fun id h ↦ ⟨(kept_atHome hat).highlight id h.home, h.moded, h.isLoop_of_flag⟩

end InlineThread

end BlockScript
