import BlockScript.Proofs.Thread.Guard

/-!
# Stretches in warp mode

The warp timer says when a thread's stretch in warp mode began. A thread that yields ends its
stretch, so that the next one has the whole budget: the timer is cleared (`InlineThread.yield`).
Every way to yield does this, with one exception. An endless loop that encloses nothing waits for
its next turn without ending the stretch (`InlineThread.enterLoop`), and so the timer that was there
before the loop stays.

A step is therefore of one of two kinds. Either the block at work is such an **idle loop**
(`InlineThread.AtIdleLoop`), and then nothing happens but that the level is flagged as a loop and
the thread waits. Or the thread **goes on** (`InlineThread.GoesOn`): the level that the step leaves
on top is not flagged, and if the thread waits the timer is cleared. The flag is what tells the two
apart afterwards: a thread that comes to an idle loop, and has not executed it, may have yielded
properly.
-/

namespace BlockScript

namespace InlineThread

/-! ### The two kinds of steps -/

/-- The block at work is an endless loop that encloses nothing. -/
def AtIdleLoop (w : World) (t : InlineThread) : Prop :=
  ∃ b, t.AtWork w b ∧ b.command = .forever ∧ b.substack? = none

/-- The level of the block at work is flagged as a loop. -/
def Flagged (t : InlineThread) : Prop :=
  t.topFrame?.elim false Frame.isLoop = true

/-- The thread waits in an idle loop that it has executed. -/
def RestsInLoop (w : World) (t : InlineThread) : Prop :=
  t.AtIdleLoop w ∧ t.Flagged

/-- **The thread goes on**: the block at work has not made its level a loop, and if the thread waits
for its next turn its stretch in warp mode is over. -/
structure GoesOn (t : InlineThread) : Prop where
  /-- The level is not flagged. -/
  not_flagged : ¬t.Flagged
  /-- There is no timer left. -/
  warpTimer_eq : t.status = .yield → t.warpTimer = none

variable {w : World} {t t' : InlineThread} {now : Moment} {shown : Reading} {deadline : Time}
  {request : Option StopRequest}

theorem flagged_congr (h : t'.levels = t.levels) : t'.Flagged ↔ t.Flagged := by
  rw [Flagged, Flagged, topFrame?, topFrame?, h]

theorem not_flagged_of_cons {level : InlineLevel} {rest : List InlineLevel}
    (hlevels : t.levels = level :: rest) (hflag : level.frame.isLoop = false) : ¬t.Flagged := by
  rw [Flagged, topFrame?, hlevels]
  exact Bool.eq_false_iff.1 hflag

theorem not_flagged_of_nil (hlevels : t.levels = []) : ¬t.Flagged := by
  rw [Flagged, topFrame?, hlevels]
  exact Bool.false_ne_true

/-- A thread that runs is not waiting, and so only the flag matters. -/
theorem GoesOn.of_running (hrunning : t.status = .running) (hflag : ¬t.Flagged) : t.GoesOn := by
  refine ⟨hflag, fun hyield ↦ ?_⟩
  rw [hrunning] at hyield
  cases hyield

/-- A thread without levels that is done does not wait. -/
theorem GoesOn.of_done (hdone : t.status = .done) (hlevels : t.levels = []) : t.GoesOn := by
  refine ⟨not_flagged_of_nil hlevels, fun hyield ↦ ?_⟩
  rw [hdone] at hyield
  cases hyield

/-! ### What the operations do to the flag and the timer -/

theorem goesOn_of_reuse {block : Option BlockId} (hrunning : t.status = .running)
    (h : t.reuse block = .ok t') : t'.GoesOn := by
  obtain ⟨level, rest, -, rfl⟩ := exists_of_reuse h
  exact .of_running hrunning (not_flagged_of_cons rfl rfl)

theorem goesOn_push (hrunning : t.status = .running) (body : BlockId) :
    (t.push body none).GoesOn :=
  .of_running hrunning (not_flagged_of_cons rfl rfl)

theorem status_entered (t : InlineThread) (b : Block) (body : BlockId) :
    (t.entered b body).status = t.status := by
  rw [entered_eq]
  rfl

theorem goesOn_entered {b : Block} (hb : t.AtWork w b) (hrunning : t.status = .running)
    (body : BlockId) : (t.entered b body).GoesOn := by
  obtain ⟨id, level, rest, hlevels, -⟩ := hb.exists_levels
  exact .of_running ((status_entered t b body).trans hrunning)
    (not_flagged_of_cons (levels_entered hlevels b body) rfl)

/-- **Yielding when it is due ends the stretch.** -/
theorem goesOn_yieldIfDue (hrunning : t.status = .running) (h : ¬t.Flagged) (w : World)
    (now : Moment) : (t.yieldIfDue w now).GoesOn := by
  have hflag : ¬(t.yieldIfDue w now).Flagged := by
    rw [flagged_congr (levels_yieldIfDue w t now)]
    exact h
  by_cases hdue : t.IsDue w now
  · refine ⟨hflag, fun _ ↦ ?_⟩
    have hyield := status_yieldIfDue_of_isDue hdue
    rw [yieldIfDue] at hyield ⊢
    dsimp only at hyield ⊢
    split
    · rfl
    · rename_i hnot
      rw [if_neg hnot, shouldYield] at hyield
      split at hyield
      · cases hrunning.symm.trans hyield
      · cases hrunning.symm.trans hyield
  · exact .of_running ((status_yieldIfDue_of_not_isDue hdue).trans hrunning) hflag

/-- Looking at the clock starts the timer in warp mode and clears it outside. -/
theorem outOfTime_facts (w : World) (t : InlineThread) (now : Moment) (deadline : Time) :
    (t.outOfTime w now deadline).2.levels = t.levels ∧
      (t.outOfTime w now deadline).2.status = t.status ∧
      ((t.outOfTime w now deadline).2.warpTimer = none ↔
        (t.outOfTime w now deadline).2.inWarpMode = false) := by
  rw [outOfTime]
  split
  · rename_i hwarp
    rw [shouldYield, if_pos hwarp]
    refine ⟨rfl, rfl, fun hnone ↦ (by cases hnone), fun hmode ↦ ?_⟩
    cases hwarp.symm.trans hmode
  · rename_i hwarp
    exact ⟨rfl, rfl, fun _ ↦ Bool.eq_false_iff.2 hwarp, fun _ ↦ rfl⟩

theorem goesOn_settle (h : t.GoesOn) : t.settle.GoesOn := by
  rw [settle]
  split
  · exact .of_done rfl ‹_›
  · exact h

/-! ### Idle loops -/

/-- **A step in an idle loop** is to wait, with the timer that was there before. -/
theorem stepBlock_of_atIdleLoop (h : t.AtIdleLoop w)
    (hstep : t.stepBlock w now = .ok (request, t')) :
    t'.status = .yield ∧ t'.warpTimer = t.warpTimer ∧ t'.inWarpMode = t.inWarpMode ∧
      t'.RestsInLoop w := by
  obtain ⟨b, hwork, hcommand, hbody⟩ := h
  obtain ⟨id, level, rest, hlevels, hid, hb⟩ := hwork.exists_levels
  have hpeek : t.peek? = some id := by
    rw [peek?, hlevels]
    exact hid
  rw [stepBlock, hpeek] at hstep
  dsimp only at hstep
  rw [execute, hb] at hstep
  dsimp only at hstep
  rw [perform, hcommand] at hstep
  dsimp only at hstep
  rw [enterLoop, hbody] at hstep
  dsimp only at hstep
  obtain ⟨-, rfl⟩ := Prod.mk.inj (Except.ok.inj hstep)
  set waiting : InlineThread := ({ t with blockGlow := some id }.modifyTopFrame
    fun frame ↦ { frame with isLoop := true }).withStatus .yield with hwaiting
  have hflagged : waiting.levels =
      { level with frame := { level.frame with isLoop := true } } :: rest := by
    show t.levels.modifyHead _ = _
    rw [hlevels]
    rfl
  have hpeek' : waiting.peek? = some id := by
    rw [peek?, hflagged]
    exact hid
  refine ⟨rfl, rfl, ?_, ⟨b, ⟨id, hpeek', hb⟩, hcommand, hbody⟩, ?_⟩
  · rw [inWarpMode, inWarpMode, topFrame?, topFrame?, hflagged, hlevels]
    rfl
  · rw [Flagged, topFrame?, hflagged]
    rfl

/-- A turn in an idle loop is the step, since the thread does not run on. -/
theorem turn_of_atIdleLoop (h : t.AtIdleLoop w)
    (hturn : t.turn w shown deadline = .ok (request, t')) :
    t'.status = .yield ∧ t'.warpTimer = t.warpTimer ∧ t'.inWarpMode = t.inWarpMode ∧
      t'.RestsInLoop w := by
  obtain ⟨⟨request', t₁⟩, hstep, hresult⟩ := exists_of_bind_eq_ok hturn
  have hrests := stepBlock_of_atIdleLoop h hstep
  have hlate : t₁.yieldIfLate w shown.check deadline = t₁ := by
    rw [yieldIfLate, if_neg (by rw [hrests.1]; exact Status.noConfusion)]
  obtain ⟨-, rfl⟩ := Prod.mk.inj (Except.ok.inj hresult)
  rw [hlate]
  exact hrests

end InlineThread

namespace Stands

variable {w : World} {target : TargetId} {lot : Lot} {stack : Stack} {t t' : InlineThread}
  {now : Moment} {shown : Reading} {deadline : Time} {request : Option StopRequest} {b : Block}

open InlineThread

/-- Unwinding leaves no level, or a call that moves on. -/
theorem goesOn_unwind (rounds : Nat) : ∀ {stack : Stack} {t : InlineThread},
    Stands w target lot stack t → t.status = .running → t.depth ≤ rounds →
      t.unwind w rounds = .ok t' → t'.GoesOn := by
  induction rounds with
  | zero =>
    intro stack t h hrunning hle hunwind
    cases hunwind
    exact .of_running hrunning
      (not_flagged_of_nil (List.eq_nil_of_length_eq_zero (Nat.le_zero.1 hle)))
  | succ rounds ih =>
    intro stack t h hrunning hle hunwind
    rcases hlevels : t.levels with - | ⟨level, rest⟩
    · rw [InlineThread.unwind, hlevels] at hunwind
      cases hunwind
      exact .of_running hrunning (not_flagged_of_nil hlevels)
    · rw [InlineThread.unwind, hlevels] at hunwind
      dsimp only at hunwind
      rw [(h.shape_cons hlevels).1.waiting_eq, if_neg Bool.false_ne_true] at hunwind
      obtain ⟨hpop, hpopped⟩ := h.pop hlevels
      split at hunwind
      · exact goesOn_of_reuse hrunning hunwind
      · rw [hpop] at hunwind
        refine ih hpopped hrunning ?_ hunwind
        rw [InlineThread.depth, hlevels, List.length_cons] at hle
        exact Nat.le_of_succ_le_succ hle

theorem goesOn_stopScript (h : Stands w target lot stack t) (hrunning : t.status = .running)
    (hstop : t.stopScript w = .ok t') : t'.GoesOn := by
  obtain ⟨t₁, hunwind, rfl⟩ := exists_of_map_eq_ok hstop
  exact goesOn_settle (h.goesOn_unwind t.depth hrunning (Nat.le_refl _) hunwind)

theorem goesOn_kill (h : Stands w target lot stack t) (hkill : t.kill w = .ok t') :
    t'.GoesOn := by
  obtain ⟨t₁, hkill₁, hrests⟩ := h.kill
  obtain rfl := Except.ok.inj (hkill₁.symm.trans hkill)
  exact .of_done (hrests.status_eq_done_iff.2 rfl) hrests.levels_eq_nil

/-! ### One step -/

/-- Carrying a command out, unless it is that of an idle loop. -/
theorem goesOn_perform (h : Stands w target lot stack t) (hrunning : t.status = .running)
    (hb : t.AtWork w b) (hidle : ¬(b.command = .forever ∧ b.substack? = none))
    (hperform : t.perform w now b = .ok (request, t')) : t'.GoesOn := by
  rw [InlineThread.perform] at hperform
  cases hcommand : b.command with
  | stopAll =>
    rw [hcommand] at hperform
    obtain ⟨t₁, hkill, ⟨⟩⟩ := exists_of_map_eq_ok hperform
    exact h.goesOn_kill hkill
  | stopOthers =>
    rw [hcommand] at hperform
    obtain ⟨t₁, hadvance, ⟨⟩⟩ := exists_of_map_eq_ok hperform
    exact goesOn_of_reuse hrunning hadvance
  | stopThis =>
    rw [hcommand] at hperform
    obtain ⟨t₁, hstop, ⟨⟩⟩ := exists_of_map_eq_ok hperform
    exact h.goesOn_stopScript hrunning hstop
  | forever =>
    rw [hcommand] at hperform
    cases hperform
    rcases hbody : b.substack? with - | body
    · exact absurd ⟨hcommand, hbody⟩ hidle
    · have hpushed := goesOn_push
        (t := t.modifyTopFrame fun frame ↦ { frame with isLoop := true }) hrunning body
      rw [InlineThread.enterLoop, hbody]
      exact hpushed
  | call =>
    rw [hcommand] at hperform
    obtain ⟨t₁, hcall, ⟨⟩⟩ := exists_of_map_eq_ok hperform
    rw [InlineThread.call] at hcall
    split at hcall
    · exact goesOn_of_reuse hrunning hcall
    · split at hcall
      · exact goesOn_of_reuse hrunning hcall
      · rename_i body _
        have hentered := goesOn_entered hb hrunning body
        rw [enterProcedure_eq] at hcall
        split at hcall
        · cases hcall
          exact goesOn_yieldIfDue ((status_entered t b body).trans hrunning)
            hentered.not_flagged w now
        · cases hcall
          exact hentered
  | plain =>
    rw [hcommand] at hperform
    obtain ⟨t₁, henter, ⟨⟩⟩ := exists_of_map_eq_ok hperform
    rw [InlineThread.enterOrAdvance] at henter
    split at henter
    · cases henter
      exact goesOn_push hrunning _
    · exact goesOn_of_reuse hrunning henter

theorem goesOn_execute (h : Stands w target lot stack t) (hrunning : t.status = .running)
    {id : BlockId} (hpeek : t.peek? = some id) (hidle : ¬t.AtIdleLoop w)
    (hexecute : t.execute w now id = .ok (request, t')) : t'.GoesOn := by
  rw [InlineThread.execute] at hexecute
  split at hexecute
  · obtain ⟨t₁, hstop, ⟨⟩⟩ := exists_of_map_eq_ok hexecute
    exact h.goesOn_stopScript hrunning hstop
  · rename_i b hb
    have hglow : Stands w target lot stack { t with blockGlow := some id } :=
      ⟨h.target_eq, h.blocks_eq, h.shape, h.live, h.lot_eq⟩
    exact hglow.goesOn_perform hrunning ⟨id, hpeek, hb⟩
      (fun hloop ↦ hidle ⟨b, ⟨id, hpeek, hb⟩, hloop⟩) hexecute

/-- Returning to a level. A loop that is returned to encloses something, since it has led to the
level that was above it. -/
theorem goesOn_resume (h : Stands w target lot stack t) (hrunning : t.status = .running)
    {parent : BlockId} (hpeek : t.peek? = some parent)
    (hinside : ∃ b first, w.resolve? target parent = some b ∧ w.inside? target b = some first)
    (hresume : t.resume w now parent = .ok t') : t'.GoesOn := by
  rw [InlineThread.resume] at hresume
  split at hresume
  · rename_i hflag
    obtain ⟨b, first, hb, hfirst⟩ := hinside
    have hbody : w.substack? t.target parent = some first := by
      rcases hlevels : t.levels with - | ⟨level, rest⟩
      · rw [InlineThread.topFrame?, hlevels] at hflag
        cases hflag
      · rw [InlineThread.topFrame?, hlevels] at hflag
        rw [InlineThread.peek?, hlevels] at hpeek
        have hloop := (h.shape_cons hlevels).1.isLoop_of_flag hflag
        rw [show level.block = some parent from hpeek] at hloop
        obtain ⟨b', hb', -, hentry⟩ := World.exists_of_isLoop hloop
        obtain rfl := Option.some.inj (hb.symm.trans hb')
        rw [h.target_eq, ← hentry, hfirst]
    rw [hbody] at hresume
    obtain rfl := Except.ok.inj hresume
    exact goesOn_yieldIfDue (t := t.push first none) hrunning
      (goesOn_push hrunning first).not_flagged w now
  · exact goesOn_of_reuse hrunning hresume

/-- **A step goes on**, unless the block at work is an idle loop. -/
theorem goesOn_stepBlock {top : BlockId} (h : Stands w target lot stack t)
    (hpath : Stack.IsPath w target top (t.levels.map InlineLevel.block))
    (hrunning : t.status = .running) (hidle : ¬t.AtIdleLoop w)
    (hstep : t.stepBlock w now = .ok (request, t')) : t'.GoesOn := by
  rw [InlineThread.stepBlock] at hstep
  split at hstep
  · exact h.goesOn_execute hrunning ‹_› hidle hstep
  · obtain ⟨⟨block, t₁⟩, hpop, hrest⟩ := exists_of_bind_eq_ok hstep
    dsimp only at hrest
    rcases hlevels : t.levels with - | ⟨level, rest⟩
    · -- There is no level to leave, and the script is stopped.
      rw [InlineThread.pop, hlevels] at hpop
      cases hpop
      have hpeek : t.peek? = none := by
        rw [InlineThread.peek?, hlevels]
        rfl
      rw [hpeek] at hrest
      obtain ⟨t₂, hstop, ⟨⟩⟩ := exists_of_map_eq_ok hrest
      exact h.goesOn_stopScript hrunning hstop
    · obtain ⟨hpop', hpopped⟩ := h.pop hlevels
      obtain ⟨-, rfl⟩ := Prod.mk.inj (Except.ok.inj (hpop'.symm.trans hpop))
      split at hrest
      · obtain ⟨t₂, hstop, ⟨⟩⟩ := exists_of_map_eq_ok hrest
        exact hpopped.goesOn_stopScript hrunning hstop
      · rename_i parent hparent
        obtain ⟨t₂, hresume, ⟨⟩⟩ := exists_of_map_eq_ok hrest
        refine hpopped.goesOn_resume hrunning hparent ?_ hresume
        rcases rest with - | ⟨lower, rest⟩
        · cases hparent
        · -- The level that is left was above the one that is returned to.
          rw [hlevels] at hpath
          obtain ⟨id, b, first, hid, hb, hfirst, -⟩ :=
            @Stack.IsPath.exists_of_getElem? _ _ _ _ hpath 0 level.block lower.block rfl rfl
          obtain rfl := Option.some.inj (hid.symm.trans hparent)
          exact ⟨b, first, hb, hfirst⟩

/-- **A turn goes on**, unless the block at work is an idle loop. If the thread runs on, there is a
timer just when it is in warp mode. -/
theorem goesOn_turn {top : BlockId} (h : Stands w target lot stack t)
    (hpath : Stack.IsPath w target top (t.levels.map InlineLevel.block))
    (hrunning : t.status = .running) (hidle : ¬t.AtIdleLoop w)
    (hturn : t.turn w shown deadline = .ok (request, t')) :
    t'.GoesOn ∧ (t'.status = .running → (t'.warpTimer = none ↔ t'.inWarpMode = false)) := by
  obtain ⟨⟨request', t₁⟩, hstep, hresult⟩ := exists_of_bind_eq_ok hturn
  have hgoes := h.goesOn_stepBlock hpath hrunning hidle hstep
  obtain ⟨-, rfl⟩ := Prod.mk.inj (Except.ok.inj hresult)
  rw [InlineThread.yieldIfLate]
  split
  · rename_i hrunning₁
    obtain ⟨hlevels, hstatus, htimer⟩ := outOfTime_facts w t₁ shown.check deadline
    have hflag : ¬(t₁.outOfTime w shown.check deadline).2.Flagged := by
      rw [flagged_congr hlevels]
      exact hgoes.not_flagged
    dsimp only
    split
    · exact ⟨⟨hflag, fun _ ↦ rfl⟩, fun hno ↦ by cases hno⟩
    · exact ⟨.of_running (hstatus.trans hrunning₁) hflag, fun _ ↦ htimer⟩
  · rename_i hnot
    exact ⟨hgoes, fun hrunning₁ ↦ absurd hrunning₁ hnot⟩

end Stands

end BlockScript
