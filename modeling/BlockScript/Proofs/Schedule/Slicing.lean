import BlockScript.Proofs.Schedule.Following
import BlockScript.Proofs.Thread.Clock

/-!
# Slicing does not change what a script does

How a run is cut into frames, and how much time each of them has, decides how many steps a thread
makes at each of its turns. It does not decide which steps these are: all steps of a thread
throughout a run, put together, are the beginning of the course that the thread would take if there
were no clock at all (`Driven.map_timeless_stepsOf`). Two runs can therefore only differ in how far
they get (`Schedule.stepsOf_slicing`), also where a script goes round for ever.

Between its turns the thread is left alone, as far as its steps can tell: others run and take and
give back frames, but what they can do to it is to mark it, and a marked thread makes no more steps.
-/

namespace BlockScript

namespace Schedule

namespace Driven

variable {w : World} {s s' : Schedule} {clock : Clock} {turns position position' : Nat} {t : Thread}

/-- An interpreted thread that is not marked when its turn comes is what it was before the frame,
and its turn is a slice. -/
theorem inline_of_atTurn {a : Activity} (h : Driven w s) (ht : s.threads[position]? = some t)
    (hprogram : t.program? = none) (hatTurn : s.atTurn clock turns position = some a)
    (hkilled : a.thread.killed = false) :
    a.inline = (t.inline s.engine.pool).unmarked ∧ a.inline.program? = none ∧
      s.stepsAt clock turns position =
        InlineThread.steps w (clock.began + w.settings.workTime) (clock.shown position) turns
          a.inline.wake := by
  obtain ⟨t₀, ht₀, hsame, -, hsteps⟩ := h.of_atTurn hatTurn
  obtain rfl : t = t₀ := Option.some.inj (ht.symm.trans ht₀)
  have hkilled' : a.inline.killed = false := hkilled
  have hinline : a.inline = (t.inline s.engine.pool).unmarked :=
    (InlineThread.unmarked_of_killed_eq hkilled').symm.trans hsame
  have hprogram' : a.inline.program? = none := by
    rw [hinline]
    exact hprogram
  refine ⟨hinline, hprogram', ?_⟩
  rw [hsteps, InlineThread.turnSteps, hkilled', hprogram']
  rfl

/-- **The steps of one frame** are the beginning of the thread's course. -/
theorem map_timeless_stepsAt (h : Driven w s) (ht : s.threads[position]? = some t)
    (hprogram : t.program? = none) (clock : Clock) (turns : Nat) :
    (s.stepsAt clock turns position).map Step.timeless =
      InlineThread.course w.targets (s.stepsAt clock turns position).length
        (t.inline s.engine.pool).unmarked.timeless := by
  rcases hatTurn : s.atTurn clock turns position with - | a
  · rw [stepsAt, hatTurn]
    rfl
  · cases hkilled : a.thread.killed with
    | true =>
      obtain ⟨-, -, -, -, hsteps⟩ := h.of_atTurn hatTurn
      have hnone : a.inline.turnSteps w (clock.began + w.settings.workTime)
          (clock.shown position) turns = [] :=
        InlineThread.turnSteps_of_killed hkilled
      rw [hsteps, hnone]
      rfl
    | false =>
      obtain ⟨hinline, -, hsteps⟩ := h.inline_of_atTurn ht hprogram hatTurn hkilled
      rw [hsteps, InlineThread.map_timeless_steps, InlineThread.timeless_wake, hinline]

/-- After the frame the thread is where these steps left it. -/
theorem timeless_of_moved (h : Driven w s) (ht : s.threads[position]? = some t)
    (hprogram : t.program? = none)
    (hmoved : s.moved clock turns position = some (position', s')) :
    ∃ t', s'.threads[position']? = some t' ∧ t'.program? = none ∧
      (t'.inline s'.engine.pool).unmarked.timeless =
        (t.inline s.engine.pool).unmarked.timeless.afterSteps
          ((s.stepsAt clock turns position).map Step.timeless) := by
  obtain ⟨-, -, a, blocks, request, t₁, t', hatTurn, hturn, hlive, ht', hsame⟩ := h.of_moved hmoved
  obtain ⟨-, -, -, ⟨target, lot, stack, hrests⟩, -⟩ := h.of_atTurn hatTurn
  have hlot : t₁.lot = a.inline.lot := hrests.lot_of_takeTurn hturn
  -- A thread that was marked would be done.
  have hkilled : a.thread.killed = false := by
    by_contra hmarked
    have hmarked' : a.inline.killed = true := eq_true_of_ne_false hmarked
    obtain ⟨t₂, hkill, hrests₂⟩ := hrests.kill
    rw [InlineThread.takeTurn, if_pos hmarked', hkill] at hturn
    cases hturn
    exact hlive (hrests₂.status_eq_done_iff.2 rfl)
  obtain ⟨hinline, hprogram', hsteps⟩ := h.inline_of_atTurn ht hprogram hatTurn hkilled
  have hafter : t₁ = a.inline.wake.afterSteps (s.stepsAt clock turns position) := by
    obtain ⟨-, -, -, -, hturnSteps⟩ := h.of_atTurn hatTurn
    rw [hturnSteps]
    exact InlineThread.eq_afterSteps_of_takeTurn hkilled hprogram' hturn
  have hunmarked : (t'.inline s'.engine.pool).unmarked = t₁ :=
    hsame.trans (InlineThread.unmarked_of_killed_eq ((congrArg Lot.killed hlot).trans hkilled))
  refine ⟨t', ht', ?_, ?_⟩
  · have hcompilation : t'.compilation = t.compilation := by
      have hthen : t'.compilation = t₁.compilation := congrArg InlineThread.compilation hunmarked
      have hnow : a.inline.compilation = t.compilation := congrArg InlineThread.compilation hinline
      exact hthen.trans ((congrArg Lot.compilation hlot).trans hnow)
    rw [Thread.program?, hcompilation]
    exact hprogram
  · rw [hunmarked, hafter, InlineThread.timeless_afterSteps, InlineThread.timeless_wake, hinline]

/-- **The steps of a whole run**, by induction from one frame. -/
theorem map_timeless_stepsOf (ticks : List Tick) : ∀ {w : World} {s : Schedule} {position : Nat}
    {t : Thread}, Driven w s → s.threads[position]? = some t → t.program? = none →
      (s.stepsOf ticks position).map Step.timeless =
        InlineThread.course w.targets (s.stepsOf ticks position).length
          (t.inline s.engine.pool).unmarked.timeless := by
  induction ticks with
  | nil => exact fun _ _ _ ↦ rfl
  | cons tick ticks ih =>
    intro w s position t h ht hprogram
    have hprepared := h.prepare tick
    obtain ⟨t₀, ht₀, hsame₀⟩ := unmarked_prepare tick ht
    have hprogram₀ : t₀.program? = none := by
      have hcompilation : t₀.compilation = t.compilation :=
        congrArg InlineThread.compilation hsame₀
      rw [Thread.program?, hcompilation]
      exact hprogram
    have hfirst := hprepared.map_timeless_stepsAt ht₀ hprogram₀ tick.clock tick.turns
    rw [hsame₀, World.targets_during] at hfirst
    rcases hmoved : (s.prepare tick).moved tick.clock tick.turns position with - | ⟨position', s'⟩
    · rw [stepsOf, follow_cons_of_gone hmoved]
      exact hfirst
    · obtain ⟨t', ht', hprogram', hafter⟩ :=
        hprepared.timeless_of_moved ht₀ hprogram₀ hmoved
      have hrest := ih (hprepared.of_moved hmoved).1 ht' hprogram'
      rw [World.targets_during] at hrest
      have hlength : (InlineThread.course w.targets
          ((s.prepare tick).stepsAt tick.clock tick.turns position).length
          (t.inline s.engine.pool).unmarked.timeless).length =
            ((s.prepare tick).stepsAt tick.clock tick.turns position).length := by
        rw [← hfirst, List.length_map]
      rw [stepsOf, follow_cons_of_moved hmoved, ← stepsOf, List.map_append, List.length_append,
        InlineThread.course_add _ hlength, hrest, hafter, hsame₀, ← hfirst]

end Driven

/-- **Slicing does not change what a script does.** Let a thread of a project be interpreted, and
let its run be driven by two sequences of ticks. As far as the thread gets in both of them, it makes
the same steps: it comes to the same blocks, asks the same of the other threads, and is the same
after each step, apart from whether it yields and when its stretch in warp mode began. -/
theorem stepsOf_slicing {settings : Settings} {project : Project} {s₀ : Schedule} {position : Nat}
    {t : Thread} (hstart : start (Engine.ofProject settings project) = .ok s₀)
    (ht : s₀.threads[position]? = some t) (hinterpreted : t.program? = none)
    (ticks₁ ticks₂ : List Tick) (k : Nat) (h₁ : k ≤ (s₀.stepsOf ticks₁ position).length)
    (h₂ : k ≤ (s₀.stepsOf ticks₂ position).length) :
    ((s₀.stepsOf ticks₁ position).take k).map Step.timeless =
      ((s₀.stepsOf ticks₂ position).take k).map Step.timeless := by
  have hdriven := (driven_start (Engine.pool_ofProject settings project) hstart).1
  rw [List.map_take, List.map_take, hdriven.map_timeless_stepsOf ticks₁ ht hinterpreted,
    hdriven.map_timeless_stepsOf ticks₂ ht hinterpreted, InlineThread.take_course h₁,
    InlineThread.take_course h₂]

/-! ### A loop in warp mode -/

/-- A hat and a call of a procedure that runs an endless loop in warp mode. -/
def warping : Project where
  targets := [{
    name := "sprite"
    blocks := ⟨[
      ("hat", { opcode := "event_whenflagclicked", next := some "call" }),
      ("call", { opcode := "procedures_call",
                 mutation := some { proccode := some "p", warp := some (.text "true") } }),
      ("definition", { opcode := "procedures_definition", next := some "loop",
                       inputs := ⟨[("custom_block", .block "prototype")],
                         List.nodup_singleton "custom_block"⟩ }),
      ("prototype", { opcode := "procedures_prototype",
                      mutation := some { proccode := some "p" } }),
      ("loop", { opcode := "control_forever",
                 inputs := ⟨[("SUBSTACK", .block "say")], List.nodup_singleton "SUBSTACK"⟩ }),
      ("say", { opcode := "looks_say" })], by decide⟩ }]

/-- Given no time the thread makes one step in each frame, and given all the time there is it goes
round in its first turn: the steps are the same. -/
theorem stepsOf_slicing_warping :
    ∃ s₀ t, start (Engine.ofProject ⟨30, 0, 0, false⟩ warping) = .ok s₀ ∧
      s₀.threads[0]? = some t ∧ t.program? = none ∧
      (s₀.stepsOf ((List.range 7).map fun now ↦ ⟨.still now, 9, 0, 0, []⟩) 0).length = 7 ∧
      (s₀.stepsOf [⟨.still 0, 9, 9, 9, []⟩] 0).map Step.block = [some "hat", some "call",
        some "loop", some "say", none, some "say", none, some "say", none] ∧
      ((s₀.stepsOf ((List.range 7).map fun now ↦ ⟨.still now, 9, 0, 0, []⟩) 0).take 7).map
          Step.timeless =
        ((s₀.stepsOf [⟨.still 0, 9, 9, 9, []⟩] 0).take 7).map Step.timeless := by
  have hrun : (start (Engine.ofProject ⟨30, 0, 0, false⟩ warping)).map (fun s₀ ↦
      ((s₀.threads[0]?).map Thread.program?,
        (s₀.stepsOf ((List.range 7).map fun now ↦ ⟨.still now, 9, 0, 0, []⟩) 0).length,
        (s₀.stepsOf [⟨.still 0, 9, 9, 9, []⟩] 0).map Step.block)) =
      .ok (some none, 7, [some "hat", some "call", some "loop", some "say", none, some "say", none,
        some "say", none]) := by
    decide +kernel
  rcases hstart : start (Engine.ofProject ⟨30, 0, 0, false⟩ warping) with cause | s₀
  · rw [hstart] at hrun
    cases hrun
  · rw [hstart] at hrun
    have hfacts := Except.ok.inj hrun
    have hlength₁ :
        (s₀.stepsOf ((List.range 7).map fun now ↦ ⟨.still now, 9, 0, 0, []⟩) 0).length = 7 :=
      congrArg (fun facts ↦ facts.2.1) hfacts
    have hblocks : (s₀.stepsOf [⟨.still 0, 9, 9, 9, []⟩] 0).map Step.block = _ :=
      congrArg (fun facts ↦ facts.2.2) hfacts
    have hlength₂ : (s₀.stepsOf [⟨.still 0, 9, 9, 9, []⟩] 0).length = 9 := by
      have hlength := congrArg List.length hblocks
      rwa [List.length_map] at hlength
    obtain ⟨t, ht, hinterpreted⟩ := Option.map_eq_some_iff.1 (congrArg Prod.fst hfacts)
    refine ⟨s₀, t, rfl, ht, hinterpreted, hlength₁, hblocks, ?_⟩
    exact stepsOf_slicing hstart ht hinterpreted _ _ 7 (by omega) (by omega)

end Schedule

end BlockScript
