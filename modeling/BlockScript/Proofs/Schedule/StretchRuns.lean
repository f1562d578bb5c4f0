import BlockScript.Proofs.Schedule.PathRuns
import BlockScript.Proofs.Thread.Stretches

/-!
# Which stretches are over after a turn

A thread that yields at its turn should have the whole budget for warp mode when its next turn
comes, and for that its timer has to be cleared. `Schedule.warpTimer_eq_none_iff_of_reached` says
when it is, for every thread of every schedule that a driver reaches and for every turn of it:
always, unless the turn ends in an idle loop. There the timer is the one from before the turn if the
thread was in that loop already, and otherwise it runs just when the loop is in warp mode.

The clock is not part of this. `Activity.RunsTo` lets it show anything at each turn of a slice, so
that slices may be cut short anywhere, and leaves open how many turns there are;
`Activity.takeTurn` is such a turn whenever it returns (`Activity.TakesTurn.of_takeTurn`).
-/

namespace BlockScript

/-! ### Turns under any clock -/

namespace Activity

/-- The block at work is an endless loop that encloses nothing. -/
def AtIdleLoop (a : Activity) : Prop :=
  ∃ id b, a.thread.peek? = some id ∧ a.engine.resolve? a.thread.target id = some b ∧
    b.command = .forever ∧ b.substack? = none

/-- The thread waits in an idle loop that it has executed, and whose level is flagged. -/
def RestsInLoop (a : Activity) : Prop :=
  a.AtIdleLoop ∧ ∃ frame, a.topFrame? = .ok (some frame) ∧ frame.isLoop = true

/-- **Turns until the thread no longer runs**, with a clock that may show anything at each of
them. -/
inductive RunsTo : Activity → Activity → Prop
  /-- The thread does not run. -/
  | rest {a : Activity} (h : a.thread.status ≠ .running) : RunsTo a a
  /-- One turn, and what follows. -/
  | turn {a a₁ a' : Activity} {shown : Reading} {deadline : Time} {request : Option StopRequest}
      (hrunning : a.thread.status = .running) (hturn : a.turn shown deadline = .ok (request, a₁))
      (hrest : RunsTo a₁ a') : RunsTo a a'

/-- **A thread's turn in a frame**, with a clock that may show anything in the course of it. -/
def TakesTurn (a a' : Activity) : Prop :=
  ∃ interpreted a₁, a.begin = .ok (interpreted, a₁) ∧ if interpreted then a₁.RunsTo a' else a' = a₁

variable {deadline : Time} {shown : Readings}

theorem RunsTo.of_slice (turns : Nat) : ∀ {a a' : Activity} {request last : Option StopRequest},
    slice deadline shown turns request a = .ok (last, a') → a.RunsTo a' := by
  induction turns generalizing shown with
  | zero =>
    intro a a' request last h
    rw [slice] at h
    split at h
    · cases h
    · cases h
      exact .rest ‹_›
  | succ turns ih =>
    intro a a' request last h
    rw [slice] at h
    split at h
    · obtain ⟨⟨latest, a₁⟩, hturn, hrest⟩ := exists_of_bind_eq_ok h
      exact .turn ‹_› hturn (ih hrest)
    · cases h
      exact .rest ‹_›

/-- A turn that returns is a turn, whatever the clock showed in the course of it. -/
theorem TakesTurn.of_takeTurn {a a' : Activity} {turns : Nat} {request : Option StopRequest}
    (h : a.takeTurn deadline shown turns = .ok (request, a')) : a.TakesTurn a' := by
  obtain ⟨⟨interpreted, a₁⟩, hbegin, hrest⟩ := exists_of_bind_eq_ok h
  refine ⟨interpreted, a₁, hbegin, ?_⟩
  cases interpreted with
  | false =>
    cases hrest
    rfl
  | true => exact RunsTo.of_slice turns hrest

end Activity

/-- Turns of an inline thread until it no longer runs. -/
inductive InlineThread.RunsTo (w : World) : InlineThread → InlineThread → Prop
  /-- The thread does not run. -/
  | rest {t : InlineThread} (h : t.status ≠ .running) : RunsTo w t t
  /-- One turn, and what follows. -/
  | turn {t t₁ t' : InlineThread} {shown : Reading} {deadline : Time}
      {request : Option StopRequest} (hrunning : t.status = .running)
      (hturn : t.turn w shown deadline = .ok (request, t₁))
      (hrest : RunsTo w t₁ t') : RunsTo w t t'

namespace Mirrors

variable {e : Engine} {others : List FrameId} {a a' : Activity} {t : InlineThread}

theorem warpTimer_eq (h : Mirrors e others a t) : t.warpTimer = a.thread.warpTimer := by
  rw [← h.inline]
  rfl

theorem atIdleLoop_iff (h : Mirrors e others a t) : a.AtIdleLoop ↔ t.AtIdleLoop e.world := by
  rw [Activity.AtIdleLoop, h.resolve?, ← h.peek?_eq, ← h.target_eq]
  constructor
  · rintro ⟨id, b, hpeek, hb, hcommand, hbody⟩
    exact ⟨b, ⟨id, hpeek, hb⟩, hcommand, hbody⟩
  · rintro ⟨b, ⟨id, hpeek, hb⟩, hcommand, hbody⟩
    exact ⟨id, b, hpeek, hb, hcommand, hbody⟩

theorem restsInLoop_iff (h : Mirrors e others a t) : a.RestsInLoop ↔ t.RestsInLoop e.world := by
  rw [Activity.RestsInLoop, InlineThread.RestsInLoop, h.atIdleLoop_iff, h.topFrame?,
    InlineThread.Flagged]
  refine and_congr_right fun _ ↦ ?_
  cases t.topFrame? with
  | none =>
    constructor
    · rintro ⟨frame, hno, -⟩
      cases hno
    · intro hno
      cases hno
  | some frame =>
    constructor
    · rintro ⟨frame', hframe, hflag⟩
      cases hframe
      exact hflag
    · intro hflag
      exact ⟨frame, rfl, hflag⟩

/-- **Turns under any clock are turns of the inline thread.** -/
theorem runsTo (hruns : a.RunsTo a') : ∀ {e : Engine} {t : InlineThread}, Mirrors e others a t →
    ∃ blocks t', t.RunsTo e.world t' ∧ Reports e others blocks a' t' := by
  induction hruns with
  | rest hnot =>
    intro e t h
    refine ⟨_, t, .rest ?_, h.reports⟩
    rw [h.status_eq]
    exact hnot
  | @turn a a₁ a' shown deadline request hrunning hturn _ ih =>
    intro e t h
    have hagree := h.turn shown deadline
    rw [hturn] at hagree
    obtain ⟨⟨request', t₁⟩, hok, -, hreports⟩ := hagree.exists_right
    obtain ⟨blocks, t', hruns', hreports'⟩ := ih hreports.mirrors
    rw [hreports.world] at hruns'
    exact ⟨_, t', .turn (h.status_eq.trans hrunning) hok hruns', hreports.trans hreports'⟩

end Mirrors

/-! ### The timer after a turn -/

/-- **A slice that starts in an idle loop** is one step long. -/
theorem InlineThread.RunsTo.of_atIdleLoop {w : World} {t t' : InlineThread} (h : t.RunsTo w t')
    (hidle : t.AtIdleLoop w) (hrunning : t.status = .running) :
    t'.warpTimer = t.warpTimer ∧ t'.inWarpMode = t.inWarpMode ∧ t'.RestsInLoop w := by
  cases h with
  | rest hnot => exact absurd hrunning hnot
  | turn _ hturn hrest =>
    obtain ⟨hyield, hrests⟩ := InlineThread.turn_of_atIdleLoop hidle hturn
    cases hrest with
    | rest _ => exact hrests
    | turn hrunning₁ _ _ => cases hyield.symm.trans hrunning₁

/-- **The timer of a thread that waits again** after a slice. By induction on the turns: in an idle
loop the slice is over, and after any other turn the timer is known, so that an idle loop which
comes later finds it running just in warp mode. -/
theorem OnTrack.warpTimer_eq_none_iff {w : World} {hat : BlockId × TargetId} {t t' : InlineThread}
    (hruns : t.RunsTo w t') : OnTrack w hat t → t.status = .running → t'.status = .yield →
      (t'.warpTimer = none ↔ ¬t'.RestsInLoop w ∨ t.AtIdleLoop w ∧ t.warpTimer = none ∨
        ¬t.AtIdleLoop w ∧ t'.inWarpMode = false) := by
  induction hruns with
  | rest hnot => exact fun _ hrunning ↦ absurd hrunning hnot
  | @turn t t₁ t' shown deadline request hrunning hturn hrest ih =>
    intro h _ hyield
    by_cases hidle : t.AtIdleLoop w
    · obtain ⟨htimer, -, hrests⟩ :=
        (InlineThread.RunsTo.turn hrunning hturn hrest).of_atIdleLoop hidle hrunning
      rw [htimer]
      refine ⟨fun hnone ↦ .inr (.inl ⟨hidle, hnone⟩), ?_⟩
      rintro (hno | ⟨-, hnone⟩ | ⟨hno, -⟩)
      · exact absurd hrests hno
      · exact hnone
      · exact absurd hidle hno
    · obtain ⟨lot, stack, hstack, -⟩ := h.path
      have hstands := hstack.stands (hstack.ne_nil_of_running hrunning)
      obtain ⟨hgoes, hclock⟩ := hstands.goesOn_turn h.isPath hrunning hidle hturn
      cases hrest with
      | rest hnot =>
        exact ⟨fun _ ↦ .inl fun hrests ↦ hgoes.not_flagged hrests.2,
          fun _ ↦ hgoes.warpTimer_eq hyield⟩
      | turn hrunning₁ hturn₁ hrest₁ =>
        rw [ih (lasting_onTrack.turn h hturn) hrunning₁ hyield, hclock hrunning₁]
        refine or_congr_right ?_
        by_cases hidle₁ : t₁.AtIdleLoop w
        · obtain ⟨-, hmode, -⟩ :=
            (InlineThread.RunsTo.turn hrunning₁ hturn₁ hrest₁).of_atIdleLoop hidle₁ hrunning₁
          rw [hmode]
          simp only [hidle, hidle₁, not_true_eq_false, not_false_eq_true, true_and, false_and,
            or_false, false_or]
        · simp only [hidle, hidle₁, not_false_eq_true, true_and, false_and, false_or]

/-- **The timer after a turn in a frame.** -/
theorem Mirrors.warpTimer_eq_none_iff {a a' : Activity} {others : List FrameId} {t : InlineThread}
    {hat : BlockId × TargetId} (h : Mirrors a.engine others a t)
    (htrack : OnTrack a.engine.world hat t) (hinterpreted : a.thread.program? = none)
    (hturn : a.TakesTurn a') (hyield : a'.thread.status = .yield) :
    a'.thread.warpTimer = none ↔ ¬a'.RestsInLoop ∨ a.AtIdleLoop ∧ a.thread.warpTimer = none ∨
      ¬a.AtIdleLoop ∧ a'.inWarpMode = .ok false := by
  obtain ⟨interpreted, a₁, hbegin, hrest⟩ := hturn
  rw [Activity.begin] at hbegin
  split at hbegin
  · -- A thread that is unwound is done.
    obtain ⟨a₂, hkill, hresult⟩ := exists_of_map_eq_ok hbegin
    obtain ⟨rfl, rfl⟩ := Prod.mk.inj hresult
    obtain rfl : a' = a₂ := hrest
    obtain ⟨lot, stack, hrests, -⟩ := htrack.path
    obtain ⟨t', hkill', hrests'⟩ := hrests.kill
    have hagree := h.kill
    rw [hkill, hkill'] at hagree
    obtain ⟨t'', hok, hmirrors⟩ := hagree.exists_right
    obtain rfl := Except.ok.inj hok
    have hdone := hrests'.status_eq_done_iff.2 rfl
    rw [hmirrors.status_eq, hyield] at hdone
    cases hdone
  · have hprogram : a.wake.thread.program? = none := by
      rw [← hinterpreted, Activity.wake]
      split <;> rfl
    dsimp only at hbegin
    rw [hprogram] at hbegin
    obtain ⟨rfl, rfl⟩ := Prod.mk.inj (Except.ok.inj hbegin)
    obtain ⟨blocks, t', hruns, hreports⟩ := h.wake.runsTo hrest
    have hmirrors := hreports.mirrors
    have hyield' : t'.status = .yield := hmirrors.status_eq.trans hyield
    have hrunning : t.wake.status = .running := by
      cases hruns with
      | turn hrunning _ _ => exact hrunning
      | rest _ =>
        rw [InlineThread.wake] at hyield' ⊢
        split at hyield'
        · cases hyield'
        · rename_i hnot
          exact absurd (.inl hyield') hnot
    -- Waking up changes the status alone.
    have hidle : t.wake.AtIdleLoop a.engine.world ↔ t.AtIdleLoop a.engine.world := by
      rw [InlineThread.wake]
      split <;> exact Iff.rfl
    have hkept : t.wake.warpTimer = t.warpTimer := by
      rw [InlineThread.wake]
      split <;> rfl
    have htimer := (lasting_onTrack.wake htrack).warpTimer_eq_none_iff hruns hrunning hyield'
    rw [hidle, hkept, h.warpTimer_eq, hmirrors.warpTimer_eq] at htimer
    rw [h.atIdleLoop_iff, hmirrors.restsInLoop_iff, hreports.world, hmirrors.inWarpMode, htimer,
      Except.ok.injEq]

namespace Schedule

/-- **Which stretches are over after a turn.** Let a thread of a schedule that a driver reaches be
interpreted, and let it wait for its next turn after the one that it takes, whatever the clock shows
in the course of it. Its timer is cleared then, unless it waits in an idle loop; and if it does, the
timer is cleared just when

* the thread was in that loop before the turn, without a timer, or
* it came to the loop in this turn, outside warp mode.

Whatever deadline a turn is given and whatever the clock shows, it is such a turn if it returns. -/
theorem warpTimer_eq_none_iff_of_reached {settings : Settings} {project : Project}
    {scripts : List (BlockId × TargetId)} {s : Schedule} {t : Thread}
    (h : Reached (Engine.ofProject settings project) scripts s) (hmem : t ∈ s.threads)
    (hinterpreted : t.program? = none) :
    (∀ a, Activity.TakesTurn ⟨s.engine, t⟩ a → a.thread.status = .yield →
      (a.thread.warpTimer = none ↔ ¬a.RestsInLoop ∨
        Activity.AtIdleLoop ⟨s.engine, t⟩ ∧ t.warpTimer = none ∨
        ¬Activity.AtIdleLoop ⟨s.engine, t⟩ ∧ a.inWarpMode = .ok false)) ∧
      ∀ deadline shown turns request a,
        Activity.takeTurn ⟨s.engine, t⟩ deadline shown turns = .ok (request, a) →
          Activity.TakesTurn ⟨s.engine, t⟩ a := by
  obtain ⟨settings', hs⟩ := h.upholds lasting_onTrack (Engine.pool_ofProject settings project)
  obtain ⟨position, ht⟩ := List.mem_iff_getElem?.1 hmem
  obtain ⟨hat, -, htrack⟩ := hs.exists_script ht
  rw [← hs.world] at htrack
  have hmirrors := (hs.driven lasting_onTrack).mirrored.activity ht
  exact ⟨fun a hturn hyield ↦ hmirrors.warpTimer_eq_none_iff (a := ⟨s.engine, t⟩) htrack
    hinterpreted hturn hyield, fun _ _ _ _ _ ↦ .of_takeTurn⟩

/-! ### An endless loop with nothing in it -/

/-- A call in warp mode of a procedure that is an endless loop with nothing in it. -/
def idling : Project where
  targets := [{
    name := "sprite"
    blocks := ⟨[
      ("hat", { opcode := "event_whenflagclicked", next := some "call" }),
      ("call", { opcode := "procedures_call",
                 mutation := some { proccode := some "p", warp := some (.boolean true) } }),
      ("definition", { opcode := "procedures_definition", next := some "loop",
                       inputs := ⟨[("custom_block", .block "prototype")],
                         List.nodup_singleton "custom_block"⟩ }),
      ("prototype", { opcode := "procedures_prototype",
                      mutation := some { proccode := some "p" } }),
      ("loop", { opcode := "control_forever" })], by decide⟩ }]

/-- What the first turn of the only thread comes to. -/
theorem exists_of_firstTurn (settings : Settings) (timer : Option Time)
    (hrun : (start (Engine.ofProject settings idling)).map (fun s ↦ s.threads.map fun t ↦
      (decide (t.program?.isNone ∧ t.killed = false),
        (Activity.takeTurn ⟨s.engine, t⟩ 9 (.still 0) 9).map fun result ↦
          decide (result.2.thread.status = .yield ∧ result.2.thread.warpTimer = timer))) =
      .ok [(true, .ok true)]) :
    ∃ scripts s t request a, Reached (Engine.ofProject settings idling) scripts s ∧
      t ∈ s.threads ∧ t.program? = none ∧ t.killed = false ∧
      Activity.takeTurn ⟨s.engine, t⟩ 9 (.still 0) 9 = .ok (request, a) ∧ a.thread.status = .yield ∧
      a.thread.warpTimer = timer := by
  obtain ⟨s, hstart, hthreads⟩ := exists_of_map_eq_ok hrun
  obtain ⟨t, hs, hfacts⟩ := List.map_eq_singleton_iff.1 hthreads
  obtain ⟨hfacts, hturn⟩ := Prod.mk.inj hfacts
  obtain ⟨hprogram, hkilled⟩ := of_decide_eq_true hfacts
  obtain ⟨⟨request, a⟩, hstep, hresult⟩ := exists_of_map_eq_ok hturn
  obtain ⟨hyield, htimer⟩ := of_decide_eq_true hresult
  exact ⟨_, s, t, request, a, .start hstart, hs ▸ List.mem_singleton_self t,
    Option.isNone_iff_eq_none.1 hprogram, hkilled, hstep, hyield, htimer⟩

/-- Without a budget for warp mode the first turn ends before the loop has been executed, and the
timer is cleared. -/
theorem warpTimer_eq_none_idling :
    ∃ scripts s t request a, Reached (Engine.ofProject ⟨30, 9, 0, false⟩ idling) scripts s ∧
      t ∈ s.threads ∧ t.program? = none ∧
      Activity.takeTurn ⟨s.engine, t⟩ 9 (.still 0) 9 = .ok (request, a) ∧ a.thread.status = .yield ∧
      a.thread.warpTimer = none ∧
      (¬a.RestsInLoop ∨ Activity.AtIdleLoop ⟨s.engine, t⟩ ∧ t.warpTimer = none ∨
        ¬Activity.AtIdleLoop ⟨s.engine, t⟩ ∧ a.inWarpMode = .ok false) := by
  obtain ⟨scripts, s, t, request, a, hreached, hmem, hprogram, -, hstep, hyield, htimer⟩ :=
    exists_of_firstTurn ⟨30, 9, 0, false⟩ none (by decide +kernel)
  obtain ⟨hiff, hturns⟩ := warpTimer_eq_none_iff_of_reached hreached hmem hprogram
  exact ⟨scripts, s, t, request, a, hreached, hmem, hprogram, hstep, hyield, htimer,
    (hiff a (hturns _ _ _ _ _ hstep) hyield).1 htimer⟩

/-- **A loop with nothing in it does not end the stretch.** With a budget for warp mode the first
turn comes to the loop, and the thread waits with its timer running. -/
theorem not_warpTimer_eq_none_idling :
    ¬∀ settings project scripts s t request a deadline shown turns,
      Reached (Engine.ofProject settings project) scripts s → t ∈ s.threads →
        t.program? = none → t.killed = false →
          Activity.takeTurn ⟨s.engine, t⟩ deadline shown turns = .ok (request, a) →
            a.thread.status = .yield → a.thread.warpTimer = none := by
  intro halways
  obtain ⟨scripts, s, t, request, a, hreached, hmem, hprogram, hkilled, hstep, hyield, htimer⟩ :=
    exists_of_firstTurn ⟨30, 9, 9, false⟩ (some 0) (by decide +kernel)
  have hnone :=
    halways _ _ scripts s t request a 9 (.still 0) 9 hreached hmem hprogram hkilled hstep hyield
  cases htimer.symm.trans hnone

end Schedule

end BlockScript
