import BlockScript.Proofs.Schedule.Interleaving
import BlockScript.Proofs.Schedule.Ticks

/-!
# The driver breaks no rule

The operations on stacks and frames give a `Halt` to a caller that breaks their rules: one that
moves on with an empty stack, restores a target that nothing switched away from, writes a parameter
to a level without parameters, addresses a frame that is not there or releases one twice. The driver
is a caller that never does (`Schedule.drive_owned`), for every project and every run, with threads
killed between frames or not. No single operation checks this, since what keeps the driver from each
of the mistakes is decided elsewhere: the frames that the pool has lent out are those of the levels,
and the levels of a thread have the shape that the stack machine gives them (`Schedule.Driven`).

What remains is `Halt.unfinished`, which is no mistake: a turn may take more steps than it was
granted, or may never end. `CutShort` says what is behind it.
-/

namespace BlockScript

namespace Schedule

/-- **A run that is cut short**: at the turn of some thread that is neither marked nor compiled, the
thread makes as many steps as it was granted, and still runs. -/
inductive CutShort : List Tick → Schedule → Prop
  /-- In the first frame. -/
  | here {tick : Tick} {ticks : List Tick} {s : Schedule} {position : Nat} {a : Activity}
      (hturn : (s.prepare tick).atTurn tick.clock tick.turns position = some a)
      (hkilled : a.thread.killed = false) (hprogram : a.thread.program? = none)
      (hlength : ((s.prepare tick).stepsAt tick.clock tick.turns position).length = tick.turns)
      (hrunning : (a.inline.wake.afterSteps
        ((s.prepare tick).stepsAt tick.clock tick.turns position)).status = .running) :
      CutShort (tick :: ticks) s
  /-- In a later frame. -/
  | later {tick : Tick} {ticks : List Tick} {s s' : Schedule}
      (hframe : (s.prepare tick).frame tick.clock tick.turns = .ok s') (hrest : CutShort ticks s') :
      CutShort (tick :: ticks) s

namespace Driven

variable {w : World} {s : Schedule}

/-- A frame that fails was cut short at one of its turns. -/
theorem exists_of_frame_error {clock : Clock} {turns : Nat} {cause : Halt} (h : Driven w s)
    (hframe : s.frame clock turns = .error cause) :
    cause = .unfinished ∧ ∃ position a, s.atTurn clock turns position = some a ∧
      a.thread.killed = false ∧ a.thread.program? = none ∧
      (s.stepsAt clock turns position).length = turns ∧
      (a.inline.wake.afterSteps (s.stepsAt clock turns position)).status = .running := by
  rw [frame_eq] at hframe
  rcases hup : s.upTo clock turns s.threads.length with cause' | mid
  · rw [hup] at hframe
    cases hframe
    obtain ⟨position, -, mid, hmid, hturn⟩ := exists_of_upTo_error hup
    rw [Schedule.turnAt, stepAt] at hturn
    rcases ht : mid.threads[position]? with - | t
    · rw [ht] at hturn
      cases hturn
    · rw [ht] at hturn
      dsimp only at hturn
      rcases hstep : s.turnIn clock turns position ⟨mid.engine, t⟩ with cause' | result
      · rw [hstep] at hturn
        cases hturn
        obtain ⟨hcause, hkilled, hprogram, hlength, hrunning⟩ :=
          (h.of_upTo hmid).1.takeTurn_error ht hstep
        have hatTurn : s.atTurn clock turns position = some ⟨mid.engine, t⟩ := by
          rw [atTurn_of_upTo hmid, ht]
          rfl
        refine ⟨hcause, position, ⟨mid.engine, t⟩, hatTurn, hkilled, hprogram, ?_⟩
        rw [stepsAt, hatTurn]
        exact ⟨hlength, hrunning⟩
      · rw [hstep] at hturn
        cases hturn
  · rw [hup] at hframe
    cases hframe

/-- A run that fails was cut short. -/
theorem cutShort (ticks : List Tick) : ∀ {w : World} {s : Schedule} {cause : Halt}, Driven w s →
    s.drive ticks = .error cause → cause = .unfinished ∧ CutShort ticks s := by
  induction ticks with
  | nil =>
    intro w s cause h hdrive
    cases hdrive
  | cons tick ticks ih =>
    intro w s cause h hdrive
    rcases hframe : (s.prepare tick).frame tick.clock tick.turns with cause' | s₁
    · rw [Schedule.drive, hframe] at hdrive
      cases hdrive
      obtain ⟨hcause, position, a, hturn, hkilled, hprogram, hlength, hrunning⟩ :=
        (h.prepare tick).exists_of_frame_error hframe
      exact ⟨hcause, .here hturn hkilled hprogram hlength hrunning⟩
    · rw [drive_cons hframe] at hdrive
      have h₁ := ((h.prepare tick).frame_safely tick.clock tick.turns)
      rw [hframe] at h₁
      obtain ⟨hcause, hrest⟩ := ih h₁.of_ok hdrive
      exact ⟨hcause, .later hframe hrest⟩

end Driven

/-- **The driver breaks no rule.** Let compiling come to a result for every hat of a project, where
that is asked for. Then the scripts are started, and whatever frames follow, at whatever times, with
whatever budgets and whichever threads killed before each of them, the run comes to a schedule in
which the pool has lent out the frames of the levels and nothing else; or else it was cut short,
because the turn of a thread did not end within the steps that it was granted. -/
theorem drive_owned (settings : Settings) (project : Project)
    (hcompile : settings.compileScripts = true →
      ∀ hat ∈ hats (Engine.ofProject settings project), ∃ result,
        StraightLine.compile (Engine.ofProject settings project) hat.2 hat.1 = .ok result) :
    ∃ s₀, start (Engine.ofProject settings project) = .ok s₀ ∧ s₀.Owned ∧
      ∀ ticks, match s₀.drive ticks with
        | .ok s => s.Owned
        | .error cause => cause = .unfinished ∧ CutShort ticks s₀ := by
  have hpool := Engine.pool_ofProject settings project
  obtain ⟨s₀, hstart⟩ := exists_start hpool fun hat hmem ↦ by
    rw [Engine.compilation, Engine.settings_ofProject]
    split
    · obtain ⟨result, hresult⟩ := hcompile ‹_› hat hmem
      rw [hresult]
      exact ⟨_, rfl⟩
    · exact ⟨_, rfl⟩
  have hdriven := (driven_start hpool hstart).1
  refine ⟨s₀, hstart, owned_of_lends hdriven.lends, fun ticks ↦ ?_⟩
  rcases hdrive : s₀.drive ticks with cause | s
  · exact hdriven.cutShort ticks hdrive
  · obtain ⟨settings', h⟩ := hdriven.of_drive hdrive
    exact owned_of_lends h.lends

/-! ### A script that goes round for ever -/

/-- A hat and a call of a procedure whose two blocks follow each other. -/
def endless : Project where
  targets := [{
    name := "sprite"
    blocks := ⟨[
      ("hat", { opcode := "event_whenflagclicked", next := some "call" }),
      ("call", { opcode := "procedures_call", mutation := some { proccode := some "p" } }),
      ("definition", { opcode := "procedures_definition", next := some "one",
                       inputs := ⟨[("custom_block", .block "prototype")],
                         List.nodup_singleton "custom_block"⟩ }),
      ("prototype", { opcode := "procedures_prototype",
                      mutation := some { proccode := some "p" } }),
      ("one", { opcode := "looks_say", next := some "other" }),
      ("other", { opcode := "looks_say", next := some "one" })], by decide⟩ }]

/-- Given no time the thread makes a step in each frame, and once it is killed all frames are given
back. Given all the time there is its turn is cut short. -/
theorem drive_owned_endless :
    ∃ s₀, start (Engine.ofProject ⟨30, 0, 0, true⟩ endless) = .ok s₀ ∧
      (∃ s, s₀.drive [⟨.still 0, 9, 0, 0, []⟩, ⟨.still 1, 9, 0, 0, []⟩,
          ⟨.still 2, 9, 0, 0, []⟩] = .ok s ∧
        s.engine.pool.inUseCount = 2 ∧ s.Owned) ∧
      (∃ s, s₀.drive [⟨.still 0, 9, 0, 0, []⟩, ⟨.still 1, 9, 0, 0, []⟩,
          ⟨.still 2, 9, 0, 0, [0]⟩] = .ok s ∧
        s.engine.pool.inUseCount = 0 ∧ s.Owned) ∧
      CutShort [⟨.still 0, 9, 9, 9, []⟩] s₀ := by
  have hhats : hats (Engine.ofProject ⟨30, 0, 0, true⟩ endless) = [("hat", ⟨0⟩)] := rfl
  have hcompile : ∀ hat ∈ hats (Engine.ofProject ⟨30, 0, 0, true⟩ endless), ∃ result,
      StraightLine.compile (Engine.ofProject ⟨30, 0, 0, true⟩ endless) hat.2 hat.1 =
        .ok result := by
    intro hat hmem
    obtain rfl := List.mem_singleton.1 (hhats ▸ hmem)
    exact ⟨_, rfl⟩
  obtain ⟨s₀, hstart, -, hsafe⟩ := drive_owned ⟨30, 0, 0, true⟩ endless fun _ ↦ hcompile
  have hruns : ∀ ticks, s₀.drive ticks =
      start (Engine.ofProject ⟨30, 0, 0, true⟩ endless) >>= drive ticks := by
    rw [hstart]
    exact fun ticks ↦ rfl
  have hok : ∀ ticks count, (start (Engine.ofProject ⟨30, 0, 0, true⟩ endless) >>=
      drive ticks).map (fun s ↦ s.engine.pool.inUseCount) = .ok count →
      ∃ s, s₀.drive ticks = .ok s ∧ s.engine.pool.inUseCount = count ∧ s.Owned := by
    intro ticks count hcount
    have howned := hsafe ticks
    rw [← hruns] at hcount
    rcases hdrive : s₀.drive ticks with cause | s
    · rw [hdrive] at hcount
      cases hcount
    · rw [hdrive] at hcount howned
      exact ⟨s, rfl, Except.ok.inj hcount, howned⟩
  have hfails : start (Engine.ofProject ⟨30, 0, 0, true⟩ endless) >>=
      drive [⟨.still 0, 9, 9, 9, []⟩] = .error .unfinished := by
    decide +kernel
  have hcut := hsafe [⟨.still 0, 9, 9, 9, []⟩]
  rw [hruns, hfails] at hcut
  exact ⟨s₀, hstart, hok _ 2 (by decide +kernel), hok _ 0 (by decide +kernel), hcut.2⟩

end Schedule

end BlockScript
