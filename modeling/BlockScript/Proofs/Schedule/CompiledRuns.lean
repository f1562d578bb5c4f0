import BlockScript.Proofs.Schedule.Watching
import BlockScript.Proofs.Thread.Chains
import BlockScript.Proofs.Thread.Indifference

/-!
# Compiled and interpreted runs

A project is run twice, once with compilation asked for and once without, and the thread of one hat
is watched in both runs. Do the two threads take the same course?

* Where the script is not compiled they do: the thread is interpreted in either run, and what came
  of compiling it makes no difference (`Alike.frames`). However the clock cuts its slices in the one
  run and in the other, both times it takes the steps of one stack machine (`Watch.KeepsTo`).
* Where it is compiled, the thread comes to all blocks of the program in its first turn and is done
  (`InlineThread.frames_of_chain`), while the interpreter may leave the chain. They take the same
  course just when the program is straight (`Chain.straight_iff`).

So `Straight` is the whole of what the compiler would have to check and does not.
-/

namespace BlockScript

open Schedule

/-! ### The life of a compiled thread -/

/-- A compiled thread comes to the blocks of its program in its first frame, asks nothing of other
threads, and is done. -/
theorem InlineThread.takeTurn_of_chain {w : World} {target : TargetId} {id : BlockId}
    {program : Program} (h : Chain w target id program) (deadline : Time) (shown : Readings)
    (turns : Nat) :
    ∃ t, (started (id, target) (.compiled program)).takeTurn w deadline shown turns =
      .ok (program, none, t) ∧ t.status = .done := by
  obtain ⟨t, hstop, hrests⟩ :=
    (Rests.started w (id, target) (.compiled program)).wake.stopScript
  have hunwind : Stack.unwind w target [some id] = [] := by
    rw [Stack.unwind, h.isCall_eq_false]
    rfl
  have hprogram : (program.filter fun id ↦ (w.resolve? target id).isSome) = program :=
    List.filter_eq_self.2 h.isSome_resolve?
  refine ⟨t, ?_, hrests.status_eq_done_iff.2 hunwind⟩
  -- Blocks that do not exist would be passed over, but those of a chain all do.
  show ((started (id, target) (.compiled program)).wake.stopScript w).map (fun t' ↦
    (program.filter fun id ↦ (w.resolve? target id).isSome, none, t')) = _
  rw [hstop, hprogram]
  rfl

theorem InlineThread.frames_of_chain {w : World} {target : TargetId} {id : BlockId}
    {program : Program} (h : Chain w target id program) {spells : List Spell}
    (hne : spells ≠ []) :
    ∃ t, (started (id, target) (.compiled program)).frames w spells = .ok (program, [], t) ∧
      t.status = .done := by
  cases spells with
  | nil => exact absurd rfl hne
  | cons spell spells =>
    obtain ⟨t, hturn, hdone⟩ :=
      takeTurn_of_chain h (spell.began + w.settings.workTime) spell.shown spell.turns
    refine ⟨t, ?_, hdone⟩
    rw [frames, if_neg Status.noConfusion, hturn]
    show (frames w spells t >>= _) = _
    rw [frames_of_done hdone]
    show Except.ok (program ++ [], [], t) = _
    rw [List.append_nil]

/-! ### The life of an interpreted thread, on the same chain -/

namespace Chain

variable {w : World} {target : TargetId} {id : BlockId} {program : Program} {lot : Lot}

/-- A number of steps in which the machine goes through the chain, if it ever does. -/
theorem exists_bound (h : Chain w target id program) :
    ∃ bound, Straight w target program → Stack.after w target bound [some id] = [] ∧
      Stack.trace w target bound [some id] = program ∧
      Stack.Quiet w target bound [some id] := by
  by_cases hstraight : Straight w target program
  · obtain ⟨bound, hbound⟩ := h.straight_iff.1 hstraight
    exact ⟨bound, fun _ ↦ hbound⟩
  · exact ⟨0, fun hyes ↦ absurd hyes hstraight⟩

/-- **An interpreted life.** Given so many frames, an interpreted thread comes to the blocks of the
chain, asks nothing of other threads and is done just when the chain is straight. -/
theorem frames_iff {bound : Nat} {spells : List Spell} {t t' : InlineThread}
    {blocks : List BlockId} {requests : List StopRequest} (h : Chain w target id program)
    (hbound : Straight w target program → Stack.after w target bound [some id] = [] ∧
      Stack.trace w target bound [some id] = program ∧ Stack.Quiet w target bound [some id])
    (hlot : lot.Interpreted) (hrests : Rests w target lot [some id] t)
    (hframes : t.frames w spells = .ok (blocks, requests, t')) (hle : bound ≤ spells.length) :
    blocks = program ∧ requests = [] ∧ t'.status = .done ↔ Straight w target program := by
  obtain ⟨n, rfl, hrests', hrequests, hlong⟩ :=
    Rests.exists_of_frames spells hlot hrests hframes
  rw [hrests'.status_eq_done_iff, hrequests]
  constructor
  · rintro ⟨htrace, hquiet, hend⟩
    exact h.straight_iff.2 ⟨n, hend, htrace, hquiet⟩
  · intro hstraight
    obtain ⟨hend, htrace, hquiet⟩ := hbound hstraight
    -- The thread may have been granted more steps than it needs, which then change nothing.
    have hend' : Stack.after w target n [some id] = [] := by
      rcases hlong with hn | hnil
      · exact Stack.after_eq_nil_of_le hend (Nat.le_trans hle hn)
      · exact hnil
    refine ⟨?_, Stack.quiet_of_after_eq_nil hend hquiet n, hend'⟩
    rw [← htrace]
    exact Stack.trace_eq_of_after_eq_nil hend hend'

end Chain

/-! ### What was asked for changes no chain -/

namespace Stack

variable {w : World} {target : TargetId} (compile : Bool)

theorem unwind_asking (stack : Stack) :
    unwind (w.asking compile) target stack = unwind w target stack := by
  induction stack with
  | nil => rfl
  | cons top rest ih =>
    rw [unwind, unwind, ih]
    rfl

/-- Each step is the same. -/
theorem step_asking (stack : Stack) :
    step (w.asking compile) target stack = step w target stack := by
  unfold step perform
  simp only [unwind_asking]
  rfl

theorem after_asking (n : Nat) : ∀ stack : Stack,
    after (w.asking compile) target n stack = after w target n stack := by
  induction n with
  | zero => exact fun _ ↦ rfl
  | succ n ih =>
    intro stack
    rw [after, after, ih, step_asking]

theorem trace_asking (n : Nat) : ∀ stack : Stack,
    trace (w.asking compile) target n stack = trace w target n stack := by
  induction n with
  | zero => exact fun _ ↦ rfl
  | succ n ih =>
    intro stack
    rw [trace, trace, ih, step_asking]

theorem quiet_asking_iff (n : Nat) : ∀ stack : Stack,
    Quiet (w.asking compile) target n stack ↔ Quiet w target n stack := by
  induction n with
  | zero => exact fun _ ↦ Iff.rfl
  | succ n ih =>
    intro stack
    rw [Quiet, Quiet, ih, step_asking]
    exact Iff.rfl

end Stack

theorem Chain.asking {w : World} {target : TargetId} {id : BlockId} {program : Program}
    (h : Chain w target id program) (compile : Bool) :
    Chain (w.asking compile) target id program := by
  induction h with
  | last hb hsupported hnext => exact .last hb hsupported hnext
  | cons hb hsupported hnext _ ih => exact .cons hb hsupported hnext ih

theorem straight_asking_iff {w : World} {target : TargetId} {program : Program} (compile : Bool) :
    Straight (w.asking compile) target program ↔ Straight w target program :=
  ⟨fun h ↦ ⟨h.harmless, h.onward⟩, fun h ↦ ⟨h.harmless, h.onward⟩⟩

/-! ### Two runs of a project -/

/-- **The same course**: two watched threads came to the same blocks in the same order, asked the
same of the other threads, and are done both or neither. -/
structure Watch.SameCourse (x y : Watch) : Prop where
  /-- The blocks are the same. -/
  blocks_eq : x.blocks = y.blocks
  /-- What was asked of the others is the same. -/
  requests_eq : x.requests = y.requests
  /-- Either both are done or neither is. -/
  position_eq_none_iff : x.position = none ↔ y.position = none

/-- **A thread that keeps to the stack machine**: in some number of steps, from the hat on, the
machine comes to the same blocks, asks something of other threads if the thread did, and is at its
end if the thread is done. Each frame was worth a step, unless it is. -/
def Watch.KeepsTo (x : Watch) (w : World) (hat : BlockId × TargetId) (frames : Nat) : Prop :=
  ∃ n, x.blocks = Stack.trace w hat.2 n [some hat.1] ∧
    (x.requests = [] ↔ Stack.Quiet w hat.2 n [some hat.1]) ∧
    (x.position = none ↔ Stack.after w hat.2 n [some hat.1] = []) ∧
    (frames ≤ n ∨ x.position = none)

/-- A project has the same hats under all settings. -/
theorem Schedule.hats_ofProject (settings settings' : Settings) (project : Project) :
    hats (Engine.ofProject settings project) = hats (Engine.ofProject settings' project) := by
  rw [hats, hats, Engine.targets_ofProject, Engine.targets_ofProject]

namespace Watch

variable {settings : Settings} {project : Project} {position : Nat} {hat : BlockId × TargetId}

/-- What came of compiling the watched script, where that is asked for and where it is not. -/
theorem tracks_of_asking {compile : Bool} {s : Schedule}
    (hstart : start (Engine.ofProject { settings with compileScripts := compile } project) = .ok s)
    (hhat : (hats (Engine.ofProject settings project))[position]? = some hat) :
    ∃ compilation,
      (if compile then (StraightLine.compile (Engine.ofProject settings project) hat.2 hat.1).map
        Compilation.ofResult else .ok .pending) = .ok compilation ∧
      Tracks (World.asking ⟨settings, project.targets⟩ compile) (ofStart s position)
        (InlineThread.started hat compilation) := by
  rw [hats_ofProject settings { settings with compileScripts := compile }] at hhat
  obtain ⟨t, compilation, -, -, hcompilation, htracks⟩ :=
    tracks_ofStart (Engine.pool_ofProject _ _) hstart hhat
  rw [Engine.world_ofProject] at htracks
  refine ⟨compilation, ?_, htracks⟩
  rw [Engine.compilation, Engine.settings_ofProject] at hcompilation
  rw [← hcompilation]
  have htargets : (Engine.ofProject settings project).targets =
      (Engine.ofProject { settings with compileScripts := compile } project).targets := by
    rw [Engine.targets_ofProject, Engine.targets_ofProject]
  rw [StraightLine.compile_congr htargets]

/-- **A thread that is interpreted keeps to the stack machine**, under any clock. -/
theorem keepsTo_of_interpreted {w : World} {compile : Bool} {compilation : Compilation}
    {s : Schedule} {ticks : List (Clock × Nat)} {x : Watch}
    (hlot : ∀ program, compilation ≠ .compiled program)
    (h : Tracks (w.asking compile) (ofStart s position) (InlineThread.started hat compilation))
    (hrun : (ofStart s position).run ticks = .ok x) (hspared : x.spared = true) :
    x.KeepsTo w hat ticks.length := by
  obtain ⟨spells, t, hspells, hlone, h'⟩ := h.run_ofStart hrun hspared
  obtain ⟨n, hblocks, hrests, hrequests, hlong⟩ := Rests.exists_of_frames spells ⟨rfl, hlot⟩
    (Rests.started (w.asking compile) hat compilation) hlone
  rw [Stack.trace_asking] at hblocks
  rw [Stack.after_asking] at hrests hlong
  rw [Stack.quiet_asking_iff] at hrequests
  have hgone : x.position = none ↔ Stack.after w hat.2 n [some hat.1] = [] :=
    h'.position_eq_none_iff.trans hrests.status_eq_done_iff
  refine ⟨n, hblocks, hrequests, hgone, ?_⟩
  rw [hspells.length_eq, hgone]
  exact hlong

/-- A script that was not compiled takes the course that it takes where that was not asked for. The
two threads may be at different positions, as others compiled or not leave the list at different
times; what matters is that the clock shows them the same. -/
theorem sameCourse_of_failed {w : World} {s₁ s₂ : Schedule} {ticks : List (Clock × Nat)}
    {x₁ x₂ : Watch} (huniform : ∀ tick ∈ ticks, tick.1.Uniform)
    (h₁ : Tracks (w.asking true) (ofStart s₁ position) (InlineThread.started hat .failed))
    (h₂ : Tracks (w.asking false) (ofStart s₂ position) (InlineThread.started hat .pending))
    (hrun₁ : (ofStart s₁ position).run ticks = .ok x₁) (hspared₁ : x₁.spared = true)
    (hrun₂ : (ofStart s₂ position).run ticks = .ok x₂) (hspared₂ : x₂.spared = true) :
    SameCourse x₁ x₂ := by
  obtain ⟨spells₁, t₁, hspells₁, hlone₁, h₁'⟩ := h₁.run_ofStart hrun₁ hspared₁
  obtain ⟨spells₂, t₂, hspells₂, hlone₂, h₂'⟩ := h₂.run_ofStart hrun₂ hspared₂
  obtain rfl : spells₁ = spells₂ :=
    (hspells₁.eq_map huniform).trans (hspells₂.eq_map huniform).symm
  have hlot : Lot.Interpreted ⟨false, .pending⟩ := ⟨rfl, fun _ ↦ Compilation.noConfusion⟩
  -- The attempt left its mark in the thread, and in nothing that the thread does.
  have halike : Alike .failed (InlineThread.started hat .pending)
      (InlineThread.started hat .failed) := rfl
  have hlives := Alike.frames (w.asking false) true hlot (fun _ ↦ Compilation.noConfusion) spells₁
    (Rests.started (w.asking false) hat .pending) halike
  rw [hlone₂] at hlives
  obtain ⟨y, hlone₁', hblocks, hrequests, halike'⟩ := hlives.exists_right
  obtain rfl : (x₁.blocks, x₁.requests, t₁) = y := Except.ok.inj (hlone₁.symm.trans hlone₁')
  refine ⟨hblocks.symm, hrequests.symm, ?_⟩
  rw [h₁'.position_eq_none_iff, h₂'.position_eq_none_iff]
  have hstatus : t₁.status = t₂.status := halike'.status_eq
  rw [hstatus]

/-- The course that a compiled script takes. -/
theorem course_of_compiled {w : World} {s : Schedule} {program : Program}
    {ticks : List (Clock × Nat)} {x : Watch} (hchain : Chain w hat.2 hat.1 program)
    (h : Tracks w (ofStart s position) (InlineThread.started hat (.compiled program)))
    (hrun : (ofStart s position).run ticks = .ok x) (hspared : x.spared = true)
    (hne : ticks ≠ []) : x.blocks = program ∧ x.requests = [] ∧ x.position = none := by
  obtain ⟨spells, t, hspells, hlone, h'⟩ := h.run_ofStart hrun hspared
  have hne' : spells ≠ [] :=
    List.ne_nil_of_length_pos (hspells.length_eq ▸ List.length_pos_iff.2 hne)
  obtain ⟨t', hlone', hdone⟩ := InlineThread.frames_of_chain hchain hne'
  obtain ⟨hblocks, hrequests, rfl⟩ : x.blocks = program ∧ x.requests = [] ∧ t = t' := by
    have heq := Except.ok.inj (hlone.symm.trans hlone')
    exact ⟨congrArg Prod.fst heq, congrArg (fun y ↦ y.2.1) heq, congrArg (fun y ↦ y.2.2) heq⟩
  exact ⟨hblocks, hrequests, h'.position_eq_none_iff.2 hdone⟩

section OnChain

variable {w : World} {program : Program} {bound : Nat} {s₁ s₂ : Schedule}
  (hchain : Chain w hat.2 hat.1 program)
  (hbound : Straight (w.asking false) hat.2 program →
    Stack.after (w.asking false) hat.2 bound [some hat.1] = [] ∧
      Stack.trace (w.asking false) hat.2 bound [some hat.1] = program ∧
      Stack.Quiet (w.asking false) hat.2 bound [some hat.1])
  (h₂ : Tracks (w.asking false) (ofStart s₂ position) (InlineThread.started hat .pending))

include hbound h₂

include hchain in
/-- A compiled script and an interpreted one take the same course just when the script is
straight. -/
theorem sameCourse_of_compiled_iff {ticks₁ ticks₂ : List (Clock × Nat)} {x₁ x₂ : Watch}
    (h₁ : Tracks (w.asking true) (ofStart s₁ position)
      (InlineThread.started hat (.compiled program)))
    (hrun₁ : (ofStart s₁ position).run ticks₁ = .ok x₁) (hspared₁ : x₁.spared = true)
    (hne : ticks₁ ≠ []) (hrun₂ : (ofStart s₂ position).run ticks₂ = .ok x₂)
    (hspared₂ : x₂.spared = true) (hle : bound ≤ ticks₂.length) :
    SameCourse x₁ x₂ ↔ Straight w hat.2 program := by
  have hlot : Lot.Interpreted ⟨false, .pending⟩ := ⟨rfl, fun _ ↦ Compilation.noConfusion⟩
  obtain ⟨hblocks, hrequests, hgone⟩ :=
    course_of_compiled (hchain.asking true) h₁ hrun₁ hspared₁ hne
  obtain ⟨spells, t, hspells, hlone, h₂'⟩ := h₂.run_ofStart hrun₂ hspared₂
  rw [hspells.length_eq] at hle
  rw [← straight_asking_iff false, ← (hchain.asking false).frames_iff hbound hlot
    (Rests.started _ hat .pending) hlone hle, ← h₂'.position_eq_none_iff]
  constructor
  · intro hsame
    exact ⟨hsame.blocks_eq.symm.trans hblocks, hsame.requests_eq.symm.trans hrequests,
      hsame.position_eq_none_iff.1 hgone⟩
  · rintro ⟨hblocks', hrequests', hgone'⟩
    exact ⟨hblocks.trans hblocks'.symm, hrequests.trans hrequests'.symm,
      iff_of_true hgone hgone'⟩

/-- The turns of an interpreted script that is straight end. -/
theorem turnEnds_of_straight (hstraight : Straight w hat.2 program)
    {ticks : List (Clock × Nat)} {x : Watch} (hrun : (ofStart s₂ position).run ticks = .ok x)
    (hspared : x.spared = true) (clock : Clock) {turns : Nat} (hle : bound ≤ turns) :
    x.TurnEnds clock turns := by
  have hlot : Lot.Interpreted ⟨false, .pending⟩ := ⟨rfl, fun _ ↦ Compilation.noConfusion⟩
  obtain ⟨spells, t, -, hlone, h₂'⟩ := h₂.run_ofStart hrun hspared
  obtain ⟨n, -, hrests, -⟩ :=
    Rests.exists_of_frames spells hlot (Rests.started _ hat .pending) hlone
  obtain ⟨hend, -, -⟩ := hbound ((straight_asking_iff false).2 hstraight)
  refine h₂'.turnEnds_of_after_eq_nil hlot hrests ?_
  rw [← Stack.after_add]
  exact Stack.after_eq_nil_of_le hend (Nat.le_trans hle (Nat.le_add_left _ _))

end OnChain

/-- **When compiling a script makes no difference.** Let a project be started with compilation and
without, and let the thread of one hat be spared in both runs. Compiling the script has a result.

* If it failed, both threads keep to the stack machine, under any clocks. They take the same course
  over any frames in which the clock shows the same to all threads, as one does that stands still.
* If there is a program, then once the compiled thread had a frame and the other one as many as a
  bound says, they took the same course if and only if the program is straight. The turn of the
  compiled thread always ends, and that of the other one does for a straight program if it has as
  many steps as the bound says. -/
theorem sameCourse_iff_straight {id : BlockId} {target : TargetId} {s₁ s₂ : Schedule}
    (hstart₁ : start (Engine.ofProject { settings with compileScripts := true } project) = .ok s₁)
    (hstart₂ : start (Engine.ofProject { settings with compileScripts := false } project) = .ok s₂)
    (hhat : (hats (Engine.ofProject settings project))[position]? = some (id, target)) :
    ∃ result, StraightLine.compile (Engine.ofProject settings project) target id = .ok result ∧
      (∀ cause, result = .error cause →
        (∀ (ticks : List (Clock × Nat)) (x : Watch),
          (ofStart s₁ position).run ticks = .ok x ∨ (ofStart s₂ position).run ticks = .ok x →
          x.spared = true →
            x.KeepsTo ⟨settings, project.targets⟩ (id, target) ticks.length) ∧
        ∀ (ticks : List (Clock × Nat)) (x₁ x₂ : Watch), (∀ tick ∈ ticks, tick.1.Uniform) →
          (ofStart s₁ position).run ticks = .ok x₁ → x₁.spared = true →
          (ofStart s₂ position).run ticks = .ok x₂ → x₂.spared = true → SameCourse x₁ x₂) ∧
      ∀ program, result = .ok program → ∃ bound,
        (∀ (ticks₁ ticks₂ : List (Clock × Nat)) (x₁ x₂ : Watch),
          (ofStart s₁ position).run ticks₁ = .ok x₁ → x₁.spared = true → ticks₁ ≠ [] →
          (ofStart s₂ position).run ticks₂ = .ok x₂ → x₂.spared = true → bound ≤ ticks₂.length →
            (SameCourse x₁ x₂ ↔ Straight ⟨settings, project.targets⟩ target program)) ∧
        (∀ (clock : Clock) (turns : Nat), (ofStart s₁ position).TurnEnds clock turns) ∧
        (Straight ⟨settings, project.targets⟩ target program →
          ∀ (ticks : List (Clock × Nat)) (x : Watch) (clock : Clock) (turns : Nat),
            (ofStart s₂ position).run ticks = .ok x → x.spared = true → bound ≤ turns →
              x.TurnEnds clock turns) := by
  obtain ⟨c₁, hc₁, h₁⟩ := tracks_of_asking hstart₁ hhat
  obtain ⟨c₂, hc₂, h₂⟩ := tracks_of_asking hstart₂ hhat
  rw [if_neg Bool.false_ne_true] at hc₂
  obtain rfl := Except.ok.inj hc₂
  rw [if_pos rfl] at hc₁
  rcases hresult : StraightLine.compile (Engine.ofProject settings project) target id
    with cause | result
  · rw [hresult] at hc₁
    cases hc₁
  · rw [hresult] at hc₁
    obtain rfl := Except.ok.inj hc₁
    refine ⟨result, rfl, ?_, ?_⟩
    · rintro cause rfl
      constructor
      · rintro ticks x (hrun | hrun) hspared
        · exact keepsTo_of_interpreted (fun _ ↦ Compilation.noConfusion) h₁ hrun hspared
        · exact keepsTo_of_interpreted (fun _ ↦ Compilation.noConfusion) h₂ hrun hspared
      · intro ticks x₁ x₂ huniform hrun₁ hspared₁ hrun₂ hspared₂
        exact sameCourse_of_failed huniform h₁ h₂ hrun₁ hspared₁ hrun₂ hspared₂
    · rintro program rfl
      -- The chain and the condition on it are about the targets, whatever was asked for.
      have hchain : Chain ⟨settings, project.targets⟩ target id program := by
        rw [← Engine.world_ofProject]
        exact chain_of_follow _ hresult
      obtain ⟨bound, hbound⟩ := (hchain.asking false).exists_bound
      refine ⟨bound, ?_, ?_, ?_⟩
      · intro ticks₁ ticks₂ x₁ x₂ hrun₁ hspared₁ hne hrun₂ hspared₂ hle
        exact sameCourse_of_compiled_iff hchain hbound h₂ h₁ hrun₁ hspared₁ hne hrun₂ hspared₂ hle
      · intro clock turns
        refine h₁.turnEnds fun position' _ ↦ ?_
        obtain ⟨t, hturn, -⟩ := InlineThread.takeTurn_of_chain (hchain.asking true) _ _ turns
        exact ⟨_, hturn⟩
      · intro hstraight ticks x clock turns hrun hspared hle
        exact turnEnds_of_straight hbound h₂ hstraight hrun hspared clock hle

end Watch

/-! ### A script with a block that stops it -/

/-- A hat, a block that stops the script, and a last block, which may follow. -/
def stopping (next : Option BlockId) : Project where
  targets := [{
    name := "sprite"
    blocks := ⟨[
      ("hat", { opcode := "event_whenflagclicked", next := some "stop" }),
      ("stop", { opcode := "control_stop", next,
                 fields := ⟨[("STOP_OPTION", ⟨.text "this script", none⟩)], by decide⟩ }),
      ("last", { opcode := "looks_say" })], (by decide : ["hat", "stop", "last"].Nodup)⟩ }]

/-- At the end of a script the block does no harm. -/
theorem Watch.sameCourse_stopping :
    ∃ s₁ s₂, start (Engine.ofProject ⟨30, 25, 500, true⟩ (stopping none)) = .ok s₁ ∧
      start (Engine.ofProject ⟨30, 25, 500, false⟩ (stopping none)) = .ok s₂ ∧
      (hats (Engine.ofProject ⟨30, 25, 500, false⟩ (stopping none)))[0]? = some ("hat", ⟨0⟩) ∧
      ∃ bound, ∀ (ticks₁ ticks₂ : List (Clock × Nat)) (x₁ x₂ : Watch),
        (Watch.ofStart s₁ 0).run ticks₁ = .ok x₁ → x₁.spared = true → ticks₁ ≠ [] →
        (Watch.ofStart s₂ 0).run ticks₂ = .ok x₂ → x₂.spared = true → bound ≤ ticks₂.length →
          Watch.SameCourse x₁ x₂ := by
  obtain ⟨s₁, s₂, hstart₁, hstart₂⟩ : ∃ s₁ s₂,
      start (Engine.ofProject ⟨30, 25, 500, true⟩ (stopping none)) = .ok s₁ ∧
        start (Engine.ofProject ⟨30, 25, 500, false⟩ (stopping none)) = .ok s₂ :=
    ⟨_, _, rfl, rfl⟩
  have hcompile : StraightLine.compile (Engine.ofProject ⟨30, 25, 500, false⟩ (stopping none)) ⟨0⟩
      "hat" = .ok (.ok ["hat", "stop"]) := rfl
  have hstraight : Straight ⟨⟨30, 25, 500, false⟩, (stopping none).targets⟩ ⟨0⟩
      ["hat", "stop"] := by
    refine (Straight.cons_iff rfl (by decide)).2
      ⟨⟨by decide, by decide, by decide⟩, ⟨_, _, rfl, rfl⟩, by decide, ?_⟩
    exact (Straight.singleton_iff rfl).2 ⟨by decide, by decide, by decide⟩
  have hhat : (hats (Engine.ofProject ⟨30, 25, 500, false⟩ (stopping none)))[0]? =
      some ("hat", ⟨0⟩) := rfl
  obtain ⟨result, hresult, -, hcompiled⟩ := Watch.sameCourse_iff_straight hstart₁ hstart₂ hhat
  obtain rfl := Except.ok.inj (hcompile.symm.trans hresult)
  obtain ⟨bound, hbound, -, -⟩ := hcompiled _ rfl
  refine ⟨s₁, s₂, hstart₁, hstart₂, hhat, bound, ?_⟩
  intro ticks₁ ticks₂ x₁ x₂ hrun₁ hspared₁ hne hrun₂ hspared₂ hle
  exact (hbound ticks₁ ticks₂ x₁ x₂ hrun₁ hspared₁ hne hrun₂ hspared₂ hle).2 hstraight

/-- In the middle of a script it does: the compiled thread goes on to the block after it. -/
theorem Watch.not_sameCourse_stopping :
    ∃ s₁ s₂ x₁ x₂,
      start (Engine.ofProject ⟨30, 25, 500, true⟩ (stopping (some "last"))) = .ok s₁ ∧
      start (Engine.ofProject ⟨30, 25, 500, false⟩ (stopping (some "last"))) = .ok s₂ ∧
      (Watch.ofStart s₁ 0).run [(.still 0, 3)] = .ok x₁ ∧ x₁.spared = true ∧ x₁.position = none ∧
      x₁.blocks = ["hat", "stop", "last"] ∧
      (Watch.ofStart s₂ 0).run [(.still 0, 3)] = .ok x₂ ∧ x₂.spared = true ∧ x₂.position = none ∧
      x₂.blocks = ["hat", "stop"] ∧ ¬Watch.SameCourse x₁ x₂ := by
  have hcompiled : (do
      let s ← start (Engine.ofProject ⟨30, 25, 500, true⟩ (stopping (some "last")))
      let x ← (Watch.ofStart s 0).run [(.still 0, 3)]
      return (x.spared, x.position, x.blocks)) = .ok (true, none, ["hat", "stop", "last"]) := by
    decide +kernel
  have hinterpreted : (do
      let s ← start (Engine.ofProject ⟨30, 25, 500, false⟩ (stopping (some "last")))
      let x ← (Watch.ofStart s 0).run [(.still 0, 3)]
      return (x.spared, x.position, x.blocks)) = .ok (true, none, ["hat", "stop"]) := by
    decide +kernel
  obtain ⟨s₁, hstart₁, hcompiled₁⟩ := exists_of_bind_eq_ok hcompiled
  obtain ⟨x₁, hrun₁, hcompiled₂⟩ := exists_of_bind_eq_ok hcompiled₁
  obtain ⟨s₂, hstart₂, hinterpreted₁⟩ := exists_of_bind_eq_ok hinterpreted
  obtain ⟨x₂, hrun₂, hinterpreted₂⟩ := exists_of_bind_eq_ok hinterpreted₁
  obtain ⟨hspared₁, hgone₁, hblocks₁⟩ : x₁.spared = true ∧ x₁.position = none ∧
      x₁.blocks = ["hat", "stop", "last"] := by
    simpa using Except.ok.inj hcompiled₂
  obtain ⟨hspared₂, hgone₂, hblocks₂⟩ : x₂.spared = true ∧ x₂.position = none ∧
      x₂.blocks = ["hat", "stop"] := by
    simpa using Except.ok.inj hinterpreted₂
  refine ⟨s₁, s₂, x₁, x₂, hstart₁, hstart₂, hrun₁, hspared₁, hgone₁, hblocks₁, hrun₂, hspared₂,
    hgone₂, hblocks₂, fun hsame ↦ ?_⟩
  have hblocks := hsame.blocks_eq
  rw [hblocks₁, hblocks₂] at hblocks
  exact absurd hblocks (by decide)

end BlockScript
