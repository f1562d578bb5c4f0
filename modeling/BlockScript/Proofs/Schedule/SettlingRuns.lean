import BlockScript.Proofs.Schedule.ModeRuns
import BlockScript.Proofs.Schedule.StructuredRuns
import BlockScript.Proofs.Thread.Settling

/-!
# Turns come to an end

A thread's turn in a frame ends by itself, without a budget for the frame, if the structure of its
script is finite: no chain of blocks goes on for ever. Endless loops may be there, since a thread
yields when it comes round to one. The exception is a loop inside a call in warp mode, which goes
round until the budget for warp mode is used up; so either there is no such budget, or no call in
warp mode can be come to.

`Activity.RestsWithin` says that a thread rests after so many turns at most, **whatever the clock
shows at each of them**, so that a slice comes to an end under every clock
(`Activity.RestsWithin.slice`). The number comes from the stack machine (`Stack.Settles`), and the
thread follows the machine (`Stack.Settles.exists_restsWithin`).
-/

namespace BlockScript

/-! ### Coming to rest -/

namespace Activity

/-- The thread has yielded, or it is done. -/
def AtRest (a : Activity) : Prop :=
  a.thread.status = .yield ∨ a.thread.status = .done

/-- **The thread rests within so many turns**, whatever the clock shows at each of them. -/
def RestsWithin : Nat → Activity → Prop
  | 0, a => a.AtRest
  | turns + 1, a => a.AtRest ∨ a.thread.status = .running ∧
      ∀ (shown : Reading) (deadline : Time), ∃ request a',
        a.turn shown deadline = .ok (request, a') ∧ RestsWithin turns a'

variable {a : Activity}

theorem AtRest.restsWithin (h : a.AtRest) (turns : Nat) : a.RestsWithin turns := by
  cases turns with
  | zero => exact h
  | succ turns => exact .inl h

/-- A slice of a thread at rest makes no turn. -/
theorem AtRest.slice_eq (h : a.AtRest) (deadline : Time) (shown : Readings) (turns : Nat)
    (request : Option StopRequest) : slice deadline shown turns request a = .ok (request, a) := by
  have hrunning : a.thread.status ≠ .running := by
    rcases h with h | h <;> rw [h] <;> exact Status.noConfusion
  cases turns <;> rw [slice, if_neg hrunning]

/-- **A slice ends with the thread at rest**, if it may have the turns that this takes. -/
theorem RestsWithin.slice {bound : Nat} : ∀ {a : Activity} {turns : Nat}, a.RestsWithin bound →
    bound ≤ turns → ∀ (deadline : Time) (shown : Readings) (request : Option StopRequest),
      ∃ last a', Activity.slice deadline shown turns request a = .ok (last, a') ∧ a'.AtRest := by
  induction bound with
  | zero => exact fun h _ deadline shown request ↦ ⟨_, _, h.slice_eq deadline shown _ request, h⟩
  | succ bound ih =>
    intro a turns h hle deadline shown request
    rcases h with h | ⟨hrunning, hturn⟩
    · exact ⟨_, _, h.slice_eq deadline shown turns request, h⟩
    · obtain ⟨turns, rfl⟩ := Nat.exists_eq_add_of_le' (Nat.le_trans (Nat.succ_pos bound) hle)
      obtain ⟨latest, a₁, hok, h₁⟩ := hturn (shown 0) deadline
      obtain ⟨last, a', hslice, h'⟩ :=
        ih h₁ (Nat.le_of_succ_le_succ hle) deadline shown.later (latest.or request)
      refine ⟨last, a', ?_, h'⟩
      rw [Activity.slice, if_pos hrunning]
      dsimp only
      rw [hok]
      exact hslice

/-- **A whole turn ends within so many steps**, whatever the clock shows at each of them: a thread
that is to be unwound is done at once, and any other that is interpreted comes to rest. -/
def TurnRestsWithin (turns : Nat) (a : Activity) : Prop :=
  ∃ interpreted a', a.begin = .ok (interpreted, a') ∧
    if interpreted then a'.RestsWithin turns else a'.thread.status = .done

theorem TurnRestsWithin.takeTurn {bound turns : Nat} (h : a.TurnRestsWithin bound)
    (hle : bound ≤ turns) (deadline : Time) (shown : Readings) : ∃ request a',
      a.takeTurn deadline shown turns = .ok (request, a') ∧ a'.AtRest := by
  obtain ⟨interpreted, a₁, hbegin, hrests⟩ := h
  rw [Activity.takeTurn, hbegin]
  cases interpreted with
  | false => exact ⟨none, a₁, rfl, .inr hrests⟩
  | true => exact RestsWithin.slice hrests hle deadline shown none

end Activity

/-! ### Following the machine to where it settles -/

section Follow

variable {w : World} {hat : BlockId × TargetId} {stack : Stack} {lot : Lot} {a : Activity}
  {others : List FrameId} {t t' : InlineThread} {shown : Reading} {deadline : Time}
  {request : Option StopRequest}

/-- One turn of a thread that follows the machine: it is at rest already, or makes a step. -/
theorem Rests.restsWithin_succ {bound : Nat} (h : Rests w hat.2 lot stack t)
    (hmirrors : Mirrors a.engine others a t) (hworld : a.engine.world = w)
    (hnext : ∀ {shown : Reading} {deadline : Time} {request : Option StopRequest}
      {t' : InlineThread} {a' : Activity}, Stands w hat.2 lot stack t →
        t.turn w shown deadline = .ok (request, t') →
        Rests w hat.2 lot (Stack.step w hat.2 stack) t' → Mirrors a'.engine others a' t' →
        a'.engine.world = w → a'.RestsWithin bound) : a.RestsWithin (bound + 1) := by
  by_cases hnil : stack = []
  · refine Activity.AtRest.restsWithin (.inr ?_) _
    rw [← hmirrors.status_eq]
    exact h.status_eq_done_iff.2 hnil
  · have hstands := h.stands hnil
    rcases hstands.live with hrunning | hyield
    · refine .inr ⟨hmirrors.status_eq ▸ hrunning, fun shown deadline ↦ ?_⟩
      obtain ⟨t', hturn, hrests⟩ := hstands.turn hnil shown deadline
      have hagree := hmirrors.turn shown deadline
      rw [hworld, hturn] at hagree
      obtain ⟨⟨request, a'⟩, hok, -, hreports⟩ := hagree.exists_left
      exact ⟨request, a', hok,
        hnext hstands hturn hrests hreports.mirrors (hreports.world.trans hworld)⟩
    · exact Activity.AtRest.restsWithin (.inl (hmirrors.status_eq ▸ hyield)) _

/-- Threads of the script have to yield whenever they come round to a loop: they are never in warp
mode, or there is no budget for it. -/
def World.AlwaysDue (w : World) (hat : BlockId × TargetId) : Prop :=
  ∀ t : InlineThread, OnTrack w hat t ∧ t.InMode w hat →
    t.inWarpMode = false ∨ w.settings.warpTime = 0

/-- The turn in which a thread comes round to a loop is its last one. -/
theorem Stands.status_turn_of_comesRound (h : Stands w hat.2 lot stack t)
    (hround : Stack.ComesRound w hat.2 stack) (hkept : OnTrack w hat t ∧ t.InMode w hat)
    (hdue : w.AlwaysDue hat) (hturn : t.turn w shown deadline = .ok (request, t')) :
    t'.status = .yield := by
  obtain ⟨⟨request', t₁⟩, hstep, hresult⟩ := exists_of_bind_eq_ok hturn
  have hyield : t₁.status = .yield :=
    h.status_of_comesRound hround hstep (hdue t₁ (lasting_inMode.stepBlock hkept hstep))
  have hrunning : t₁.status ≠ .running := by
    rw [hyield]
    exact Status.noConfusion
  obtain ⟨-, rfl⟩ := Prod.mk.inj (Except.ok.inj hresult)
  rw [InlineThread.yieldIfLate, if_neg hrunning]
  exact hyield

/-- **Where the machine settles the thread rests**, after a number of turns that depends on the
stack alone. By induction on the way to where the machine settles: there the thread is done or comes
round to a loop, and every turn before is a step on the way. -/
theorem Stack.Settles.exists_restsWithin (h : Stack.Settles w hat.2 stack)
    (hdue : w.AlwaysDue hat) :
    ∃ bound, ∀ {a : Activity} {others : List FrameId} {t : InlineThread} {lot : Lot},
      a.engine.world = w → Mirrors a.engine others a t → Rests w hat.2 lot stack t →
        OnTrack w hat t ∧ t.InMode w hat → a.RestsWithin bound := by
  induction h with
  | nil =>
    refine ⟨0, fun _ hmirrors hrests _ ↦ .inr ?_⟩
    rw [← hmirrors.status_eq]
    exact hrests.status_eq_done_iff.2 rfl
  | round hround =>
    refine ⟨1, fun hworld hmirrors hrests hkept ↦ hrests.restsWithin_succ hmirrors hworld ?_⟩
    intro shown deadline request t' a' hstands hturn _ hmirrors' _
    refine .inl ?_
    rw [← hmirrors'.status_eq]
    exact hstands.status_turn_of_comesRound hround hkept hdue hturn
  | step _ ih =>
    obtain ⟨bound, hbound⟩ := ih
    refine ⟨bound + 1, fun hworld hmirrors hrests hkept ↦
      hrests.restsWithin_succ hmirrors hworld ?_⟩
    intro shown deadline request t' a' _ hturn hrests' hmirrors' hworld'
    exact hbound hworld' hmirrors' hrests' (lasting_inMode.turn hkept hturn)

/-- **A turn of a thread comes to an end** where no chain of blocks from its hat goes on for ever,
and the thread is out of warp mode or without a budget for it. -/
theorem Mirrors.exists_turnRestsWithin (h : Mirrors a.engine others a t)
    (hkept : OnTrack a.engine.world hat t ∧ t.InMode a.engine.world hat)
    (hinterpreted : a.thread.program? = none)
    (hfinite : a.engine.world.FiniteFrom hat.2 hat.1) (hdue : a.engine.world.AlwaysDue hat) :
    ∃ bound, a.TurnRestsWithin bound := by
  rcases hkilled : a.thread.killed with - | -
  · -- The thread is woken, and its stack is a path as before.
    have hkept' := lasting_inMode.wake hkept
    obtain ⟨lot, stack, hrests, hpath⟩ := hkept'.1.path
    obtain ⟨bound, hbound⟩ := (hpath.settles hfinite).exists_restsWithin hdue
    have hprogram : a.wake.thread.program? = none := by
      rw [← hinterpreted, Activity.wake]
      split <;> rfl
    have hwake := h.wake
    refine ⟨bound, true, a.wake, ?_, ?_⟩
    · rw [Activity.begin, hkilled]
      dsimp only [Bool.false_eq_true, if_false]
      rw [hprogram]
      rfl
    · exact hbound hwake.world hwake.reports.mirrors hrests hkept'
  · obtain ⟨lot, stack, hrests, -⟩ := hkept.1.path
    obtain ⟨t', hkill, hrests'⟩ := hrests.kill
    have hagree := h.kill
    rw [hkill] at hagree
    obtain ⟨a', hok, hmirrors'⟩ := hagree.exists_left
    refine ⟨0, false, a', ?_, ?_⟩
    · rw [Activity.begin, hkilled, if_pos rfl, hok]
      rfl
    · show a'.thread.status = .done
      rw [← hmirrors'.status_eq]
      exact hrests'.status_eq_done_iff.2 rfl

end Follow

namespace Schedule

/-- **A turn comes to an end whenever the structure of the script is finite.** Let a thread of a
schedule that a driver reaches be interpreted, and let no chain of blocks from its hat go on for
ever; endless loops may be among them. If there is no budget for warp mode, or no call in warp mode
can be come to from the hat, then there is a bound such that

* the thread comes to rest within as many steps, whatever the clock shows at each of them, or is
  done at once if it was to be unwound;
* its turn ends if it may have as many steps, whatever the clock shows and the budget of the frame
  is, and the thread has yielded then or is done. -/
theorem turnRests_of_reached {settings : Settings} {project : Project}
    {scripts : List (BlockId × TargetId)} {s : Schedule} {t : Thread}
    (h : Reached (Engine.ofProject settings project) scripts s) (hmem : t ∈ s.threads)
    (hinterpreted : t.program? = none)
    (hfinite : World.FiniteFrom ⟨settings, project.targets⟩ t.target t.topBlock)
    (hwarp : s.engine.settings.warpTime = 0 ∨
      World.WarpFreeFrom ⟨settings, project.targets⟩ t.target t.topBlock) :
    ∃ bound, Activity.TurnRestsWithin bound ⟨s.engine, t⟩ ∧
      ∀ deadline shown turns, bound ≤ turns → ∃ request a,
        Activity.takeTurn ⟨s.engine, t⟩ deadline shown turns = .ok (request, a) ∧ a.AtRest := by
  obtain ⟨settings', hs⟩ := h.upholds lasting_inMode (Engine.pool_ofProject settings project)
  obtain ⟨position, ht⟩ := List.mem_iff_getElem?.1 hmem
  obtain ⟨hat, -, hkept⟩ := hs.exists_script ht
  have hmirrors := (hs.driven lasting_inMode).mirrored.activity ht
  have hworld := hs.world
  rw [← hworld] at hkept
  rw [Engine.world_ofProject] at hworld
  have htop : t.topBlock = hat.1 := hkept.1.home.topBlock_eq
  have htarget : t.target = hat.2 := hkept.1.home.target_eq
  rw [htop, htarget] at hfinite hwarp
  have hfinite' : s.engine.world.FiniteFrom hat.2 hat.1 := hworld ▸ hfinite.under settings'
  have hdue : s.engine.world.AlwaysDue hat := by
    rintro t ⟨htrack, hmode⟩
    rcases hwarp with hbudget | hfree
    · exact .inr hbudget
    · exact .inl (hmode.inWarpMode_eq_false htrack.isPath (hworld ▸ hfree.under settings'))
  obtain ⟨bound, hbound⟩ := Mirrors.exists_turnRestsWithin (a := ⟨s.engine, t⟩) hmirrors hkept
    hinterpreted hfinite' hdue
  exact ⟨bound, hbound, fun deadline shown turns hle ↦ hbound.takeTurn hle deadline shown⟩

end Schedule

/-! ### An endless loop within an endless loop -/

namespace Target.RankedBy

variable {settings : Settings} {only : Target} {rank : BlockId → Nat} {id id' : BlockId}

/-- Where there is one target, every block ranks above those that it precedes. -/
theorem lt_of_precedes (hrank : only.RankedBy rank)
    (h : World.Precedes ⟨settings, [only]⟩ ⟨0⟩ id id') : rank id' < rank id := by
  cases h with
  | next hnext =>
    obtain ⟨b, hb, hnext⟩ : ∃ b, only.blocks.get? id = some b ∧ b.next = some id' :=
      Option.bind_eq_some_iff.1 hnext
    exact hrank _ (Table.get?_eq_some_iff.1 hb) id' (by simp [hnext])
  | substack hbody =>
    obtain ⟨b, hb, hbody⟩ := Option.bind_eq_some_iff.1 hbody
    exact hrank _ (World.resolve?_single_eq_some_iff.1 hb) id' (by simp [hbody])
  | body hb _ hbody =>
    exact hrank _ (World.resolve?_single_eq_some_iff.1 hb) id'
      (List.mem_append_right _ (Option.mem_toList.2 hbody))

theorem le_of_reaches (hrank : only.RankedBy rank)
    (h : Relation.ReflTransGen (World.Precedes ⟨settings, [only]⟩ ⟨0⟩) id id') :
    rank id' ≤ rank id := by
  induction h with
  | refl => exact Nat.le_refl _
  | tail _ hprecedes ih =>
    exact Nat.le_trans (Nat.le_of_lt (hrank.lt_of_precedes hprecedes)) ih

/-- The rank falls along a chain of blocks, which it cannot do for ever. -/
theorem finiteFrom (hrank : only.RankedBy rank) (id : BlockId) :
    World.FiniteFrom ⟨settings, [only]⟩ ⟨0⟩ id := by
  rintro ⟨chain, -, hchain⟩
  exact not_strictAnti_of_wellFoundedLT (rank ∘ chain)
    (strictAnti_nat_of_succ_lt fun n ↦ hrank.lt_of_precedes (hchain n))

/-- Chains from a block come to no call in warp mode if all those calls rank above it. -/
theorem warpFreeFrom (hrank : only.RankedBy rank)
    (hwarp : ∀ entry ∈ only.blocks.toList, rank entry.1 ≤ rank id → entry.2.isWarp = false) :
    World.WarpFreeFrom ⟨settings, [only]⟩ ⟨0⟩ id :=
  fun _ _ hreaches hb _ ↦
    hwarp _ (World.resolve?_single_eq_some_iff.1 hb) (hrank.le_of_reaches hreaches)

end Target.RankedBy

namespace Schedule

/-- A hat and an endless loop around an endless loop around a call; the procedure has one block. A
call in warp mode stands beside the script and belongs to no script. -/
def nestedLoops : Target where
  name := "sprite"
  blocks := ⟨[
    ("hat", { opcode := "event_whenflagclicked", next := some "outer" }),
    ("outer", { opcode := "control_forever",
                inputs := ⟨[("SUBSTACK", .block "inner")], List.nodup_singleton "SUBSTACK"⟩ }),
    ("inner", { opcode := "control_forever",
                inputs := ⟨[("SUBSTACK", .block "call")], List.nodup_singleton "SUBSTACK"⟩ }),
    ("call", { opcode := "procedures_call", mutation := some { proccode := some "p" } }),
    ("definition", { opcode := "procedures_definition", next := some "one",
                     inputs := ⟨[("custom_block", .block "prototype")],
                       List.nodup_singleton "custom_block"⟩ }),
    ("prototype", { opcode := "procedures_prototype",
                    mutation := some { proccode := some "p" } }),
    ("one", { opcode := "looks_say" }),
    ("aside", { opcode := "procedures_call",
                mutation := some { proccode := some "p", warp := some (.boolean true) } })],
    by decide⟩

/-- With one step a frame the thread is inside the procedure after four frames. There is a budget
for warp mode, and no call in warp mode can be come to, and so the next turn ends. -/
theorem turnRests_nestedLoops :
    ∃ scripts s t bound, Reached (Engine.ofProject ⟨30, 0, 9, false⟩ ⟨[nestedLoops]⟩) scripts s ∧
      t ∈ s.threads ∧ s.engine.settings.warpTime = 9 ∧
      t.levels.map Level.block = [some "one", some "call", some "inner", some "outer"] ∧
      Activity.TurnRestsWithin bound ⟨s.engine, t⟩ ∧
      ∀ deadline shown turns, bound ≤ turns → ∃ request a,
        Activity.takeTurn ⟨s.engine, t⟩ deadline shown turns = .ok (request, a) ∧ a.AtRest := by
  have hrun : (start (Engine.ofProject ⟨30, 0, 9, false⟩ ⟨[nestedLoops]⟩) >>=
      drive ((List.range 4).map fun now ↦ ⟨.still now, 9, 0, 9, []⟩)).map (fun s ↦
        s.threads.map fun t ↦ (t.levels.map Level.block,
          decide (s.engine.settings.warpTime = 9 ∧ t.program?.isNone ∧ t.target = ⟨0⟩ ∧
            t.topBlock = "hat"))) =
        .ok [([some "one", some "call", some "inner", some "outer"], true)] := by
    decide +kernel
  obtain ⟨s, hdriven, hthreads⟩ := exists_of_map_eq_ok hrun
  obtain ⟨t, hs, hfacts⟩ := List.map_eq_singleton_iff.1 hthreads
  obtain ⟨hlevels, hfacts⟩ := Prod.mk.inj hfacts
  obtain ⟨hbudget, hprogram, htarget, htop⟩ := of_decide_eq_true hfacts
  obtain ⟨s₀, hstart, hdrive⟩ := exists_of_bind_eq_ok hdriven
  obtain ⟨scripts, hreached⟩ := (Reached.start hstart).drive _ hdrive
  have hmem : t ∈ s.threads := hs ▸ List.mem_singleton_self t
  -- The call that stands aside ranks above the hat, and everything in the script ranks below it.
  have hrank : nestedLoops.RankedBy fun id ↦ ["one", "call", "inner", "outer", "hat"].idxOf id := by
    decide
  have hfinite : World.FiniteFrom ⟨⟨30, 0, 9, false⟩, [nestedLoops]⟩ t.target t.topBlock := by
    rw [htarget]
    exact hrank.finiteFrom t.topBlock
  have hfree : World.WarpFreeFrom ⟨⟨30, 0, 9, false⟩, [nestedLoops]⟩ t.target t.topBlock := by
    rw [htarget, htop]
    exact hrank.warpFreeFrom (by decide)
  obtain ⟨bound, hrests⟩ := turnRests_of_reached hreached hmem
    (Option.isNone_iff_eq_none.1 hprogram) hfinite (.inr hfree)
  exact ⟨scripts, s, t, bound, hreached, hmem, hbudget, hlevels, hrests⟩

end Schedule

end BlockScript
