import BlockScript.Proofs.Schedule.Watching
import BlockScript.Proofs.Thread.Enumeration
import BlockScript.Proofs.Thread.Structured
import Mathlib.Order.OrderIsoNat

/-!
# Structured scripts in a running schedule

The interpreter, driven frame after frame beside other threads, runs a structured script as the
recursive semantics says. `run_of_structured` puts three things together: a watched thread that is
spared is a lone thread (`Watch.Tracks.run`), a lone thread follows the stack machine
(`Rests.exists_of_frames`), and the stack machine agrees with the semantics
(`Structured.finishes`). None of them mentions the budgets, so that these may be anything, and time
may pass as it will from frame to frame.
-/

namespace BlockScript

open Schedule

/-- **The interpreter implements structured execution.** Let a thread be started at the hat of a
structured script and be interpreted. Then the semantics has a result for the script, and there is a
bound such that in every run in which no other thread stops it

* the blocks that the thread comes to are, at any time, the first ones of those that the semantics
  gives, and all of them once it is done;
* it is done after as many frames as the bound says;
* whenever its turn comes, the turn ends if it has as many steps as the bound says. -/
theorem Watch.run_of_structured {settings : Settings} {project : Project} {s₀ : Schedule}
    {position : Nat} {id : BlockId} {target : TargetId} {t₀ : Thread}
    (hstart : start (Engine.ofProject settings project) = .ok s₀)
    (hhat : (hats (Engine.ofProject settings project))[position]? = some (id, target))
    (ht₀ : s₀.threads[position]? = some t₀) (hinterpreted : t₀.program? = none)
    (hscript : Structured ⟨settings, project.targets⟩ target id) :
    (∃ blocks outcome, Runs ⟨settings, project.targets⟩ target (some id) blocks outcome) ∧
    ∀ blocks outcome, Runs ⟨settings, project.targets⟩ target (some id) blocks outcome →
      ∃ bound, ∀ (ticks : List (Clock × Nat)) (x : Watch),
        (Watch.ofStart s₀ position).run ticks = .ok x → x.spared = true →
          framesAt ticks s₀ = .ok x.schedule ∧ x.blocks <+: blocks ∧
          (x.position = none → x.blocks = blocks) ∧ (bound ≤ ticks.length → x.position = none) ∧
          ∀ (p : Nat) (clock : Clock) (turns : Nat) (before : Schedule) (t : Thread),
            x.position = some p → x.schedule.upTo clock turns p = .ok before →
            before.threads[p]? = some t → t.killed = false → bound ≤ turns →
              ∃ result, x.schedule.turnIn clock turns p ⟨before.engine, t⟩ = .ok result := by
  refine ⟨hscript.exists_runs, fun blocks outcome hruns ↦ ?_⟩
  obtain ⟨bound, hend, htrace⟩ := hscript.finishes hruns
  refine ⟨bound, fun ticks x hrun hspared ↦ ?_⟩
  obtain ⟨t₁, compilation, ht₁, hcompilation, -, htracks⟩ :=
    tracks_ofStart (Engine.pool_ofProject settings project) hstart hhat
  rw [Engine.world_ofProject] at htracks
  have hlot : Lot.Interpreted ⟨false, compilation⟩ := by
    refine ⟨rfl, fun program hprogram ↦ ?_⟩
    obtain rfl : t₀ = t₁ := Option.some.inj (ht₀.symm.trans ht₁)
    rw [Thread.program?, hcompilation.trans hprogram] at hinterpreted
    cases hinterpreted
  -- What the watch has written down is what the stack machine does in some number `n` of steps.
  obtain ⟨-, hframes, spells, blocks', requests, t, hspells, hlone, hblocks, -, htracks'⟩ :=
    htracks.run ticks hrun hspared
  obtain ⟨n, rfl, hrests, -, hlong⟩ :=
    Rests.exists_of_frames spells hlot (Rests.started _ (id, target) compilation) hlone
  have hblocks' : x.blocks = Stack.trace ⟨settings, project.targets⟩ target n [some id] := hblocks
  refine ⟨hframes, ?_, fun hgone ↦ ?_, fun hle ↦ ?_, ?_⟩
  · rw [hblocks', ← htrace]
    exact Stack.isPrefix_trace hend n
  · have hdone := hrests.status_eq_done_iff.1 (htracks'.status_eq_done hgone)
    rw [hblocks', ← htrace]
    exact Stack.trace_eq_of_after_eq_nil hend hdone
  · refine htracks'.position_eq_none_iff.2 (hrests.status_eq_done_iff.2 ?_)
    rcases hlong with hn | hnil
    · exact Stack.after_eq_nil_of_le hend (Nat.le_trans (hspells.length_eq ▸ hle) hn)
    · exact hnil
  · intro p clock turns before t' hp hup ht' hkilled hturns
    have hend' : Stack.after ⟨settings, project.targets⟩ target turns
        (Stack.after ⟨settings, project.targets⟩ target n [some id]) = [] := by
      rw [← Stack.after_add]
      exact Stack.after_eq_nil_of_le hend (Nat.le_trans hturns (Nat.le_add_left _ _))
    exact htracks'.turnEnds_of_after_eq_nil hlot hrests hend' p before t' hp hup ht' hkilled

/-! ### A script with a call that catches an abort -/

/-- In a world with one target, blocks are found there or nowhere. -/
theorem World.resolve?_single {settings : Settings} {only : Target} (id : BlockId) :
    World.resolve? ⟨settings, [only]⟩ ⟨0⟩ id = only.blocks.get? id := by
  show (only.blocks.get? id).or (List.findSome? (fun target ↦ target.blocks.get? id) [only]) = _
  rw [List.findSome?_cons, List.findSome?_nil]
  cases only.blocks.get? id <;> rfl

/-- What is found there is what stands among the target's blocks. -/
theorem World.resolve?_single_eq_some_iff {settings : Settings} {only : Target} {id : BlockId}
    {b : Block} : World.resolve? ⟨settings, [only]⟩ ⟨0⟩ id = some b ↔
      (id, b) ∈ only.blocks.toList := by
  rw [resolve?_single, Table.get?_eq_some_iff]

/-- Every block ranks above the next one, above the first one that it encloses, and above the first
one of the procedure of its code. -/
def Target.RankedBy (only : Target) (rank : BlockId → Nat) : Prop :=
  ∀ entry ∈ only.blocks.toList,
    ∀ id' ∈ entry.2.next.toList ++ entry.2.substack?.toList ++
      (entry.2.proccode.bind only.blocks.procedureBody?).toList, rank id' < rank entry.1

instance (only : Target) (rank : BlockId → Nat) : Decidable (only.RankedBy rank) :=
  inferInstanceAs (Decidable (∀ entry ∈ only.blocks.toList, _))

/-- Where there is one target, without endless loops, and every block ranks above those it leads to,
every script is structured. -/
theorem Structured.of_rank {settings : Settings} {only : Target} (rank : BlockId → Nat)
    (hforever : ∀ entry ∈ only.blocks.toList, entry.2.opcode ≠ Block.foreverOpcode)
    (hrank : only.RankedBy rank) (id : BlockId) : Structured ⟨settings, [only]⟩ ⟨0⟩ id := by
  have hmem : ∀ {id : BlockId} {b : Block}, World.resolve? ⟨settings, [only]⟩ ⟨0⟩ id = some b →
      (id, b) ∈ only.blocks.toList := World.resolve?_single_eq_some_iff.1
  have hleads : ∀ {id id' : BlockId}, World.Leads ⟨settings, [only]⟩ ⟨0⟩ id id' →
      rank id' < rank id := by
    intro id id' h
    cases h with
    | next hb h => exact hrank _ (hmem hb) id' (by simp [h])
    | substack hb h => exact hrank _ (hmem hb) id' (by simp [h])
    | body hb _ h => exact hrank _ (hmem hb) id' (List.mem_append_right _ (Option.mem_toList.2 h))
  refine ⟨fun id' _ ↦ ?_, fun id' b _ hb ↦ hforever _ (hmem hb), ?_⟩
  · rcases hget : only.blocks.get? id' with - | b
    · refine .inr fun other hother ↦ ?_
      rw [List.mem_singleton.1 hother, hget]
    · exact .inl ⟨only.blocks, b, rfl, hget⟩
  · rintro ⟨chain, -, hchain⟩
    -- Along a chain the rank falls at every block, which it cannot do for ever.
    exact not_strictAnti_of_wellFoundedLT (rank ∘ chain)
      (strictAnti_nat_of_succ_lt fun n ↦ hleads (hchain n))

/-- A hat, a call and a last block; the procedure repeats a stop block, and has a block after that
which is never come to. -/
def caughtAbort : Project where
  targets := [{
    name := "sprite"
    blocks := ⟨[
      ("hat", { opcode := "event_whenflagclicked", next := some "call" }),
      ("call", { opcode := "procedures_call", next := some "last",
                 mutation := some { proccode := some "p" } }),
      ("last", { opcode := "looks_say" }),
      ("definition", { opcode := "procedures_definition", next := some "repeat",
                       inputs := ⟨[("custom_block", .block "prototype")], by decide⟩ }),
      ("prototype", { opcode := "procedures_prototype",
                      mutation := some { proccode := some "p" } }),
      ("repeat", { opcode := "control_repeat", next := some "never",
                   inputs := ⟨[("SUBSTACK", .block "stop")], by decide⟩ }),
      ("stop", { opcode := "control_stop" }),
      ("never", { opcode := "looks_say" })], by decide⟩ }]

/-- The stop block aborts the procedure and nothing more, whatever the budgets and the times. -/
theorem Watch.run_of_caughtAbort :
    ∃ s₀ t₀, start (Engine.ofProject ⟨30, 0, 0, false⟩ caughtAbort) = .ok s₀ ∧
      (hats (Engine.ofProject ⟨30, 0, 0, false⟩ caughtAbort))[0]? = some ("hat", ⟨0⟩) ∧
      s₀.threads[0]? = some t₀ ∧ t₀.program? = none ∧
      Structured ⟨⟨30, 0, 0, false⟩, caughtAbort.targets⟩ ⟨0⟩ "hat" ∧
      ∃ bound, ∀ (ticks : List (Clock × Nat)) (x : Watch),
        (Watch.ofStart s₀ 0).run ticks = .ok x → x.spared = true → bound ≤ ticks.length →
          x.position = none ∧ x.blocks = ["hat", "call", "repeat", "stop", "last"] := by
  obtain ⟨s₀, t₀, hstart, ht₀, hinterpreted⟩ : ∃ s₀ t₀,
      start (Engine.ofProject ⟨30, 0, 0, false⟩ caughtAbort) = .ok s₀ ∧
        s₀.threads[0]? = some t₀ ∧ t₀.program? = none :=
    ⟨_, _, rfl, rfl, rfl⟩
  have hscript : Structured ⟨⟨30, 0, 0, false⟩, caughtAbort.targets⟩ ⟨0⟩ "hat" :=
    Structured.of_rank
      (fun id ↦ ["never", "stop", "repeat", "last", "call", "hat", "definition"].idxOf id)
      (by decide) (by decide) "hat"
  have hruns : Runs ⟨⟨30, 0, 0, false⟩, caughtAbort.targets⟩ ⟨0⟩ (some "hat")
      ["hat", "call", "repeat", "stop", "last"] .completed := by
    have hlast : Runs ⟨⟨30, 0, 0, false⟩, caughtAbort.targets⟩ ⟨0⟩ (some "last") ["last"]
        .completed :=
      .plain rfl ⟨by decide, by decide, by decide⟩ rfl .nil
    have hbody : Runs ⟨⟨30, 0, 0, false⟩, caughtAbort.targets⟩ ⟨0⟩ (some "repeat")
        ["repeat", "stop"] .aborted :=
      .encloseBroken rfl ⟨by decide, by decide, by decide⟩ rfl
        (.stopThis rfl rfl (by decide) (by rintro (h | h) <;> cases h)) Outcome.noConfusion
    exact .plain rfl ⟨by decide, by decide, by decide⟩ rfl
      (.call rfl rfl rfl hbody Outcome.noConfusion hlast)
  obtain ⟨bound, hbound⟩ :=
    (Watch.run_of_structured hstart rfl ht₀ hinterpreted hscript).2 _ _ hruns
  refine ⟨s₀, t₀, hstart, rfl, ht₀, hinterpreted, hscript, bound, fun ticks x hrun hspared hle ↦ ?_⟩
  obtain ⟨-, -, hall, hdone, -⟩ := hbound ticks x hrun hspared
  exact ⟨hdone hle, hall (hdone hle)⟩

end BlockScript
