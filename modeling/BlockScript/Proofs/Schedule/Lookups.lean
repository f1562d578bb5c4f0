import BlockScript.Proofs.Schedule.PathRuns
import BlockScript.Proofs.Thread.Chains

/-!
# Where blocks are looked up

A block is executed as it is found in the target of its thread or else in any target. When the
thread moves on from the block, or comes to it as it unwinds, it is looked up in the target of the
thread alone. For a block that the target holds the two look-ups give the same block. For one that
only another target holds the second finds nothing: the sequence ends at the block whatever comes
next, and a call is not recognised as one, so that a stop goes right through it.

`Schedule.lookups_agree_iff` says that this is the only difference, for every thread of every
schedule that a driver reaches.
-/

namespace BlockScript

/-- The block after one that was found is the one after it in the target, if the target holds it. -/
theorem World.next?_eq_next_iff {w : World} {target : TargetId} {id : BlockId} {b : Block}
    (hb : w.resolve? target id = some b) :
    w.next? target id = b.next ↔ w.Holds target id ∨ b.next = none := by
  by_cases hholds : w.Holds target id
  · exact iff_of_true (World.next?_of_holds hholds hb) (.inl hholds)
  · rw [World.next?_of_not_holds hholds, or_iff_right hholds]
    exact eq_comm

namespace Stack

variable {w : World} {target : TargetId}

theorem length_unwind_le (w : World) (target : TargetId) (stack : Stack) :
    (unwind w target stack).length ≤ stack.length := by
  induction stack with
  | nil => exact Nat.le_refl _
  | cons block rest ih =>
    rw [unwind]
    split
    · rw [List.length_cons, List.length_cons]
    · exact ih.trans (Nat.le_succ _)

/-- Levels that are no calls are dropped. -/
theorem unwind_append {above : Stack} (h : ∀ block ∈ above, w.isCall target block = false)
    (below : Stack) : unwind w target (above ++ below) = unwind w target below := by
  induction above with
  | nil => rfl
  | cons block above ih =>
    rw [List.forall_mem_cons] at h
    rw [List.cons_append, unwind, h.1, ih h.2]
    rfl

end Stack

namespace Rests

variable {w : World} {target : TargetId} {lot : Lot} {stack : Stack} {t : InlineThread}
  {id : BlockId} {b : Block}

theorem depth_eq (h : Rests w target lot stack t) : t.depth = stack.length := by
  rw [InlineThread.depth, ← h.blocks_eq, List.length_map]

/-- A plain block that encloses nothing is moved on from in the target alone. -/
theorem exists_of_plain (h : Rests w target lot stack t) (hpeek : t.peek? = some id)
    (hb : w.resolve? target id = some b) (hplain : b.command = .plain) (hnone : b.substack? = none)
    (now : Moment) : ∃ request t', t.stepBlock w now = .ok (request, t') ∧ t'.depth = t.depth ∧
      t'.peek? = w.next? target id := by
  obtain ⟨level, rest, hlevels⟩ : ∃ level rest, t.levels = level :: rest := by
    refine List.exists_cons_of_ne_nil fun hnil ↦ ?_
    rw [InlineThread.peek?, hnil] at hpeek
    cases hpeek
  have hid : level.block = some id := by
    rw [InlineThread.peek?, hlevels] at hpeek
    exact hpeek
  have hstack : stack = some id :: rest.map InlineLevel.block := by
    rw [← h.blocks_eq, hlevels, List.map_cons, hid]
  have hstep : Stack.step w target stack = w.next? target id :: rest.map InlineLevel.block := by
    rw [hstack, Stack.step, hb]
    dsimp only
    rw [Stack.perform, hplain, hnone]
    rfl
  obtain ⟨t', ht', h'⟩ := h.stepBlock now
  rw [hstep] at h'
  refine ⟨_, t', ht', ?_, h'.peek?_eq (List.cons_ne_nil _ _)⟩
  rw [h'.depth_eq, h.depth_eq, hstack, List.length_cons, List.length_cons]

/-- A stop that comes to a call steps over it just when the target holds the call. -/
theorem exists_of_unwound_to (h : Rests w target lot stack t) {above below : List InlineLevel}
    {level : InlineLevel} (hlevels : t.levels = above ++ level :: below)
    (habove : ∀ upper ∈ above, w.isCall target upper.block = false) (hid : level.block = some id)
    (hb : w.resolve? target id = some b) (hcall : b.opcode = Block.callOpcode) :
    ∃ t', t.stopScript w = .ok t' ∧
      ((t'.depth = below.length + 1 ∧ t'.peek? = b.next) ↔ w.Holds target id) := by
  obtain ⟨t', ht', h'⟩ := h.stopScript
  refine ⟨t', ht', ?_⟩
  have hstack : Stack.unwind w target stack =
      Stack.unwind w target (some id :: below.map InlineLevel.block) := by
    rw [← h.blocks_eq, hlevels, List.map_append, List.map_cons, hid, Stack.unwind_append]
    intro block hmem
    obtain ⟨upper, hupper, rfl⟩ := List.mem_map.1 hmem
    exact habove upper hupper
  rw [hstack, Stack.unwind] at h'
  by_cases hholds : w.Holds target id
  · have hisCall : w.isCall target (some id) = true := by
      rw [World.isCall_of_holds hholds hb]
      exact beq_iff_eq.2 hcall
    rw [if_pos hisCall, Option.bind_some, World.next?_of_holds hholds hb] at h'
    refine iff_of_true ⟨?_, h'.peek?_eq (List.cons_ne_nil _ _)⟩ hholds
    rw [h'.depth_eq, List.length_cons, List.length_map]
  · rw [World.isCall_of_not_holds hholds] at h'
    refine iff_of_false ?_ hholds
    rintro ⟨hdepth, -⟩
    have hle := Stack.length_unwind_le w target (below.map InlineLevel.block)
    rw [if_neg Bool.false_ne_true] at h'
    rw [h'.depth_eq] at hdepth
    rw [List.length_map] at hle
    omega

end Rests

namespace Schedule

/-! ### The two look-ups of a thread -/

/-- The block that the operations on a thread's stack look up: the one in the target of the
thread. -/
def ownBlock? (s : Schedule) (t : Thread) (id : BlockId) : Option Block :=
  (s.engine.graph? t.target).bind fun g ↦ g.get? id

/-- The next step of a thread moves the top level on to the block given, whatever the time. -/
def MovesOnTo (s : Schedule) (t : Thread) (next : Option BlockId) : Prop :=
  ∀ now, ∃ request a, Activity.stepBlock ⟨s.engine, t⟩ now = .ok (request, a) ∧
    a.thread.depth = t.depth ∧ a.thread.peek? = next

/-- A stop leaves a thread so many levels, and the top one is moved on to the block given. -/
def StopsAt (s : Schedule) (t : Thread) (depth : Nat) (next : Option BlockId) : Prop :=
  ∃ a, Activity.stopScript ⟨s.engine, t⟩ = .ok a ∧ a.thread.depth = depth ∧ a.thread.peek? = next

theorem ownBlock?_eq_some_iff {s : Schedule} {t : Thread} {id : BlockId} {b : Block}
    (hb : s.engine.resolve? t.target id = some b) :
    s.ownBlock? t id = some b ↔ s.engine.world.Holds t.target id := by
  constructor
  · intro hown
    obtain ⟨g, hg, hget⟩ := Option.bind_eq_some_iff.1 hown
    exact ⟨g, b, hg, hget⟩
  · intro hholds
    obtain ⟨g, hg, hget⟩ := World.get?_of_holds hholds hb
    exact Option.bind_eq_some_iff.2 ⟨g, hg, hget⟩

section

variable {s : Schedule} {t : Thread} {others : List FrameId} {lot : Lot} {stack : Stack}
  {id : BlockId} {b : Block}

/-- A plain block that encloses nothing is moved on from to the block after it in the target. -/
theorem movesOnTo_iff (hmirrors : Mirrors s.engine others ⟨s.engine, t⟩ (t.inline s.engine.pool))
    (hrests : Rests s.engine.world t.target lot stack (t.inline s.engine.pool))
    (hb : s.engine.resolve? t.target id = some b) (hpeek : t.peek? = some id)
    (hplain : b.command = .plain) (hnone : b.substack? = none) (next : Option BlockId) :
    s.MovesOnTo t next ↔ s.engine.world.next? t.target id = next := by
  have hstep : ∀ now, ∃ request a, Activity.stepBlock ⟨s.engine, t⟩ now = .ok (request, a) ∧
      a.thread.depth = t.depth ∧ a.thread.peek? = s.engine.world.next? t.target id := by
    intro now
    obtain ⟨request, t', ht', hdepth, hpeek'⟩ := hrests.exists_of_plain
      (hmirrors.peek?_eq.trans hpeek) hb hplain hnone now
    have hagree := hmirrors.stepBlock now
    rw [ht'] at hagree
    obtain ⟨⟨request', a⟩, hok, -, hreports⟩ := hagree.exists_left
    have hmirrors' := hreports.mirrors
    rw [hmirrors'.depth_eq, hmirrors.depth_eq] at hdepth
    rw [hmirrors'.peek?_eq] at hpeek'
    exact ⟨request', a, hok, hdepth, hpeek'⟩
  constructor
  · intro hmoves
    obtain ⟨request, a, hok, -, hpeek'⟩ := hstep 0
    obtain ⟨request', a', hok', -, hpeek''⟩ := hmoves 0
    obtain ⟨-, rfl⟩ := Prod.mk.inj (Except.ok.inj (hok.symm.trans hok'))
    exact hpeek'.symm.trans hpeek''
  · rintro rfl now
    exact hstep now

/-- A stop steps over a call just when the target holds it. -/
theorem stopsAt_iff (hmirrors : Mirrors s.engine others ⟨s.engine, t⟩ (t.inline s.engine.pool))
    (hrests : Rests s.engine.world t.target lot stack (t.inline s.engine.pool))
    (hb : s.engine.resolve? t.target id = some b) {above below : List Level} {level : Level}
    (hlevels : t.levels = above ++ level :: below) (hid : level.block = some id)
    (hcall : b.opcode = Block.callOpcode)
    (habove : ∀ upper ∈ above, Activity.isCall ⟨s.engine, t⟩ upper = false) :
    s.StopsAt t (below.length + 1) b.next ↔ s.engine.world.Holds t.target id := by
  have hlevels' : (t.inline s.engine.pool).levels =
      above.map (Level.inline s.engine.pool) ++ level.inline s.engine.pool ::
        below.map (Level.inline s.engine.pool) := by
    rw [hmirrors.levels_eq, hlevels, List.map_append, List.map_cons]
  have habove' : ∀ upper ∈ above.map (Level.inline s.engine.pool),
      s.engine.world.isCall t.target upper.block = false := by
    intro upper hmem
    obtain ⟨upper, hupper, rfl⟩ := List.mem_map.1 hmem
    exact habove upper hupper
  obtain ⟨t', ht', hiff⟩ := hrests.exists_of_unwound_to hlevels' habove' hid hb hcall
  have hagree := hmirrors.stopScript
  rw [ht'] at hagree
  obtain ⟨a, hok, hmirrors'⟩ := hagree.exists_left
  rw [List.length_map, hmirrors'.depth_eq, hmirrors'.peek?_eq] at hiff
  rw [← hiff]
  constructor
  · rintro ⟨a', hok', hstopped⟩
    obtain rfl : a = a' := Except.ok.inj (hok.symm.trans hok')
    exact hstopped
  · exact fun hstopped ↦ ⟨a, hok, hstopped⟩

end

/-- **The look-ups agree on the blocks that the target holds, and on no others.** In every schedule
that a driver reaches with the scripts of a project, let a block be found for an id of a thread, in
whatever target. Then the target of the thread holds the id

* just when the thread's own operations look the same block up;
* where the block is plain, encloses nothing and is at the top, just when the next step moves on to
  the block after it, if there is any;
* where the block is a call and only levels that are no calls are above it, just when a stop steps
  over it to the block after it. -/
theorem lookups_agree_iff {settings : Settings} {project : Project}
    {scripts : List (BlockId × TargetId)} {s : Schedule} {position : Nat} {t : Thread}
    {id : BlockId} {b : Block} (h : Reached (Engine.ofProject settings project) scripts s)
    (ht : s.threads[position]? = some t) (hb : s.engine.resolve? t.target id = some b) :
    (s.ownBlock? t id = some b ↔ s.engine.world.Holds t.target id) ∧
      (t.peek? = some id → b.command = .plain → b.substack? = none →
        (s.MovesOnTo t b.next ↔ s.engine.world.Holds t.target id ∨ b.next = none)) ∧
      (∀ {above below : List Level} {level : Level}, t.levels = above ++ level :: below →
        level.block = some id → b.opcode = Block.callOpcode →
        (∀ upper ∈ above, Activity.isCall ⟨s.engine, t⟩ upper = false) →
        (s.StopsAt t (below.length + 1) b.next ↔ s.engine.world.Holds t.target id)) := by
  obtain ⟨settings', hs⟩ := h.upholds lasting_onTrack (Engine.pool_ofProject settings project)
  obtain ⟨hat, -, htrack⟩ := hs.exists_script ht
  have hmirrors := (hs.driven lasting_onTrack).mirrored.activity ht
  rw [← hs.world] at htrack
  obtain ⟨lot, stack, hrests, -⟩ := htrack.path
  have htarget : t.target = hat.2 := htrack.home.target_eq
  rw [← htarget] at hrests
  refine ⟨ownBlock?_eq_some_iff hb, ?_, ?_⟩
  · intro hpeek hplain hnone
    rw [movesOnTo_iff hmirrors hrests hb hpeek hplain hnone]
    exact World.next?_eq_next_iff hb
  · intro above below level hlevels hid hcall habove
    exact stopsAt_iff hmirrors hrests hb hlevels hid hcall habove

/-! ### Blocks of another target -/

/-- A script that goes on with a block of another target, and one that calls a procedure by a block
of another target. The procedure stops itself. -/
def detour : Project where
  targets := [
    { name := "stage"
      blocks := ⟨[
        ("hat", { opcode := "event_whenflagclicked", next := some "call" }),
        ("call", { opcode := "procedures_call", next := some "far",
                   mutation := some { proccode := some "p" } }),
        ("hat2", { opcode := "event_whenflagclicked", next := some "wait" }),
        ("wait", { opcode := "looks_say", next := some "farCall" }),
        ("definition", { opcode := "procedures_definition", next := some "say",
                         inputs := ⟨[("custom_block", .block "prototype")],
                           List.nodup_singleton "custom_block"⟩ }),
        ("prototype", { opcode := "procedures_prototype",
                        mutation := some { proccode := some "p" } }),
        ("say", { opcode := "looks_say", next := some "stop" }),
        ("stop", { opcode := "control_stop" }),
        ("near", { opcode := "looks_say" })], by decide⟩ },
    { name := "sprite"
      blocks := ⟨[
        ("far", { opcode := "looks_say", next := some "near" }),
        ("farCall", { opcode := "procedures_call", next := some "near",
                      mutation := some { proccode := some "p" } })], by decide⟩ }]

/-- A run of the two scripts with one step for each of them in a frame. -/
def detourAfter (frames : Nat) : Except Halt Schedule :=
  start (Engine.ofProject ⟨30, 0, 0, false⟩ detour) >>=
    drive ((List.range frames).map fun now ↦ ⟨.still now, 9, 0, 0, []⟩)

theorem exists_of_detourAfter {frames : Nat} (h : (detourAfter frames).map (fun _ ↦ ()) = .ok ()) :
    ∃ scripts s, detourAfter frames = .ok s ∧
      Reached (Engine.ofProject ⟨30, 0, 0, false⟩ detour) scripts s := by
  obtain ⟨s, hafter, -⟩ := exists_of_map_eq_ok h
  obtain ⟨s₀, hstart, hdrive⟩ := exists_of_bind_eq_ok hafter
  obtain ⟨scripts, hreached⟩ := (Reached.start hstart).drive _ hdrive
  exact ⟨scripts, s, hafter, hreached⟩

/-- What can be decided about a schedule of the run can be evaluated. -/
theorem of_detourAfter {frames : Nat} {s : Schedule} (h : detourAfter frames = .ok s)
    (P : Schedule → Prop) [DecidablePred P]
    (hdecide : (detourAfter frames).map (fun s ↦ decide (P s)) = .ok true) : P s := by
  rw [h] at hdecide
  exact of_decide_eq_true (Except.ok.inj hdecide)

/-- Two frames on the first script is in the procedure, and has met no block of another target. The
block at the top is moved on from to the block after it, and a stop steps over the call. -/
theorem lookups_agree_detour :
    ∃ scripts s t, Reached (Engine.ofProject ⟨30, 0, 0, false⟩ detour) scripts s ∧
      s.threads[0]? = some t ∧ t.levels.map Level.block = [some "say", some "call"] ∧
      s.MovesOnTo t (some "stop") ∧ s.StopsAt t 1 (some "far") := by
  obtain ⟨scripts, s, hafter, hreached⟩ := exists_of_detourAfter
    (show (detourAfter 2).map _ = _ by decide +kernel)
  obtain ⟨hlevels, hsay, hcall, hown⟩ := of_detourAfter hafter
    (fun s ↦ (s.threads[0]?).map (fun t ↦ t.levels.map fun level ↦
        (level.block, Activity.isCall ⟨s.engine, t⟩ level)) =
        some [(some "say", false), (some "call", true)] ∧
      (s.engine.resolve? ⟨0⟩ "say").map (fun b ↦ (b.command, b.substack?, b.next)) =
        some (.plain, none, some "stop") ∧
      (s.engine.resolve? ⟨0⟩ "call").map (fun b ↦ (b.opcode, b.next)) =
        some (Block.callOpcode, some "far") ∧
      ∀ id ∈ ["say", "call"], (s.threads[0]?).map (fun t ↦ (t.target, s.ownBlock? t id)) =
        some (⟨0⟩, s.engine.resolve? ⟨0⟩ id)) (by decide +kernel)
  obtain ⟨t, ht, hlevels⟩ := Option.map_eq_some_iff.1 hlevels
  obtain ⟨upper, rest, hcons, hupper, hrest⟩ := List.map_eq_cons_iff.1 hlevels
  obtain ⟨level, rfl, hlevel⟩ := List.map_eq_singleton_iff.1 hrest
  obtain ⟨hupperBlock, hupperCall⟩ := Prod.mk.inj hupper
  obtain ⟨hlevelBlock, -⟩ := Prod.mk.inj hlevel
  obtain ⟨say, hsay, hsayFacts⟩ := Option.map_eq_some_iff.1 hsay
  obtain ⟨call, hcall, hcallFacts⟩ := Option.map_eq_some_iff.1 hcall
  obtain ⟨hplain, hsayFacts⟩ := Prod.mk.inj hsayFacts
  obtain ⟨hnone, hnext⟩ := Prod.mk.inj hsayFacts
  obtain ⟨hopcode, hcallNext⟩ := Prod.mk.inj hcallFacts
  rw [ht] at hown
  obtain ⟨htarget, hownSay⟩ := Prod.mk.inj (Option.some.inj (hown "say" (by decide)))
  obtain ⟨-, hownCall⟩ := Prod.mk.inj (Option.some.inj (hown "call" (by decide)))
  rw [← htarget] at hsay hcall
  obtain ⟨hiffSay, hmoves, -⟩ := lookups_agree_iff hreached ht hsay
  obtain ⟨hiffCall, -, hstops⟩ := lookups_agree_iff hreached ht hcall
  rw [← htarget] at hownSay hownCall
  have hpeek : t.peek? = some "say" := by
    rw [Thread.peek?, hcons]
    exact hupperBlock
  refine ⟨scripts, s, t, hreached, ht, ?_, ?_, ?_⟩
  · rw [hcons, List.map_cons, List.map_cons, hupperBlock, hlevelBlock, List.map_nil]
  · rw [← hnext]
    exact (hmoves hpeek hplain hnone).2 (.inl (hiffSay.1 (hownSay.trans hsay)))
  · rw [← hcallNext]
    have habove : ∀ upper' ∈ [upper], Activity.isCall ⟨s.engine, t⟩ upper' = false := by
      intro upper' hmem
      obtain rfl := List.mem_singleton.1 hmem
      exact hupperCall
    exact (hstops hcons hlevelBlock hopcode habove).2 (hiffCall.1 (hownCall.trans hcall))

/-- **A block of another target breaks a script off.** Four frames on the first script is at a block
of another target, which is followed by one more block; its next step does not move on to that
block. The second script has come to its procedure by a call of another target; a stop does not step
over that call. -/
theorem not_lookups_agree_detour :
    ∃ scripts s t u, Reached (Engine.ofProject ⟨30, 0, 0, false⟩ detour) scripts s ∧
      s.threads = [t, u] ∧
      (∃ b, t.peek? = some "far" ∧ s.engine.resolve? t.target "far" = some b ∧
        b.command = .plain ∧ b.substack? = none ∧ ¬s.MovesOnTo t b.next) ∧
      ∃ b upper level, u.levels = [upper, level] ∧ level.block = some "farCall" ∧
        s.engine.resolve? u.target "farCall" = some b ∧ b.opcode = Block.callOpcode ∧
        Activity.isCall ⟨s.engine, u⟩ upper = false ∧ ¬s.StopsAt u 1 b.next := by
  obtain ⟨scripts, s, hafter, hreached⟩ := exists_of_detourAfter
    (show (detourAfter 4).map _ = _ by decide +kernel)
  have hlevels := of_detourAfter hafter
    (fun s ↦ s.threads.map (fun t ↦ (t.target, t.levels.map fun level ↦
        (level.block, Activity.isCall ⟨s.engine, t⟩ level))) =
      [(⟨0⟩, [(some "far", false)]), (⟨0⟩, [(some "stop", false), (some "farCall", false)])])
    (by decide +kernel)
  obtain ⟨hfar, hcall⟩ := of_detourAfter hafter
    (fun s ↦ (s.engine.resolve? ⟨0⟩ "far").map (fun b ↦ (b.command, b.substack?, b.next)) =
        some (.plain, none, some "near") ∧
      (s.engine.resolve? ⟨0⟩ "farCall").map (fun b ↦ (b.opcode, b.next)) =
        some (Block.callOpcode, some "near")) (by decide +kernel)
  obtain ⟨hmoves, hstops⟩ := of_detourAfter hafter
    (fun s ↦ (s.threads[0]?).map (fun t ↦ (Activity.stepBlock ⟨s.engine, t⟩ 0).toOption.map
        fun result ↦ result.2.thread.peek?) = some (some none) ∧
      (s.threads[1]?).map (fun u ↦ (Activity.stopScript ⟨s.engine, u⟩).toOption.map
        fun a ↦ a.thread.depth) = some (some 0)) (by decide +kernel)
  obtain ⟨t, rest, hthreads, ht, hrest⟩ := List.map_eq_cons_iff.1 hlevels
  obtain ⟨u, rfl, hu⟩ := List.map_eq_singleton_iff.1 hrest
  obtain ⟨htarget, htlevels⟩ := Prod.mk.inj ht
  obtain ⟨hutarget, hulevels⟩ := Prod.mk.inj hu
  obtain ⟨far, hfar, hfarFacts⟩ := Option.map_eq_some_iff.1 hfar
  obtain ⟨hplain, hfarFacts⟩ := Prod.mk.inj hfarFacts
  obtain ⟨hnone, hnext⟩ := Prod.mk.inj hfarFacts
  obtain ⟨call, hcall, hcallFacts⟩ := Option.map_eq_some_iff.1 hcall
  obtain ⟨hopcode, hcallNext⟩ := Prod.mk.inj hcallFacts
  obtain ⟨upper, rest, hcons, hupper, hrest⟩ := List.map_eq_cons_iff.1 hulevels
  obtain ⟨level, rfl, hlevel⟩ := List.map_eq_singleton_iff.1 hrest
  obtain ⟨first, hfirst, hfirstBlock⟩ := List.map_eq_singleton_iff.1 htlevels
  rw [hthreads] at hmoves hstops
  refine ⟨scripts, s, t, u, hreached, hthreads, ⟨far, ?_, ?_, hplain, hnone, ?_⟩,
    call, upper, level, hcons, (Prod.mk.inj hlevel).1, ?_, hopcode, (Prod.mk.inj hupper).2, ?_⟩
  · rw [Thread.peek?, hfirst]
    exact (Prod.mk.inj hfirstBlock).1
  · rw [htarget]
    exact hfar
  · intro hon
    obtain ⟨request, a, hok, -, hpeek⟩ := hon 0
    have hstep := Option.some.inj hmoves
    dsimp only at hstep
    rw [hok] at hstep
    have hend : a.thread.peek? = none := Option.some.inj hstep
    rw [hpeek, hnext] at hend
    cases hend
  · rw [hutarget]
    exact hcall
  · rintro ⟨a, hok, hdepth, -⟩
    have hstop := Option.some.inj hstops
    dsimp only at hstop
    rw [hok] at hstop
    have hempty : a.thread.depth = 0 := Option.some.inj hstop
    omega

end Schedule

end BlockScript
