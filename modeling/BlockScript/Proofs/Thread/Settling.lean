import BlockScript.Proofs.Thread.Guard

/-!
# When the machine settles

An endless loop does not keep a thread from resting: a thread yields when it comes round to the
loop, unless it is in warp mode and has time left. What has to be finite for a turn to end is
therefore only what lies between two rounds. The machine **settles** if it is at its end or about to
come round to a loop after some number of steps (`Stack.Settles`).

A step may make the stack higher, or take many levels off it at once, so no count goes down. The
argument goes along the blocks instead. One block **precedes** another if the other one may be come
to right after it (`World.Precedes`), and from where no chain of such blocks goes on for ever one
can argue by induction along the chains. What the induction carries is what is left to do after a
sequence (`Stack.Continues`): the machine has to settle both where the sequence is over and where it
is aborted.
-/

namespace BlockScript

/-! ### Chains of blocks -/

namespace World

/-- **One block precedes another**: the other one stands right after it in the graph of one target,
or is the first of the blocks that it encloses, or of the procedure that it calls. This goes by the
graph that threads move on in, where `World.Leads` goes by the block that is found. -/
inductive Precedes (w : World) (target : TargetId) (id : BlockId) : BlockId → Prop
  /-- The next block. -/
  | next {id' : BlockId} (hnext : w.next? target id = some id') : Precedes w target id id'
  /-- The first of the blocks that it encloses. -/
  | substack {id' : BlockId} (hbody : w.substack? target id = some id') : Precedes w target id id'
  /-- The first block of the procedure that it calls. -/
  | body {b : Block} {id' : BlockId} (hb : w.resolve? target id = some b)
      (hop : b.opcode = Block.callOpcode)
      (hbody : b.proccode.bind (w.procedureBody? target) = some id') : Precedes w target id id'

/-- No chain of blocks that starts with this one goes on for ever. -/
def FiniteFrom (w : World) (target : TargetId) (id : BlockId) : Prop :=
  ¬∃ chain : Nat → BlockId, chain 0 = id ∧ ∀ n, w.Precedes target (chain n) (chain (n + 1))

/-- No chain of blocks that starts with this one comes to a call in warp mode. -/
def WarpFreeFrom (w : World) (target : TargetId) (id : BlockId) : Prop :=
  ∀ id' b, Relation.ReflTransGen (w.Precedes target) id id' → w.resolve? target id' = some b →
    b.opcode = Block.callOpcode → b.isWarp = false

variable {w : World} {target : TargetId} {id id' : BlockId}

/-- Which blocks precede which does not depend on the settings. -/
theorem Precedes.under {settings : Settings} (h : (w.under settings).Precedes target id id') :
    w.Precedes target id id' := by
  cases h with
  | next hnext => exact .next hnext
  | substack hbody => exact .substack hbody
  | body hb hop hbody => exact .body hb hop hbody

theorem FiniteFrom.under (h : w.FiniteFrom target id) (settings : Settings) :
    (w.under settings).FiniteFrom target id := by
  rintro ⟨chain, hzero, hchain⟩
  exact h ⟨chain, hzero, fun n ↦ (hchain n).under⟩

theorem WarpFreeFrom.under (h : w.WarpFreeFrom target id) (settings : Settings) :
    (w.under settings).WarpFreeFrom target id := by
  intro id' b hreaches hb
  have hreaches' : Relation.ReflTransGen (w.Precedes target) id id' :=
    Relation.ReflTransGen.mono (fun _ _ ↦ Precedes.under) _ _ hreaches
  exact h id' b hreaches' hb

/-- Without infinite chains one can argue along the chains, from any block that they come to. -/
theorem FiniteFrom.acc (h : w.FiniteFrom target id)
    (hreaches : Relation.ReflTransGen (w.Precedes target) id id') :
    Acc (fun id' id ↦ w.Precedes target id id') id' := by
  induction hreaches with
  | refl =>
    by_contra hnot
    exact h (not_acc_iff_exists_descending_chain.1 hnot)
  | tail _ hprecedes ih => exact ih.inv hprecedes

/-- A chain of next blocks is a chain. -/
theorem OnChain.reaches {first : BlockId} {block : Option BlockId}
    (h : w.OnChain target first block) (hblock : block = some id) :
    Relation.ReflTransGen (w.Precedes target) first id := by
  induction h generalizing id with
  | first =>
    obtain rfl := Option.some.inj hblock
    exact .refl
  | next _ ih => exact (ih rfl).tail (.next hblock)

/-- A block precedes the one that it leads into. -/
theorem precedes_of_inside? {b : Block} (hb : w.resolve? target id = some b)
    (hentry : w.inside? target b = some id') : w.Precedes target id id' := by
  rw [inside?] at hentry
  split at hentry
  · exact .body hb ‹_› hentry
  · refine .substack ?_
    rw [substack?, hb, Option.bind_some, hentry]

end World

/-- **The chains from the start of a script come to every block on a path.** -/
theorem Stack.IsPath.reaches {w : World} {target : TargetId} {top id : BlockId} {stack : Stack}
    (h : Stack.IsPath w target top stack) (hmem : some id ∈ stack) :
    Relation.ReflTransGen (w.Precedes target) top id := by
  induction h generalizing id with
  | nil => cases hmem
  | cons hopens hblock hrest ih =>
    rcases List.mem_cons.1 hmem with heq | hmem
    · obtain - | ⟨hb, hentry⟩ := hopens
      · exact hblock.reaches heq.symm
      · exact ((ih List.mem_cons_self).tail (World.precedes_of_inside? hb hentry)).trans
          (hblock.reaches heq.symm)
    · exact ih hmem

/-! ### The machine settles -/

namespace Stack

/-- The next step comes round to an endless loop: back from the blocks that it encloses, or straight
to itself where it encloses none. -/
inductive ComesRound (w : World) (target : TargetId) : Stack → Prop
  /-- Back from the blocks that it encloses. -/
  | back {id : BlockId} {rest : Stack} (hloop : w.isLoop target (some id) = true) :
      ComesRound w target (none :: some id :: rest)
  /-- Straight to itself. -/
  | idle {id : BlockId} {b : Block} {rest : Stack} (hb : w.resolve? target id = some b)
      (hforever : b.command = .forever) (hbody : b.substack? = none) :
      ComesRound w target (some id :: rest)

/-- **The machine settles**: after some steps it is at its end, or about to come round to a loop. -/
inductive Settles (w : World) (target : TargetId) : Stack → Prop
  /-- At its end. -/
  | nil : Settles w target []
  /-- About to come round to a loop. -/
  | round {stack : Stack} (h : ComesRound w target stack) : Settles w target stack
  /-- After one step more. -/
  | step {stack : Stack} (h : Settles w target (Stack.step w target stack)) :
      Settles w target stack

/-- **What is left to do after a sequence** above these levels settles. -/
structure Continues (w : World) (target : TargetId) (rest : Stack) : Prop where
  /-- When the sequence is over. -/
  finished : Settles w target (none :: rest)
  /-- When the sequence is aborted. -/
  aborted : Settles w target (Stack.unwind w target rest)

variable {w : World} {target : TargetId} {id : BlockId} {rest : Stack}

theorem Continues.nil : Continues w target [] :=
  ⟨.step .nil, .nil⟩

/-- A level whose sequence is over adds nothing. -/
theorem Continues.cons_none (h : Continues w target rest) : Continues w target (none :: rest) :=
  ⟨.step h.aborted, h.aborted⟩

/-- A level adds the blocks after its own: a return goes on with them, unless it comes round to a
loop, and so does a call that catches an abort. -/
theorem Continues.cons_some (h : Continues w target rest)
    (hnext : Settles w target (w.next? target id :: rest)) :
    Continues w target (some id :: rest) where
  finished := by
    by_cases hloop : w.isLoop target (some id) = true
    · exact .round (.back hloop)
    · refine .step ?_
      rw [Stack.step, if_neg hloop]
      exact hnext
  aborted := by
    rw [Stack.unwind]
    split
    · exact hnext
    · exact h.aborted

/-- **A sequence settles if what is left to do after it does.** By induction along the chains from
its first block. -/
theorem settles_some (hacc : Acc (fun id' id ↦ w.Precedes target id id') id) :
    ∀ {rest : Stack}, Continues w target rest → Settles w target (some id :: rest) := by
  induction hacc with
  | intro id _ ih =>
    intro rest hrest
    have hnext : Settles w target (w.next? target id :: rest) := by
      rcases hnext : w.next? target id with - | id'
      · exact hrest.finished
      · exact ih id' (.next hnext) hrest
    -- What is left to do after the blocks that this one leads into.
    have hinner : Continues w target (some id :: rest) := hrest.cons_some hnext
    have henter : ∀ {body : Option BlockId}, (∀ id' ∈ body, w.Precedes target id id') →
        Settles w target (Stack.enter w target id rest body) := by
      intro body hbody
      rcases body with - | body
      · exact hnext
      · exact ih body (hbody body rfl) hinner
    by_cases hround : ComesRound w target (some id :: rest)
    · exact .round hround
    · refine .step ?_
      rw [Stack.step]
      rcases hb : w.resolve? target id with - | b
      · exact hinner.aborted
      · have hsubstack : ∀ id' ∈ b.substack?, w.Precedes target id id' := by
          intro id' hbody
          refine .substack ?_
          rw [World.substack?, hb]
          exact hbody
        show Settles w target (Stack.perform w target id b rest)
        rw [Stack.perform]
        cases hcommand : b.command with
        | stopAll => exact .nil
        | stopOthers => exact hnext
        | stopThis => exact hinner.aborted
        | forever =>
          rcases hbody : b.substack? with - | body
          · exact absurd (.idle hb hcommand hbody) hround
          · exact ih body (hsubstack body hbody) hinner
        | call => exact henter fun id' hbody ↦ .body hb (Block.command_eq_call_iff.1 hcommand) hbody
        | plain => exact henter hsubstack

theorem continues_of_acc {stack : Stack}
    (h : ∀ id, some id ∈ stack → Acc (fun id' id ↦ w.Precedes target id id') id) :
    Continues w target stack := by
  induction stack with
  | nil => exact .nil
  | cons block rest ih =>
    have hrest := ih fun id hmem ↦ h id (List.mem_cons_of_mem _ hmem)
    rcases block with - | id
    · exact hrest.cons_none
    · refine hrest.cons_some ?_
      rcases hnext : w.next? target id with - | id'
      · exact hrest.finished
      · exact settles_some ((h id List.mem_cons_self).inv (.next hnext)) hrest

/-- **The machine settles on a path** from which no chain of blocks goes on for ever. -/
theorem IsPath.settles {top : BlockId} {stack : Stack} (h : IsPath w target top stack)
    (hfinite : w.FiniteFrom target top) : Settles w target stack := by
  have hacc : ∀ id, some id ∈ stack → Acc (fun id' id ↦ w.Precedes target id id') id :=
    fun id hmem ↦ hfinite.acc (h.reaches hmem)
  rcases stack with - | ⟨- | id, rest⟩
  · exact .nil
  · exact (continues_of_acc fun id hmem ↦ hacc id (List.mem_cons_of_mem _ hmem)).finished
  · exact settles_some (hacc id List.mem_cons_self)
      (continues_of_acc fun id hmem ↦ hacc id (List.mem_cons_of_mem _ hmem))

end Stack

/-! ### What a thread does when it comes round -/

/-- **A thread that comes round to a loop yields**, unless it is in warp mode and has a budget
there. -/
theorem Stands.status_of_comesRound {w : World} {target : TargetId} {lot : Lot} {stack : Stack}
    {t t' : InlineThread} {now : Moment} {request : Option StopRequest}
    (h : Stands w target lot stack t) (hround : Stack.ComesRound w target stack)
    (hstep : t.stepBlock w now = .ok (request, t'))
    (hdue : t'.inWarpMode = false ∨ w.settings.warpTime = 0) : t'.status = .yield := by
  cases hround with
  | @back id below hloop =>
    obtain ⟨level, rest, hlevels, hblock, hrest⟩ := h.exists_levels
    obtain ⟨parent, rest, rfl, hparent, -⟩ := List.map_eq_cons_iff.1 hrest
    obtain ⟨hpop, -⟩ := h.pop hlevels
    have hflag : parent.frame.isLoop = true := by
      refine ((h.shape_cons hlevels).2 parent List.mem_cons_self).flag_of_isLoop ?_
      rw [hparent]
      exact hloop
    have hpeek : t.peek? = none := by
      rw [InlineThread.peek?, hlevels]
      exact hblock
    have hpeek' : (t.withLevels (parent :: rest)).peek? = some id := hparent
    have htop : (t.withLevels (parent :: rest)).topFrame?.elim false Frame.isLoop = true := hflag
    rw [InlineThread.stepBlock, hpeek] at hstep
    obtain ⟨⟨block, t₁⟩, hpop', hresumed⟩ := exists_of_bind_eq_ok hstep
    obtain ⟨-, rfl⟩ := Prod.mk.inj (Except.ok.inj (hpop.symm.trans hpop'))
    dsimp only at hresumed
    rw [hpeek'] at hresumed
    obtain ⟨t₂, hresume, hresult⟩ := exists_of_map_eq_ok hresumed
    obtain ⟨-, rfl⟩ := Prod.mk.inj hresult
    rw [InlineThread.resume, htop] at hresume
    obtain rfl := Except.ok.inj hresume
    refine InlineThread.status_yieldIfDue_of_isDue ?_
    rcases hdue with hmode | hbudget
    · refine .inl ?_
      rw [InlineThread.inWarpMode, InlineThread.topFrame?, InlineThread.levels_yieldIfDue] at hmode
      exact hmode
    · refine .inr ?_
      rw [hbudget]
      exact Nat.zero_le _
  | @idle id b below hb hforever hbody =>
    have hpeek : t.peek? = some id := by
      obtain ⟨level, rest, hlevels, hblock, -⟩ := h.exists_levels
      rw [InlineThread.peek?, hlevels]
      exact hblock
    rw [InlineThread.stepBlock, hpeek] at hstep
    dsimp only at hstep
    rw [InlineThread.execute, h.target_eq, hb] at hstep
    dsimp only at hstep
    rw [InlineThread.perform, hforever, InlineThread.enterLoop, hbody] at hstep
    obtain ⟨-, rfl⟩ := Prod.mk.inj (Except.ok.inj hstep)
    rfl

/-- **No thread is in warp mode** on a path that comes to no call in warp mode. -/
theorem InlineThread.InMode.inWarpMode_eq_false {w : World} {hat : BlockId × TargetId}
    {t : InlineThread} (h : t.InMode w hat)
    (hpath : Stack.IsPath w hat.2 hat.1 (t.levels.map InlineLevel.block))
    (hfree : w.WarpFreeFrom hat.2 hat.1) : t.inWarpMode = false := by
  rcases hlevels : t.levels with - | ⟨top, rest⟩
  · rw [inWarpMode, topFrame?, hlevels]
    rfl
  · rw [inWarpMode, topFrame?, hlevels]
    show top.frame.warpMode = false
    rw [← Bool.not_eq_true]
    intro hwarp
    rw [h.moded.warpMode_eq_true_iff (i := 0) (by rw [hlevels]; rfl)] at hwarp
    obtain ⟨j, lower, -, hlower, hcall⟩ := hwarp
    obtain ⟨id, b, m, hblock, hb, hop, hmutation, hwarp⟩ := World.isWarpCall_eq_true_iff.1 hcall
    have hmem : some id ∈ t.levels.map InlineLevel.block := by
      rw [← hblock]
      exact List.mem_map_of_mem (List.mem_of_getElem? hlower)
    have hnot := hfree id b (hpath.reaches hmem) hb hop
    rw [Block.isWarp, hmutation] at hnot
    cases hwarp.symm.trans hnot

end BlockScript
