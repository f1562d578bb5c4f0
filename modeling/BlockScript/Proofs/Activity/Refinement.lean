import BlockScript.Proofs.Frame.Lending
import BlockScript.Proofs.Thread.Inline

/-!
# Pooled frames refine inline frames

A thread at work on an engine behaves as the inline thread that holds the same frames
(`Activity.inline`), operation by operation and failure by failure. The relation that carries this
is `Mirrors e others a t`: the activity `a` looks like the inline thread `t`, and towards an earlier
state `e` of the engine it has kept its hands off everything that is not its own, namely

* the settings and the targets (`Engine.world`),
* the frames at the positions `others`, which are those of the other threads, and
* the **chronicle**, which is the journal without the traces that stack operations leave.

Every operation gets one lemma, `Mirrors.op`, of one form: started in related states, the operation
on the activity and its counterpart on the inline thread either fail for the same reason or end in
related states (`Agree`). Composite operations follow by `Agree.bind`, without a look at the pool.

The one place where the pool's bookkeeping matters is that a thread's frames are distinct from one
another and from everybody else's; it comes in through `Pool.Lends`.
-/

namespace BlockScript

/-! ### Agreement of computations -/

/-- Two computations agree up to `R`: both fail, for the same reason, or both succeed, with results
that `R` relates. -/
inductive Agree {α β : Type} (R : α → β → Prop) : Except Halt α → Except Halt β → Prop
  /-- Both succeed. -/
  | ok {a : α} {b : β} (h : R a b) : Agree R (.ok a) (.ok b)
  /-- Both fail. -/
  | error (cause : Halt) : Agree R (.error cause) (.error cause)

/-- A computation that succeeds in two stages succeeds in each of them. -/
theorem exists_of_bind_eq_ok {α β : Type} {x : Except Halt α} {f : α → Except Halt β} {b : β}
    (h : x >>= f = .ok b) : ∃ a, x = .ok a ∧ f a = .ok b := by
  cases x with
  | ok a => exact ⟨a, rfl, h⟩
  | error cause => cases h

namespace Agree

variable {α β γ δ : Type} {R : α → β → Prop} {S : γ → δ → Prop}

/-- Computations that agree may be gone on with, if the rest agrees on results that agree. -/
theorem bind {x : Except Halt α} {y : Except Halt β} {f : α → Except Halt γ}
    {g : β → Except Halt δ} (h : Agree R x y) (hstep : ∀ a b, R a b → Agree S (f a) (g b)) :
    Agree S (x >>= f) (y >>= g) := by
  cases h with
  | ok hab => exact hstep _ _ hab
  | error cause => exact .error cause

/-- Only the second computation goes on. -/
theorem bind_right {T : α → δ → Prop} {x : Except Halt α} {y : Except Halt β}
    {g : β → Except Halt δ} (h : Agree R x y) (hstep : ∀ a b, R a b → Agree T (.ok a) (g b)) :
    Agree T x (y >>= g) := by
  cases h with
  | ok hab => exact hstep _ _ hab
  | error cause => exact .error cause

/-- Functions of the results may be taken. -/
theorem map {x : Except Halt α} {y : Except Halt β} {f : α → γ} {g : β → δ} (h : Agree R x y)
    (hstep : ∀ a b, R a b → S (f a) (g b)) : Agree S (x.map f) (y.map g) := by
  cases h with
  | ok hab => exact .ok (hstep _ _ hab)
  | error cause => exact .error cause

/-- Agreeing in one way may imply agreeing in another. -/
theorem mono {R' : α → β → Prop} {x : Except Halt α} {y : Except Halt β} (h : Agree R x y)
    (himp : ∀ a b, R a b → R' a b) : Agree R' x y := by
  cases h with
  | ok hab => exact .ok (himp _ _ hab)
  | error cause => exact .error cause

/-- What agrees with a result has one. -/
theorem exists_right {a : α} {y : Except Halt β} (h : Agree R (.ok a) y) :
    ∃ b, y = .ok b ∧ R a b := by
  cases h with
  | ok hab => exact ⟨_, rfl, hab⟩

/-- What agrees with a failure fails in the same way. -/
theorem eq_error {cause : Halt} {y : Except Halt β} (h : Agree R (.error cause) y) :
    y = .error cause := by
  cases h with
  | error => rfl

/-- What agrees with a result on the other side has one as well. -/
theorem exists_left {x : Except Halt α} {b : β} (h : Agree R x (.ok b)) :
    ∃ a, x = .ok a ∧ R a b := by
  cases h with
  | ok hab => exact ⟨_, rfl, hab⟩

end Agree

/-! ### What an activity looks like -/

/-- The journal without traces, the latest event first. -/
def Engine.chronicle (e : Engine) : List Event :=
  e.journal.filter fun event ↦ event.severity != .trace

/-- Traces are not part of the chronicle. -/
theorem Engine.chronicle_note_of_trace {e : Engine} {event : Event}
    (h : event.severity = .trace) : (e.note event).chronicle = e.chronicle := by
  simp [chronicle, note, h]

/-- All other events are. -/
theorem Engine.chronicle_note {e : Engine} {event : Event} (h : event.severity ≠ .trace) :
    (e.note event).chronicle = event :: e.chronicle := by
  simp [chronicle, note, h]

/-- A level with the frame that it has in a pool. -/
def Level.inline (p : Pool) (level : Level) : InlineLevel :=
  ⟨level.block, p.frameAt level.frame, level.switched⟩

/-- The positions of a thread's frames, innermost first. -/
def Thread.frames (t : Thread) : List FrameId :=
  t.levels.map Level.frame

/-- A thread with the frames that it has in a pool. -/
def Thread.inline (p : Pool) (t : Thread) : InlineThread where
  topBlock := t.topBlock
  levels := t.levels.map (Level.inline p)
  target := t.target
  targetStack := t.targetStack
  status := t.status
  killed := t.killed
  compilation := t.compilation
  scriptGlow := t.scriptGlow
  blockGlow := t.blockGlow
  warpTimer := t.warpTimer
  justReported := t.justReported

/-- The inline thread that an activity looks like. -/
def Activity.inline (a : Activity) : InlineThread :=
  a.thread.inline a.engine.pool

/-- Levels look the same in two pools that agree on their frames. -/
theorem Level.map_inline_congr {p p' : Pool} {levels : List Level}
    (h : ∀ id ∈ levels.map Level.frame, p'.frameAt id = p.frameAt id) :
    levels.map (Level.inline p') = levels.map (Level.inline p) := by
  refine List.map_congr_left fun level hmem ↦ ?_
  rw [Level.inline, Level.inline, h _ (List.mem_map_of_mem hmem)]

/-- A thread looks the same in two pools that have the same frames at its positions. -/
theorem Thread.inline_congr {p p' : Pool} {t : Thread}
    (h : ∀ id ∈ t.frames, p'.frameAt id = p.frameAt id) : t.inline p' = t.inline p := by
  simp only [Thread.inline, Level.map_inline_congr h]

/-- The blocks to look at on a level: the reporter that it waits for, and then its own block. -/
def InlineLevel.looks (level : InlineLevel) : List (Option BlockId) :=
  (if level.frame.waitingReporter then [level.frame.reporting] else []) ++ [level.block]

/-- The enclosing blocks, read off the frames that a list of levels has in a pool. -/
theorem Activity.enclosing_eq {p : Pool} {levels : List Level}
    (hget : ∀ level ∈ levels, p.get level.frame = .ok (level.inline p).frame) :
    enclosing p levels = .ok ((levels.map (Level.inline p)).flatMap InlineLevel.looks) := by
  induction levels with
  | nil => rfl
  | cons level rest ih =>
    obtain ⟨hlevel, hrest⟩ := List.forall_mem_cons.1 hget
    rw [enclosing, hlevel, ih hrest, List.map_cons, List.flatMap_cons, InlineLevel.looks,
      List.append_assoc]
    rfl

/-- Towards the earlier engine `e`, the activity has kept its hands off everything that is not its
own; `others` are the positions of other threads' frames. -/
structure Spares (e : Engine) (others : List FrameId) (a : Activity) : Prop where
  /-- The settings and the targets are the same. -/
  world : a.engine.world = e.world
  /-- Nothing but traces was recorded. -/
  chronicle : a.engine.chronicle = e.chronicle
  /-- The pool has lent out the frames of the thread and those of the others. -/
  lends : a.engine.pool.Lends (a.thread.frames ++ others)
  /-- The frames of the others are the same. -/
  kept : ∀ id ∈ others, a.engine.pool.frameAt id = e.pool.frameAt id

/-- The activity looks like the inline thread, and spares everything else. -/
structure Mirrors (e : Engine) (others : List FrameId) (a : Activity) (t : InlineThread) : Prop
    extends Spares e others a where
  /-- The thread of the activity is the inline thread. -/
  inline : a.inline = t

namespace Spares

variable {e : Engine} {others : List FrameId} {a : Activity}

/-- The activity looks at the graphs of its world. -/
theorem graph? (h : Spares e others a) : a.engine.graph? = e.world.graph? := by
  rw [← h.world]
  rfl

/-- It finds the blocks of its world. -/
theorem resolve? (h : Spares e others a) : a.engine.resolve? = e.world.resolve? := by
  rw [← h.world]
  rfl

theorem procedureBody? (h : Spares e others a) :
    a.engine.procedureBody? = e.world.procedureBody? := by
  rw [← h.world]
  rfl

theorem substack? (h : Spares e others a) : a.engine.substack? = e.world.substack? := by
  rw [← h.world]
  rfl

/-- An activity whose pool is as before, on an engine that recorded nothing but traces, with a
thread whose levels are as before. -/
theorem of_eq {a' : Activity} (h : Spares e others a)
    (hworld : a'.engine.world = a.engine.world)
    (hchronicle : a'.engine.chronicle = a.engine.chronicle)
    (hpool : a'.engine.pool = a.engine.pool) (hlevels : a'.thread.levels = a.thread.levels) :
    Spares e others a' where
  world := hworld.trans h.world
  chronicle := hchronicle.trans h.chronicle
  lends := by
    rw [hpool, Thread.frames, hlevels]
    exact h.lends
  kept := by
    rw [hpool]
    exact h.kept

end Spares

namespace Mirrors

open Activity

variable {e : Engine} {others : List FrameId} {a : Activity} {t : InlineThread}

/-! ### Frames -/

/-- The frames of a thread with a top level: the top one is nobody else's. -/
private theorem top_notMem {level : Level} {rest : List Level} (h : Spares e others a)
    (hlevels : a.thread.levels = level :: rest) :
    level.frame ∉ rest.map Level.frame ∧ level.frame ∉ others ∧
      a.engine.pool.Lends (level.frame :: (rest.map Level.frame ++ others)) := by
  have hlends := h.lends
  rw [Thread.frames, hlevels, List.map_cons, List.cons_append] at hlends
  have hnotMem := (List.nodup_cons.1 hlends.held_nodup).1
  rw [List.mem_append, not_or] at hnotMem
  exact ⟨hnotMem.1, hnotMem.2, hlends⟩

/-- The inline thread holds what the levels refer to in the pool. -/
theorem levels_eq (h : Mirrors e others a t) :
    t.levels = a.thread.levels.map (Level.inline a.engine.pool) := by
  rw [← h.inline]
  rfl

theorem peek?_eq (h : Mirrors e others a t) : t.peek? = a.thread.peek? := by
  rw [InlineThread.peek?, h.levels_eq, Thread.peek?]
  cases a.thread.levels <;> rfl

theorem depth_eq (h : Mirrors e others a t) : t.depth = a.thread.depth := by
  rw [InlineThread.depth, h.levels_eq, List.length_map, Thread.depth]

theorem target_eq (h : Mirrors e others a t) : t.target = a.thread.target := by
  rw [← h.inline]
  rfl

theorem status_eq (h : Mirrors e others a t) : t.status = a.thread.status := by
  rw [← h.inline]
  rfl

/-- No level refers to a frame that is not there. -/
theorem get_of_mem {level : Level} (h : Mirrors e others a t) (hmem : level ∈ a.thread.levels) :
    a.engine.pool.get level.frame = .ok (level.inline a.engine.pool).frame :=
  h.lends.get_of_mem (List.mem_append_left _ (List.mem_map_of_mem hmem))

theorem topFrame? (h : Mirrors e others a t) : a.topFrame? = .ok t.topFrame? := by
  rw [InlineThread.topFrame?, h.levels_eq, Activity.topFrame?]
  cases hlevels : a.thread.levels with
  | nil => rfl
  | cons level rest =>
    show (a.engine.pool.get level.frame).map some = _
    rw [h.get_of_mem (hlevels ▸ List.mem_cons_self)]
    rfl

theorem parentFrame? (h : Mirrors e others a t) : a.parentFrame? = .ok t.parentFrame? := by
  rw [InlineThread.parentFrame?, h.levels_eq, Activity.parentFrame?]
  rcases hlevels : a.thread.levels with - | ⟨level, - | ⟨parent, rest⟩⟩
  · rfl
  · rfl
  · show (a.engine.pool.get parent.frame).map some = _
    rw [h.get_of_mem (hlevels ▸ List.mem_cons_of_mem _ List.mem_cons_self)]
    rfl

theorem inWarpMode (h : Mirrors e others a t) : a.inWarpMode = .ok t.inWarpMode := by
  rw [Activity.inWarpMode, h.topFrame?]
  rfl

/-- A change of the top frame in the pool is one of the top level, and of no other thread. -/
theorem modifyTopFrame (h : Mirrors e others a t) (change : Frame → Frame) :
    Agree (Mirrors e others) (a.modifyTopFrame change) (.ok (t.modifyTopFrame change)) := by
  obtain rfl := h.inline
  cases hlevels : a.thread.levels with
  | nil =>
    rw [Activity.modifyTopFrame, hlevels]
    refine .ok ⟨h.toSpares, ?_⟩
    simp [InlineThread.modifyTopFrame, InlineThread.withLevels, Activity.inline, Thread.inline,
      hlevels]
  | cons level rest =>
    -- The top frame belongs to no other level and to no other thread, so that they all keep theirs.
    obtain ⟨hrest, hothers, hlends⟩ := top_notMem h.toSpares hlevels
    obtain ⟨pool, hmodify, hlends', hself, hother⟩ := hlends.modify List.mem_cons_self change
    rw [Activity.modifyTopFrame, hlevels]
    show Agree _ ((a.engine.pool.modify level.frame change).map a.withPool) _
    rw [hmodify]
    have hframes : a.thread.frames ++ others = level.frame :: (rest.map Level.frame ++ others) := by
      rw [Thread.frames, hlevels, List.map_cons, List.cons_append]
    refine .ok ⟨⟨h.world, h.chronicle, hframes ▸ hlends', ?_⟩, ?_⟩
    · intro id hmem
      exact (hother id fun heq ↦ hothers (heq ▸ hmem)).trans (h.kept id hmem)
    · have hcongr : rest.map (Level.inline pool) = rest.map (Level.inline a.engine.pool) :=
        Level.map_inline_congr fun id hmem ↦ hother id fun heq ↦ hrest (heq ▸ hmem)
      simp [InlineThread.modifyTopFrame, InlineThread.withLevels, Activity.inline, Thread.inline,
        Activity.withPool, hlevels, Level.inline, hself, hcongr]

/-! ### Targets -/

/-- Recording a trace and changing anything in the thread but its levels. -/
theorem of_thread {a' : Activity} (h : Mirrors e others a t)
    (hworld : a'.engine.world = a.engine.world)
    (hchronicle : a'.engine.chronicle = a.engine.chronicle)
    (hpool : a'.engine.pool = a.engine.pool) (hlevels : a'.thread.levels = a.thread.levels) :
    Mirrors e others a' a'.inline :=
  ⟨h.toSpares.of_eq hworld hchronicle hpool hlevels, rfl⟩

/-- Switching to a target is the same on both sides. -/
theorem pushTarget (h : Mirrors e others a t) (target : TargetId) :
    Mirrors e others (a.pushTarget target) (t.pushTarget target) := by
  obtain rfl := h.inline
  exact h.of_thread rfl (Engine.chronicle_note_of_trace rfl) rfl rfl

/-- So is switching back, which fails on both sides if there is nothing to switch back to. -/
theorem popTarget (h : Mirrors e others a t) :
    Agree (Mirrors e others) a.popTarget t.popTarget := by
  obtain rfl := h.inline
  have hsame : a.inline.targetStack = a.thread.targetStack := rfl
  cases hstack : a.thread.targetStack with
  | nil =>
    rw [Activity.popTarget, InlineThread.popTarget, hsame, hstack]
    exact .error _
  | cons target targetStack =>
    rw [Activity.popTarget, InlineThread.popTarget, hsame, hstack]
    exact .ok (h.of_thread rfl (Engine.chronicle_note_of_trace rfl) rfl rfl)

/-- Whether a new level switches the target is decided alike. -/
theorem turnTo (h : Mirrors e others a t) (target : Option TargetId) :
    Mirrors e others (a.turnTo target).1 (t.turnTo target).1 ∧
      (a.turnTo target).2 = (t.turnTo target).2 := by
  cases target with
  | none => exact ⟨h, rfl⟩
  | some target =>
    rw [Activity.turnTo, InlineThread.turnTo, h.target_eq]
    by_cases htarget : target = a.thread.target
    · rw [if_pos htarget, if_pos htarget]
      exact ⟨h, rfl⟩
    · rw [if_neg htarget, if_neg htarget]
      exact ⟨h.pushTarget target, rfl⟩

/-! ### Levels -/

/-- Pushing after the target is settled. -/
private theorem push_turned (h : Mirrors e others a t) (block : BlockId) (switched : Bool) :
    Agree (Mirrors e others)
      (do
        let warpMode ← a.inWarpMode
        let (frame, pool) ← a.engine.pool.create warpMode
        let a := (a.withPool pool).note (.pushed block a.thread.depth)
        return a.withLevels (⟨some block, frame, switched⟩ :: a.thread.levels))
      (.ok (t.withLevels (⟨some block, Frame.ofMode t.inWarpMode, switched⟩ :: t.levels))) := by
  obtain ⟨id, pool, hcreate, hlends, hself, hother⟩ := h.lends.create t.inWarpMode
  rw [h.inWarpMode]
  show Agree _ (a.engine.pool.create t.inWarpMode >>= _) _
  rw [hcreate]
  have hmine : ∀ id' ∈ a.thread.frames, pool.frameAt id' = a.engine.pool.frameAt id' :=
    fun id' hmem ↦ hother id' (List.mem_append_left _ hmem)
  refine .ok ⟨⟨h.world, ?_, hlends, ?_⟩, ?_⟩
  · exact (Engine.chronicle_note_of_trace rfl).trans h.chronicle
  · intro id' hmem
    exact (hother id' (List.mem_append_right _ hmem)).trans (h.kept id' hmem)
  · obtain rfl := h.inline
    simp only [Activity.inline, Thread.inline, Activity.withLevels, Activity.note,
      Activity.withPool, Engine.note, InlineThread.withLevels, List.map_cons,
      Level.map_inline_congr hmine]
    rw [Level.inline, hself]
    rfl

/-- **A new level** gets a frame from the pool here, and a fresh one there. -/
theorem push (h : Mirrors e others a t) (block : BlockId) (target : Option TargetId) :
    Agree (Mirrors e others) (a.push block target) (.ok (t.push block target)) := by
  obtain ⟨hturned, hswitched⟩ := h.turnTo target
  rw [Activity.push, InlineThread.push]
  rcases ha : a.turnTo target with ⟨a', switched⟩
  rcases ht : t.turnTo target with ⟨t', switched'⟩
  rw [ha, ht] at hturned hswitched
  obtain rfl : switched = switched' := hswitched
  exact hturned.push_turned block switched

/-- **A level that is used again** gets its frame renewed in place. -/
theorem reuse (h : Mirrors e others a t) (block : Option BlockId) :
    Agree (Mirrors e others) (a.reuse block) (t.reuse block) := by
  obtain rfl := h.inline
  cases hlevels : a.thread.levels with
  | nil =>
    rw [Activity.reuse, InlineThread.reuse, h.levels_eq, hlevels]
    exact .error _
  | cons level rest =>
    obtain ⟨hrest, hothers, hlends⟩ := top_notMem h.toSpares hlevels
    obtain ⟨pool, hmodify, hlends', hself, hother⟩ := hlends.modify List.mem_cons_self Frame.renewed
    rw [Activity.reuse, InlineThread.reuse, h.levels_eq, hlevels]
    show Agree _ (a.engine.pool.modify level.frame Frame.renewed >>= _) _
    rw [hmodify]
    refine .ok ⟨⟨h.world, h.chronicle, hlends', ?_⟩, ?_⟩
    · intro id hmem
      exact (hother id fun heq ↦ hothers (heq ▸ hmem)).trans (h.kept id hmem)
    · have hcongr : rest.map (Level.inline pool) = rest.map (Level.inline a.engine.pool) :=
        Level.map_inline_congr fun id hmem ↦ hother id fun heq ↦ hrest (heq ▸ hmem)
      simp [InlineThread.withLevels, Activity.inline, Thread.inline, Activity.withPool,
        Activity.withLevels, Level.inline, hself, hcongr]

/-- Releasing the top level's frame, before the target is restored. -/
private theorem release_top {level : Level} {rest : List Level} (h : Mirrors e others a t)
    (hlevels : a.thread.levels = level :: rest) (event : Event) (htrace : event.severity = .trace) :
    ∃ pool, a.engine.pool.release level.frame = .ok pool ∧
      Mirrors e others (((a.withLevels rest).note event).withPool pool)
        (t.withLevels (rest.map (Level.inline a.engine.pool))) := by
  obtain rfl := h.inline
  obtain ⟨-, -, hlends⟩ := top_notMem h.toSpares hlevels
  obtain ⟨pool, hrelease, hlends', hother⟩ := hlends.release
  refine ⟨pool, hrelease, ⟨h.world, ?_, hlends', ?_⟩, ?_⟩
  · exact (Engine.chronicle_note_of_trace htrace).trans h.chronicle
  · intro id hmem
    exact (hother id (List.mem_append_right _ hmem)).trans (h.kept id hmem)
  · have hcongr : rest.map (Level.inline pool) = rest.map (Level.inline a.engine.pool) :=
      Level.map_inline_congr fun id hmem ↦ hother id (List.mem_append_left _ hmem)
    simp [InlineThread.withLevels, Activity.inline, Thread.inline, Activity.withPool,
      Activity.withLevels, Activity.note, hcongr]

/-- Results that come with a value: the values are equal, and the states are related. -/
def WithValue {α : Type} (R : Activity → InlineThread → Prop) (x : α × Activity)
    (y : α × InlineThread) : Prop :=
  x.1 = y.1 ∧ R x.2 y.2

/-- **A level that is left** gives its frame back to the pool. -/
theorem pop (h : Mirrors e others a t) :
    Agree (WithValue (Mirrors e others)) a.pop t.pop := by
  cases hlevels : a.thread.levels with
  | nil =>
    rw [Activity.pop, InlineThread.pop, h.levels_eq, hlevels]
    exact .ok ⟨rfl, h⟩
  | cons level rest =>
    obtain ⟨pool, hrelease, hpopped⟩ :=
      h.release_top hlevels (.popped level.block rest.length) rfl
    rw [Activity.pop, InlineThread.pop, h.levels_eq, hlevels]
    show Agree _ (a.engine.pool.release level.frame >>= _) _
    rw [hrelease]
    set a' := ((a.withLevels rest).note (.popped level.block rest.length)).withPool pool
    set t' := t.withLevels (rest.map (Level.inline a.engine.pool))
    show Agree _
      (if level.switched then a'.popTarget >>= fun a ↦ .ok (level.block, a)
        else .ok (level.block, a'))
      (if level.switched then t'.popTarget >>= fun t ↦ .ok (level.block, t)
        else .ok (level.block, t'))
    -- Restoring the target can fail, and then it fails on both sides.
    cases level.switched with
    | false => exact .ok ⟨rfl, hpopped⟩
    | true => exact hpopped.popTarget.bind fun _ _ hrestored ↦ .ok ⟨rfl, hrestored⟩

/-- Both sides look for the next block in the same graph. -/
theorem nextBlock? (h : Mirrors e others a t) : a.nextBlock? = t.nextBlock? e.world := by
  rw [Activity.nextBlock?, InlineThread.nextBlock?, h.peek?_eq, h.target_eq, Activity.graph?,
    h.graph?]

/-- The top level moves on to the next block on both sides. -/
theorem advance (h : Mirrors e others a t) :
    Agree (Mirrors e others) a.advance (t.advance e.world) := by
  rw [Activity.advance, InlineThread.advance, ← h.nextBlock?]
  exact h.reuse _

/-! ### Unwinding -/

/-- Whether a level is a call is a matter of its block. -/
theorem isCall (h : Mirrors e others a t) (level : Level) :
    a.isCall level = t.isCall e.world (level.inline a.engine.pool) := by
  rw [Activity.isCall, InlineThread.isCall, h.target_eq, Activity.graph?, h.graph?]
  rfl

/-- By induction on the levels that may be left. -/
theorem unwind (rounds : Nat) : ∀ {a : Activity} {t : InlineThread}, Mirrors e others a t →
    Agree (Mirrors e others) (Activity.unwind rounds a) (t.unwind e.world rounds) := by
  induction rounds with
  | zero => exact fun h ↦ .ok h
  | succ rounds ih =>
    intro a t h
    rw [Activity.unwind, InlineThread.unwind, h.levels_eq]
    cases hlevels : a.thread.levels with
    | nil => exact .ok h
    | cons level rest =>
      show Agree _ (a.engine.pool.get level.frame >>= _) _
      rw [h.get_of_mem (hlevels ▸ List.mem_cons_self)]
      show Agree _ (if (level.inline a.engine.pool).frame.waitingReporter then _ else _)
        (if (level.inline a.engine.pool).frame.waitingReporter then _ else _)
      cases (level.inline a.engine.pool).frame.waitingReporter with
      | true => exact .ok h
      | false =>
        show Agree _ (if a.isCall level then _ else _)
          (if t.isCall e.world (level.inline a.engine.pool) then _ else _)
        rw [← h.isCall level]
        cases a.isCall level with
        | true => exact h.advance
        | false => exact h.pop.bind fun x y hxy ↦ ih hxy.2

/-- A thread without levels is done on both sides. -/
theorem settle (h : Mirrors e others a t) : Mirrors e others a.settle t.settle := by
  obtain rfl := h.inline
  have hinline : a.settle.inline = a.inline.settle := by
    cases hlevels : a.thread.levels <;>
      simp [Activity.settle, InlineThread.settle, Activity.inline, Thread.inline, hlevels]
  rw [← hinline]
  cases hlevels : a.thread.levels with
  | nil =>
    rw [Activity.settle, hlevels]
    exact h.of_thread rfl rfl rfl rfl
  | cons level rest =>
    rw [Activity.settle, hlevels]
    exact h

/-- Stopping a script, which is unwinding and settling. -/
theorem stopScript (h : Mirrors e others a t) :
    Agree (Mirrors e others) a.stopScript (t.stopScript e.world) := by
  rw [Activity.stopScript, InlineThread.stopScript, h.depth_eq]
  exact (unwind _ h).map fun _ _ h' ↦ h'.settle

/-- Leaving all levels, by induction on how many there may be. -/
theorem unwindAll (rounds : Nat) : ∀ {a : Activity} {t : InlineThread}, Mirrors e others a t →
    Agree (Mirrors e others) (Activity.unwindAll rounds a) (t.unwindAll rounds) := by
  induction rounds with
  | zero => exact fun h ↦ .ok h
  | succ rounds ih => exact fun h ↦ h.pop.bind fun x y hxy ↦ ih hxy.2

/-- Ending a thread. -/
theorem kill (h : Mirrors e others a t) : Agree (Mirrors e others) a.kill (t.kill e.world) := by
  rw [Activity.kill, InlineThread.kill, h.depth_eq]
  exact (unwindAll _ h).bind fun _ _ h' ↦ h'.stopScript

/-! ### Parameters and enclosing calls -/

/-- The top frame gets an empty table of arguments. -/
theorem initParams (h : Mirrors e others a t) :
    Agree (Mirrors e others) a.initParams (.ok t.initParams) :=
  h.modifyTopFrame _

/-- An argument is set in the top frame, which fails on both sides if it has no table. -/
theorem setParam (h : Mirrors e others a t) (name : String) (value : Value) :
    Agree (Mirrors e others) (a.setParam name value) (t.setParam name value) := by
  rw [Activity.setParam, InlineThread.setParam, h.topFrame?]
  rcases t.topFrame? with - | ⟨_, _, _, _, _, _, - | params, _⟩
  · exact .ok h
  · exact .error _
  · exact h.modifyTopFrame _

/-- The nearest parameters, read off the frames that a list of levels has in the pool. -/
private theorem nearestParams? {levels : List Level} (h : Mirrors e others a t)
    (hsub : ∀ level ∈ levels, level ∈ a.thread.levels) :
    Activity.nearestParams? a.engine.pool levels =
      .ok ((levels.map (Level.inline a.engine.pool)).findSome? fun level ↦ level.frame.params) := by
  induction levels with
  | nil => rfl
  | cons level rest ih =>
    rw [Activity.nearestParams?, h.get_of_mem (hsub level List.mem_cons_self), List.map_cons,
      List.findSome?_cons]
    cases hparams : (level.inline a.engine.pool).frame.params with
    | some params => simp only [bind, Except.bind, hparams, pure, Except.pure]
    | none =>
      simp only [bind, Except.bind, hparams]
      exact ih fun level' hmem ↦ hsub level' (List.mem_cons_of_mem _ hmem)

/-- **Looking up an argument** never fails, and finds the same. -/
theorem param? (h : Mirrors e others a t) (name : String) :
    a.param? name = .ok (t.param? name) := by
  rw [Activity.param?, h.nearestParams? fun level hmem ↦ List.mem_of_mem_drop hmem,
    InlineThread.param?, h.levels_eq, List.drop_one, ← List.map_tail]
  rfl

/-- **Looking for an enclosing call** never fails, and finds the same. -/
theorem isRecursiveCall (h : Mirrors e others a t) (code : String) :
    a.isRecursiveCall code = .ok (t.isRecursiveCall e.world code) := by
  rw [Activity.isRecursiveCall,
    Activity.enclosing_eq fun level hmem ↦ h.get_of_mem (List.mem_of_mem_drop hmem),
    InlineThread.isRecursiveCall, InlineThread.enclosing, h.levels_eq, List.drop_one,
    ← List.map_tail, h.target_eq, h.resolve?]
  rfl

end Mirrors

end BlockScript
