import BlockScript.Proofs.Schedule.Sharing
import BlockScript.Proofs.Thread.StackMachine

/-!
# Schedules that are driven

`Schedule.Driven w s` is what holds of a schedule from its start on, frame after frame: the pool has
lent out exactly the frames of all levels, and every thread rests at a stack of the stack machine.
It is all that is known of the **other** threads when one thread is looked at, and enough to see
that they leave it alone:

* `Driven.turn` is one thread's turn. The thread does what it would do with its frames inline, and
  the others stay as they are, except that they may be marked (`InlineThread.unmarked` forgets the
  mark);
* `Driven.foldlM` is the turns of several other threads;
* `Driven.sweep` is the end of a frame, where it matters that a thread that is done holds no frames;
* `driven_start` is the start, with what every thread looks like there.
-/

namespace BlockScript

/-- The thread without the mark that it is to be unwound. -/
def InlineThread.unmarked (t : InlineThread) : InlineThread :=
  { t with killed := false }

theorem InlineThread.unmarked_of_killed_eq {t : InlineThread} (h : t.killed = false) :
    t.unmarked = t := by
  cases t
  cases h
  rfl

/-- Marking a thread does not move it. -/
theorem Rests.mark {w : World} {target : TargetId} {lot : Lot} {stack : Stack} {t : InlineThread}
    (h : Rests w target lot stack t) (killed : Bool) :
    Rests w target ⟨killed, lot.compilation⟩ stack { t with killed } := by
  have hlot : InlineThread.lot { t with killed } = ⟨killed, lot.compilation⟩ :=
    congrArg (Lot.mk killed) (congrArg Lot.compilation h.lot_eq)
  rw [Rests] at h ⊢
  split at h
  · rw [if_pos ‹_›]
    exact ⟨h.1, h.2.1, h.2.2.1, hlot⟩
  · rw [if_neg ‹_›]
    exact ⟨h.target_eq, h.blocks_eq, h.shape, h.live, hlot⟩

namespace Schedule

/-- **What holds of a schedule from its start on.** -/
structure Driven (w : World) (s : Schedule) : Prop where
  /-- The settings and the targets. -/
  world : s.engine.world = w
  /-- The pool has lent out the frames of all threads. -/
  lends : s.engine.pool.Lends s.held
  /-- Every thread rests at a stack. -/
  rests : ∀ t ∈ s.threads, ∃ target lot stack, Rests w target lot stack (t.inline s.engine.pool)

/-! ### Marks -/

/-- Marking changes nothing in a thread but the mark, and leaves the one at the position alone. -/
theorem getElem?_markOthers (request : Option StopRequest) (position : Nat) (threads : List Thread)
    (i : Nat) : ∃ mark : Thread → Bool, (∀ t, i = position → mark t = t.killed) ∧
      (markOthers request position threads)[i]? =
        (threads[i]?).map fun t ↦ { t with killed := mark t } := by
  cases request with
  | none =>
    refine ⟨Thread.killed, fun t _ ↦ rfl, ?_⟩
    rw [markOthers]
    cases threads[i]? <;> rfl
  | some request =>
    refine ⟨fun t ↦ if i ≠ position ∧ isStopped request t then true else t.killed, ?_, ?_⟩
    · rintro t rfl
      exact if_neg fun h ↦ h.1 rfl
    · rw [markOthers, List.getElem?_mapIdx]
      cases threads[i]? with
      | none => rfl
      | some t =>
        simp only [Option.map_some]
        split <;> rfl

/-- Marking threads does not change their number. -/
theorem length_markOthers (request : Option StopRequest) (position : Nat) (threads : List Thread) :
    (markOthers request position threads).length = threads.length := by
  cases request with
  | none => rfl
  | some request => exact List.length_mapIdx

/-- The schedule after one thread's turn. -/
def afterTurn (s : Schedule) (position : Nat) (request : Option StopRequest) (a : Activity) :
    Schedule :=
  ⟨a.engine, markOthers request position (s.threads.set position a.thread)⟩

/-- Nor does a turn. -/
theorem length_afterTurn (s : Schedule) (position : Nat) (request : Option StopRequest)
    (a : Activity) : (afterTurn s position request a).threads.length = s.threads.length := by
  rw [afterTurn, length_markOthers, List.length_set]

/-- A thread's turn, as a step of the schedule. -/
theorem exists_of_stepAt {step : Nat → Activity → Except Halt (Option StopRequest × Activity)}
    {s s' : Schedule} {position : Nat} {t : Thread} (ht : s.threads[position]? = some t)
    (hstep : stepAt step s position = .ok s') :
    ∃ request a, step position ⟨s.engine, t⟩ = .ok (request, a) ∧
      s' = afterTurn s position request a := by
  rw [stepAt, ht] at hstep
  obtain ⟨⟨request, a⟩, hturn, hs'⟩ := exists_of_bind_eq_ok hstep
  cases hs'
  exact ⟨request, a, hturn, rfl⟩

/-- A turn that returns is a step of the schedule. -/
theorem stepAt_eq_ok {step : Nat → Activity → Except Halt (Option StopRequest × Activity)}
    {s : Schedule} {position : Nat} {t : Thread} {request : Option StopRequest} {a : Activity}
    (ht : s.threads[position]? = some t) (hturn : step position ⟨s.engine, t⟩ = .ok (request, a)) :
    stepAt step s position = .ok (afterTurn s position request a) := by
  rw [stepAt, ht]
  dsimp only
  rw [hturn]
  rfl

namespace Driven

variable {w : World} {s : Schedule}

/-- What the threads of a driven schedule look like. -/
theorem mirrored (h : Driven w s) :
    Mirrored w s (s.threads.map (Thread.inline s.engine.pool)) :=
  ⟨h.world, h.lends, rfl⟩

/-- **Marks do not matter.** A schedule whose threads differ in their marks alone is driven too. -/
theorem remark (h : Driven w s) {threads : List Thread}
    (hmark : ∀ i : Nat, ∃ mark : Thread → Bool,
      threads[i]? = (s.threads[i]?).map fun t ↦ { t with killed := mark t }) :
    Driven w ⟨s.engine, threads⟩ where
  world := h.world
  lends := by
    have hframes : threads.map Thread.frames = s.threads.map Thread.frames := by
      refine List.ext_getElem? fun i ↦ ?_
      obtain ⟨mark, hi⟩ := hmark i
      rw [List.getElem?_map, List.getElem?_map, hi]
      cases s.threads[i]? <;> rfl
    have hheld : held ⟨s.engine, threads⟩ = s.held := by
      rw [held, held, List.flatMap_def, List.flatMap_def, hframes]
    rw [hheld]
    exact h.lends
  rests := by
    intro t hmem
    obtain ⟨i, hi⟩ := List.mem_iff_getElem?.1 hmem
    obtain ⟨mark, hmark⟩ := hmark i
    obtain ⟨t₀, ht₀, rfl⟩ := Option.map_eq_some_iff.1 (hmark.symm.trans hi)
    obtain ⟨target, lot, stack, hrests⟩ := h.rests t₀ (List.mem_of_getElem? ht₀)
    exact ⟨target, _, stack, hrests.mark (mark t₀)⟩

/-- Marking threads leaves a schedule driven. -/
theorem markOthers (h : Driven w s) (request : Option StopRequest) (position : Nat) :
    Driven w ⟨s.engine, Schedule.markOthers request position s.threads⟩ := by
  refine h.remark fun i ↦ ?_
  obtain ⟨mark, -, hmark⟩ := getElem?_markOthers request position s.threads i
  exact ⟨mark, hmark⟩

/-! ### One thread's turn -/

variable {deadline : Time} {shown : Readings} {turns position : Nat} {request : Option StopRequest}
  {t : Thread} {a : Activity}

/-- A thread's turn reports what the turn of the inline thread gives. -/
theorem reports (h : Driven w s) (ht : s.threads[position]? = some t)
    (hturn : Activity.takeTurn ⟨s.engine, t⟩ deadline shown turns = .ok (request, a)) :
    ∃ blocks, (t.inline s.engine.pool).takeTurn w deadline shown turns =
        .ok (blocks, request, a.inline) ∧
      Reports s.engine (s.heldBut position) blocks a a.inline := by
  have hagree := (h.mirrored.activity ht).takeTurn deadline shown turns
  rw [hturn, h.world] at hagree
  obtain ⟨⟨blocks, request', t'⟩, hok, hrequest, hreports⟩ := hagree.exists_right
  obtain rfl : request = request' := hrequest
  have hinline : a.inline = t' := hreports.inline
  exact ⟨blocks, hinline ▸ hok, hinline ▸ hreports⟩

/-- A thread's turn comes to a result if that of the inline thread does. -/
theorem takeTurn_of_inline {r : List BlockId × Option StopRequest × InlineThread}
    (h : Driven w s) (ht : s.threads[position]? = some t)
    (hturn : (t.inline s.engine.pool).takeTurn w deadline shown turns = .ok r) :
    ∃ result, Activity.takeTurn ⟨s.engine, t⟩ deadline shown turns = .ok result := by
  have hagree := (h.mirrored.activity ht).takeTurn deadline shown turns
  rw [h.world, hturn] at hagree
  obtain ⟨result, hok, -⟩ := hagree.exists_left
  exact ⟨result, hok⟩

/-- **One thread's turn** leaves the schedule driven. -/
theorem turn (h : Driven w s) (ht : s.threads[position]? = some t)
    (hturn : Activity.takeTurn ⟨s.engine, t⟩ deadline shown turns = .ok (request, a)) :
    Driven w (afterTurn s position request a) := by
  obtain ⟨blocks, hinline, hreports⟩ := h.reports ht hturn
  have hlt := (List.getElem?_eq_some_iff.1 ht).1
  have hset := h.mirrored.set hlt hreports
  obtain ⟨target, lot, stack, hrests⟩ := h.rests t (List.mem_of_getElem? ht)
  obtain ⟨stack', hrests'⟩ := hrests.exists_of_takeTurn hinline
  have hdriven : Driven w ⟨a.engine, s.threads.set position a.thread⟩ := by
    refine ⟨hset.world, hset.lends, fun t' hmem ↦ ?_⟩
    -- A thread at another position looks as before, since its frames were spared.
    obtain ⟨i, hi⟩ := List.mem_iff_getElem?.1 hmem
    by_cases hposition : i = position
    · subst hposition
      rw [List.getElem?_set_self hlt] at hi
      obtain rfl := Option.some.inj hi
      exact ⟨target, lot, stack', hrests'⟩
    · rw [List.getElem?_set_ne (Ne.symm hposition)] at hi
      obtain ⟨target', lot', stack'', hother⟩ := h.rests t' (List.mem_of_getElem? hi)
      refine ⟨target', lot', stack'', ?_⟩
      have hsame : t'.inline a.engine.pool = t'.inline s.engine.pool :=
        Thread.inline_congr fun id hmem ↦ hreports.kept id (mem_heldBut hposition hi hmem)
      show Rests w target' lot' stack'' (t'.inline a.engine.pool)
      rw [hsame]
      exact hother
  exact hdriven.markOthers request position

/-- After its turn the thread is the one that the turn left. -/
theorem getElem?_afterTurn (ht : s.threads[position]? = some t) :
    (afterTurn s position request a).threads[position]? = some a.thread := by
  have hlt := (List.getElem?_eq_some_iff.1 ht).1
  obtain ⟨mark, hown, hmark⟩ :=
    getElem?_markOthers request position (s.threads.set position a.thread) position
  rw [afterTurn, hmark, List.getElem?_set_self hlt, Option.map_some, hown _ rfl]

/-- The other threads are as before, marks apart. -/
theorem getElem?_afterTurn_of_ne {other : Nat} {t' : Thread} (h : Driven w s)
    (ht : s.threads[position]? = some t)
    (hturn : Activity.takeTurn ⟨s.engine, t⟩ deadline shown turns = .ok (request, a))
    (hne : other ≠ position) (ht' : s.threads[other]? = some t') :
    ∃ t'', (afterTurn s position request a).threads[other]? = some t'' ∧
      (t''.inline a.engine.pool).unmarked = (t'.inline s.engine.pool).unmarked := by
  obtain ⟨blocks, -, hreports⟩ := h.reports ht hturn
  obtain ⟨mark, -, hmark⟩ :=
    getElem?_markOthers request position (s.threads.set position a.thread) other
  rw [List.getElem?_set_ne (Ne.symm hne), ht', Option.map_some] at hmark
  refine ⟨_, hmark, ?_⟩
  have hsame : t'.inline a.engine.pool = t'.inline s.engine.pool :=
    Thread.inline_congr fun id hmem ↦ hreports.kept id (mem_heldBut hne ht' hmem)
  rw [← hsame]
  rfl

/-- **The turns of other threads**, one after another: the thread at a position is as before, its
mark apart. -/
theorem foldlM {s₀ : Schedule} {clock : Clock} {other : Nat} (positions : List Nat)
    (hother : other ∉ positions) :
    ∀ {s s' : Schedule} {t : Thread}, Driven w s → s.threads[other]? = some t →
      positions.foldlM (stepAt (s₀.turnIn clock turns)) s = .ok s' →
        Driven w s' ∧ s'.threads.length = s.threads.length ∧ ∃ t', s'.threads[other]? = some t' ∧
          (t'.inline s'.engine.pool).unmarked = (t.inline s.engine.pool).unmarked := by
  induction positions with
  | nil =>
    intro s s' t h ht hfold
    cases hfold
    exact ⟨h, rfl, t, ht, rfl⟩
  | cons position rest ih =>
    intro s s' t h ht hfold
    rw [List.foldlM_cons] at hfold
    obtain ⟨s₁, hstep, hrest⟩ := exists_of_bind_eq_ok hfold
    rw [List.mem_cons, not_or] at hother
    rcases hposition : s.threads[position]? with - | t₁
    · -- There is no thread at that position, and nothing happens.
      rw [stepAt, hposition] at hstep
      cases hstep
      exact ih hother.2 h ht hrest
    · obtain ⟨request, a, hturn, rfl⟩ := exists_of_stepAt hposition hstep
      obtain ⟨t₂, ht₂, hsame⟩ := h.getElem?_afterTurn_of_ne hposition hturn hother.1 ht
      obtain ⟨hdriven, hlength, t', ht', hsame'⟩ := ih hother.2 (h.turn hposition hturn) ht₂ hrest
      exact ⟨hdriven, hlength.trans (length_afterTurn s position request a), t', ht',
        hsame'.trans hsame⟩

/-! ### The end of a frame -/

/-- A thread that is done holds no frames. -/
theorem frames_eq_nil (h : Driven w s) (hmem : t ∈ s.threads) (hdone : t.status = .done) :
    t.frames = [] := by
  obtain ⟨target, lot, stack, hrests⟩ := h.rests t hmem
  have hstack : stack = [] := hrests.status_eq_done_iff.1 hdone
  subst hstack
  have hlevels : t.levels.map (Level.inline s.engine.pool) = [] := hrests.levels_eq_nil
  rw [Thread.frames, List.map_eq_nil_iff.1 hlevels, List.map_nil]

/-- Leaving out elements that contribute nothing. -/
private theorem flatMap_filter {α β : Type} {p : α → Bool} {f : α → List β} {l : List α}
    (h : ∀ x ∈ l, p x = false → f x = []) : (l.filter p).flatMap f = l.flatMap f := by
  induction l with
  | nil => rfl
  | cons x rest ih =>
    have hrest := ih fun y hmem ↦ h y (List.mem_cons_of_mem _ hmem)
    rw [List.filter_cons, List.flatMap_cons, ← hrest]
    cases hx : p x with
    | true => rfl
    | false =>
      rw [h x List.mem_cons_self hx]
      rfl

/-- **The end of a frame**: the frames of threads that are done have been given back by then. -/
theorem sweep (h : Driven w s) : Driven w s.sweep where
  world := h.world
  lends := by
    have hheld : s.sweep.held = s.held := by
      refine flatMap_filter fun t hmem hdone ↦ h.frames_eq_nil hmem ?_
      simpa using hdone
    rw [hheld]
    exact h.lends
  rests := fun t hmem ↦ h.rests t (List.mem_of_mem_filter hmem)

end Driven

end Schedule

/-! ### The start -/

/-- What a thread keeps of compiling its script. -/
def Compilation.ofResult : Except CompileError Program → Compilation
  | .ok program => .compiled program
  | .error _ => .failed

/-- What comes of compiling a script when it is started, where that is asked for. -/
def Engine.compilation (e : Engine) (hat : BlockId × TargetId) : Except Halt Compilation :=
  if e.settings.compileScripts then
    (StraightLine.compile e hat.2 hat.1).map Compilation.ofResult
  else .ok .pending

/-- A thread right after its start: its one level is at the first block. -/
def InlineThread.started (hat : BlockId × TargetId) (compilation : Compilation) : InlineThread where
  topBlock := hat.1
  levels := [⟨some hat.1, Frame.ofMode false, false⟩]
  target := hat.2
  compilation := compilation
  scriptGlow := true

/-- A thread starts at its hat. -/
theorem Rests.started (w : World) (hat : BlockId × TargetId) (compilation : Compilation) :
    Rests w hat.2 ⟨false, compilation⟩ [some hat.1] (InlineThread.started hat compilation) := by
  refine Stands.rests ⟨rfl, rfl, ⟨⟨rfl, rfl, ?_⟩, ?_⟩, .inl rfl, rfl⟩ (List.cons_ne_nil _ _)
  · intro hflag
    cases hflag
  · intro level hmem
    cases hmem

/-- Compiling looks at the targets alone. -/
theorem StraightLine.follow_congr {e e' : Engine} (hresolve : e.resolve? = e'.resolve?)
    (target : TargetId) (steps : Nat) :
    ∀ id, follow e target steps id = follow e' target steps id := by
  induction steps with
  | zero => exact fun id ↦ rfl
  | succ steps ih =>
    intro id
    rw [follow, follow, hresolve]
    cases e'.resolve? target id with
    | none => rfl
    | some block =>
      dsimp only
      split
      · rfl
      · cases block.next with
        | none => rfl
        | some next => dsimp only; rw [ih next]

/-- Compiling a script looks at the targets alone. -/
theorem StraightLine.compile_congr {e e' : Engine} (htargets : e.targets = e'.targets)
    (target : TargetId) (id : BlockId) : compile e target id = compile e' target id := by
  have hresolve : e.resolve? = e'.resolve? := by
    rw [← Engine.resolve?_world, ← Engine.resolve?_world]
    show World.resolve? ⟨e.settings, e.targets⟩ = World.resolve? ⟨e'.settings, e'.targets⟩
    rw [htargets]
    rfl
  rw [compile, compile, follow_congr hresolve, Engine.blockCount, Engine.blockCount, htargets]

theorem Engine.compilation_congr {e e' : Engine} (hworld : e.world = e'.world)
    (hat : BlockId × TargetId) : e.compilation hat = e'.compilation hat := by
  have hsettings : e.settings = e'.settings := congrArg World.settings hworld
  have htargets : e.targets = e'.targets := congrArg World.targets hworld
  rw [Engine.compilation, Engine.compilation, hsettings, StraightLine.compile_congr htargets]

namespace Schedule

variable {e : Engine}

/-- Compiling a thread that was just started decides its lot and changes nothing else. -/
private theorem exists_of_compile {hat : BlockId × TargetId} {a a' : Activity}
    (hinline : a.inline = InlineThread.started hat .pending)
    (hcompile : (if a.engine.settings.compileScripts then a.compile StraightLine.compile
      else .ok a) = .ok a') :
    ∃ compilation, a.engine.compilation hat = .ok compilation ∧
      a'.engine.world = a.engine.world ∧ a'.engine.pool = a.engine.pool ∧
      a'.thread.frames = a.thread.frames ∧ a'.inline = InlineThread.started hat compilation := by
  have htop : a.thread.topBlock = hat.1 := congrArg InlineThread.topBlock hinline
  have htarget : a.thread.target = hat.2 := congrArg InlineThread.target hinline
  have hpending : a.thread.compilation = .pending := congrArg InlineThread.compilation hinline
  rw [Engine.compilation]
  by_cases hasked : a.engine.settings.compileScripts = true
  · rw [if_pos hasked, Activity.compile, hpending] at hcompile
    dsimp only at hcompile
    rw [htop, htarget] at hcompile
    rw [if_pos hasked]
    rcases hresult : StraightLine.compile a.engine hat.2 hat.1 with cause | result
    · rw [hresult] at hcompile
      cases hcompile
    · rw [hresult] at hcompile
      refine ⟨_, rfl, ?_⟩
      rcases result with cause | program
      · cases hcompile
        exact ⟨rfl, rfl, rfl,
          congrArg (fun t : InlineThread ↦ { t with compilation := .failed }) hinline⟩
      · cases hcompile
        exact ⟨rfl, rfl, rfl,
          congrArg (fun t : InlineThread ↦ { t with compilation := .compiled program }) hinline⟩
  · rw [if_neg hasked] at hcompile ⊢
    cases hcompile
    exact ⟨_, rfl, rfl, rfl, rfl, hinline⟩

/-- **Starting one script** beside others that hold frames already. -/
theorem exists_of_startScript {others : List FrameId} {hat : BlockId × TargetId} {a : Activity}
    (hlends : e.pool.Lends others) (hstart : startScript e hat = .ok a) :
    ∃ compilation, e.compilation hat = .ok compilation ∧ a.engine.world = e.world ∧
      a.engine.pool.Lends (a.thread.frames ++ others) ∧
      (∀ id ∈ others, a.engine.pool.frameAt id = e.pool.frameAt id) ∧
      a.inline = InlineThread.started hat compilation := by
  have hfresh : Mirrors e others ⟨e, { topBlock := hat.1, target := hat.2 }⟩
      { topBlock := hat.1, target := hat.2 } :=
    ⟨⟨rfl, rfl, hlends, fun _ _ ↦ rfl⟩, rfl⟩
  rw [startScript] at hstart
  -- The thread holds no frame until its top block is pushed.
  obtain ⟨a₁, hpush, hrest⟩ := exists_of_bind_eq_ok hstart
  have hpushed := hfresh.push hat.1 none
  rw [hpush] at hpushed
  obtain ⟨t₁, ht₁, h₁⟩ := hpushed.exists_right
  cases ht₁
  have hinline : { a₁.inline with scriptGlow := true } = InlineThread.started hat .pending := by
    rw [h₁.inline]
    rfl
  obtain ⟨compilation, hcompile, hworld, hpool, hframes, hinline'⟩ :=
    exists_of_compile (a := ⟨a₁.engine, { a₁.thread with scriptGlow := true }⟩) hinline hrest
  refine ⟨compilation, ?_, hworld.trans h₁.world, ?_, ?_, hinline'⟩
  · rw [← hcompile]
    exact Engine.compilation_congr h₁.world.symm hat
  · rw [hpool, hframes]
    exact h₁.lends
  · rw [hpool]
    exact h₁.kept

/-- **Starting scripts** beside others that hold frames already. -/
theorem exists_of_startScripts (hats : List (BlockId × TargetId)) : ∀ {e : Engine} {s : Schedule}
    {others : List FrameId}, e.pool.Lends others → startScripts e hats = .ok s →
      s.engine.world = e.world ∧ s.engine.pool.Lends (s.held ++ others) ∧
      (∀ id ∈ others, s.engine.pool.frameAt id = e.pool.frameAt id) ∧
      s.threads.length = hats.length ∧
      ∀ (position : Nat) (hat : BlockId × TargetId) (t : Thread), hats[position]? = some hat →
        s.threads[position]? = some t → ∃ compilation, e.compilation hat = .ok compilation ∧
          t.inline s.engine.pool = InlineThread.started hat compilation := by
  induction hats with
  | nil =>
    intro e s others hlends hstart
    cases hstart
    refine ⟨rfl, hlends, fun _ _ ↦ rfl, rfl, fun position hat t hhat ↦ ?_⟩
    cases hhat
  | cons first rest ih =>
    intro e s others hlends hstart
    rw [startScripts] at hstart
    obtain ⟨a, ha, hstart₁⟩ := exists_of_bind_eq_ok hstart
    obtain ⟨s', hs', hstart₂⟩ := exists_of_bind_eq_ok hstart₁
    cases hstart₂
    obtain ⟨compilation, hcompile, hworld, hlends', hkept, hinline⟩ :=
      exists_of_startScript hlends ha
    obtain ⟨hworld', hlends'', hkept', hlength, hthreads⟩ := ih hlends' hs'
    refine ⟨hworld'.trans hworld, ?_, ?_, ?_, ?_⟩
    · have hperm : (s'.held ++ (a.thread.frames ++ others)).Perm
          (held { s' with threads := a.thread :: s'.threads } ++ others) := by
        rw [← List.append_assoc]
        exact List.Perm.append_right others List.perm_append_comm
      exact hlends''.perm hperm
    · exact fun id hmem ↦ (hkept' id (List.mem_append_right _ hmem)).trans (hkept id hmem)
    · rw [List.length_cons, List.length_cons, hlength]
    · intro position hat t hhat ht
      cases position with
      | zero =>
        obtain rfl := Option.some.inj hhat
        obtain rfl := Option.some.inj ht
        -- Scripts that start later take other frames, so the first thread still looks as it did.
        have hsame : a.thread.inline s'.engine.pool = a.inline :=
          Thread.inline_congr fun id hmem ↦ hkept' id (List.mem_append_left _ hmem)
        exact ⟨compilation, hcompile, hsame.trans hinline⟩
      | succ position =>
        obtain ⟨compilation', hcompile', hinline'⟩ := hthreads position hat t hhat ht
        exact ⟨compilation', Engine.compilation_congr hworld hat ▸ hcompile', hinline'⟩

/-- **The start.** The schedule is driven, with one thread for each hat, at its first block. -/
theorem driven_start {s : Schedule} (hpool : e.pool = Pool.empty) (hstart : start e = .ok s) :
    Driven e.world s ∧ s.threads.length = (hats e).length ∧
      ∀ (position : Nat) (hat : BlockId × TargetId) (t : Thread), (hats e)[position]? = some hat →
        s.threads[position]? = some t → ∃ compilation, e.compilation hat = .ok compilation ∧
          t.inline s.engine.pool = InlineThread.started hat compilation := by
  obtain ⟨hworld, hlends, -, hlength, hthreads⟩ :=
    exists_of_startScripts (hats e) (hpool ▸ Pool.lends_empty) hstart
  rw [List.append_nil] at hlends
  refine ⟨⟨hworld, hlends, fun t hmem ↦ ?_⟩, hlength, hthreads⟩
  obtain ⟨position, ht⟩ := List.mem_iff_getElem?.1 hmem
  have hlt : position < (hats e).length := hlength ▸ (List.getElem?_eq_some_iff.1 ht).1
  obtain ⟨compilation, -, hinline⟩ :=
    hthreads position _ t (List.getElem?_eq_getElem hlt) ht
  rw [hinline]
  exact ⟨_, _, _, Rests.started e.world _ compilation⟩

/-- A script can be started if compiling it, where that is asked for, comes to a result. -/
theorem exists_startScript {others : List FrameId} {hat : BlockId × TargetId}
    {compilation : Compilation} (hlends : e.pool.Lends others)
    (hcompile : e.compilation hat = .ok compilation) : ∃ a, startScript e hat = .ok a := by
  have hfresh : Mirrors e others ⟨e, { topBlock := hat.1, target := hat.2 }⟩
      { topBlock := hat.1, target := hat.2 } :=
    ⟨⟨rfl, rfl, hlends, fun _ _ ↦ rfl⟩, rfl⟩
  obtain ⟨a, hpush, h⟩ := (hfresh.push hat.1 none).exists_left
  rw [startScript, hpush]
  rw [← Engine.compilation_congr h.world, Engine.compilation] at hcompile
  show ∃ a', (if a.engine.settings.compileScripts then Activity.compile
    ⟨a.engine, { a.thread with scriptGlow := true }⟩ StraightLine.compile else .ok _) = .ok a'
  by_cases hasked : a.engine.settings.compileScripts = true
  · have htop : a.thread.topBlock = hat.1 := congrArg InlineThread.topBlock h.inline
    have htarget : a.thread.target = hat.2 := congrArg InlineThread.target h.inline
    have hpending : a.thread.compilation = .pending := congrArg InlineThread.compilation h.inline
    rw [if_pos hasked] at hcompile ⊢
    rw [Activity.compile]
    dsimp only
    rw [hpending, htop, htarget]
    dsimp only
    rcases hresult : StraightLine.compile a.engine hat.2 hat.1 with cause | result
    · rw [hresult] at hcompile
      cases hcompile
    · exact ⟨_, rfl⟩
  · rw [if_neg hasked]
    exact ⟨_, rfl⟩

/-- The scripts are started if compiling each of them has a result. -/
theorem exists_startScripts (hats : List (BlockId × TargetId)) : ∀ {e : Engine}
    {others : List FrameId}, e.pool.Lends others →
      (∀ hat ∈ hats, ∃ compilation, e.compilation hat = .ok compilation) →
      ∃ s, startScripts e hats = .ok s := by
  induction hats with
  | nil => exact fun _ _ ↦ ⟨_, rfl⟩
  | cons hat rest ih =>
    intro e others hlends hcompile
    obtain ⟨compilation, hfirst⟩ := hcompile hat List.mem_cons_self
    obtain ⟨a, ha⟩ := exists_startScript hlends hfirst
    obtain ⟨-, -, hworld, hlends', -⟩ := exists_of_startScript hlends ha
    obtain ⟨s, hs⟩ := ih hlends' fun hat' hmem ↦ by
      rw [Engine.compilation_congr hworld]
      exact hcompile hat' (List.mem_cons_of_mem _ hmem)
    refine ⟨{ s with threads := a.thread :: s.threads }, ?_⟩
    rw [startScripts, ha]
    show (startScripts a.engine rest >>= _) = _
    rw [hs]
    rfl

/-- **Scripts can be started** if compiling them, where that is asked for, comes to a result. -/
theorem exists_start (hpool : e.pool = Pool.empty)
    (hcompile : ∀ hat ∈ hats e, ∃ compilation, e.compilation hat = .ok compilation) :
    ∃ s, start e = .ok s :=
  exists_startScripts (hats e) (hpool ▸ Pool.lends_empty) hcompile

end Schedule

/-! ### Engines of projects -/

/-- Loading targets adds them to the world and takes no frame. -/
theorem Engine.foldl_load (targets : List Target) : ∀ e : Engine,
    (targets.foldl Engine.load e).pool = e.pool ∧
      (targets.foldl Engine.load e).world = ⟨e.settings, e.targets ++ targets⟩ := by
  induction targets with
  | nil => exact fun e ↦ ⟨rfl, by rw [List.append_nil]; rfl⟩
  | cons target rest ih =>
    intro e
    obtain ⟨hpool, hworld⟩ := ih (e.load target)
    refine ⟨hpool, hworld.trans ?_⟩
    show (⟨e.settings, (e.targets ++ [target]) ++ rest⟩ : World) = ⟨e.settings, _⟩
    rw [List.append_assoc]
    rfl

theorem Engine.pool_ofProject (settings : Settings) (project : Project) :
    (Engine.ofProject settings project).pool = Pool.empty :=
  (Engine.foldl_load project.targets { settings }).1

theorem Engine.world_ofProject (settings : Settings) (project : Project) :
    (Engine.ofProject settings project).world = ⟨settings, project.targets⟩ :=
  (Engine.foldl_load project.targets { settings }).2

theorem Engine.targets_ofProject (settings : Settings) (project : Project) :
    (Engine.ofProject settings project).targets = project.targets :=
  congrArg World.targets (Engine.world_ofProject settings project)

theorem Engine.settings_ofProject (settings : Settings) (project : Project) :
    (Engine.ofProject settings project).settings = settings :=
  congrArg World.settings (Engine.world_ofProject settings project)

end BlockScript
