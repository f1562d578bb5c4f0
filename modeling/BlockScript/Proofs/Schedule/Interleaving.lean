import BlockScript.Proofs.Schedule.Sharing

/-!
# Interleaved threads on one engine

Several threads share an engine, and their operations come in any order. A **move** is an operation
together with the position of the thread that it is asked of, and `Schedule.play` makes moves one
after another until one of them fails.

## What is shared, and what can be seen of it

All that the threads share and change is the pool of frames. Inline threads share nothing, so a list
of them can be played with one at a time (`InlineThread.play_of_playAll`); a schedule agrees with
the list of inline threads that it looks like, move by move (`Mirrored.move`), hence over a whole
play (`Mirrored.play`).

* `observe_play_eq` is the refinement: whatever can be asked of a thread after a play has the
  answer that an inline thread gives which made the thread's own moves and nothing else.
* `play_owned` is the bookkeeping behind it: the pool's free list and flags are right after every
  play, and a play that fails does so because of what a caller did (`Halt.IsMisuse`).
-/

namespace BlockScript

/-! ### Operations and moves -/

/-- What can be asked of a thread that changes it. -/
inductive Operation where
  /-- Push a block, on another target if one is given. -/
  | push (block : BlockId) (target : Option TargetId)
  /-- Pop the top level. -/
  | pop
  /-- Put another block in place of the top level's. -/
  | reuse (block : Option BlockId)
  /-- Move the top level on to the next block. -/
  | advance
  /-- Stop the innermost script. -/
  | stopScript
  /-- Turn to another target. -/
  | pushTarget (target : TargetId)
  /-- Turn back to the target before. -/
  | popTarget
  /-- Give the top level parameters. -/
  | initParams
  /-- Set a parameter of the top level. -/
  | setParam (name : String) (value : Value)
  /-- Write to the frame of the top level. -/
  | modifyTopFrame (change : Frame → Frame)

/-- Carries an operation out. Only popping gives a block. -/
def Activity.operate (a : Activity) : Operation → Except Halt (Option BlockId × Activity)
  | .push block target => (a.push block target).map fun a ↦ (none, a)
  | .pop => a.pop
  | .reuse block => (a.reuse block).map fun a ↦ (none, a)
  | .advance => a.advance.map fun a ↦ (none, a)
  | .stopScript => a.stopScript.map fun a ↦ (none, a)
  | .pushTarget target => .ok (none, a.pushTarget target)
  | .popTarget => a.popTarget.map fun a ↦ (none, a)
  | .initParams => a.initParams.map fun a ↦ (none, a)
  | .setParam name value => (a.setParam name value).map fun a ↦ (none, a)
  | .modifyTopFrame change => (a.modifyTopFrame change).map fun a ↦ (none, a)

/-- Carries an operation out on an inline thread. -/
def InlineThread.operate (w : World) (t : InlineThread) :
    Operation → Except Halt (Option BlockId × InlineThread)
  | .push block target => .ok (none, t.push block target)
  | .pop => t.pop
  | .reuse block => (t.reuse block).map fun t ↦ (none, t)
  | .advance => (t.advance w).map fun t ↦ (none, t)
  | .stopScript => (t.stopScript w).map fun t ↦ (none, t)
  | .pushTarget target => .ok (none, t.pushTarget target)
  | .popTarget => t.popTarget.map fun t ↦ (none, t)
  | .initParams => .ok (none, t.initParams)
  | .setParam name value => (t.setParam name value).map fun t ↦ (none, t)
  | .modifyTopFrame change => .ok (none, t.modifyTopFrame change)

/-- Carries operations out in order, with what each of them gives. -/
def InlineThread.play (w : World) (t : InlineThread) :
    List Operation → Except Halt (List (Option BlockId) × InlineThread)
  | [] => .ok ([], t)
  | operation :: rest => do
    let (given, t) ← t.operate w operation
    let (further, t) ← t.play w rest
    return (given :: further, t)

namespace Schedule

/-- New threads on an engine, one for each top block and target. -/
def fresh (e : Engine) (scripts : List (BlockId × TargetId)) : Schedule :=
  ⟨e, scripts.map fun script ↦ { topBlock := script.1, target := script.2 }⟩

/-- Carries an operation out on the thread at a position. Where there is no thread nothing
happens. -/
def move (s : Schedule) (position : Nat) (operation : Operation) :
    Except Halt (Option BlockId × Schedule) :=
  match s.threads[position]? with
  | none => .ok (none, s)
  | some t => do
    let (given, a) ← Activity.operate ⟨s.engine, t⟩ operation
    return (given, ⟨a.engine, s.threads.set position a.thread⟩)

/-- Makes moves in order, with what each of them gives. -/
def play (s : Schedule) : List (Nat × Operation) →
    Except Halt (List (Nat × Option BlockId) × Schedule)
  | [] => .ok ([], s)
  | (position, operation) :: rest => do
    let (given, s) ← s.move position operation
    let (further, s) ← s.play rest
    return ((position, given) :: further, s)

/-- What belongs to one position in a list over positions, in order. -/
def own {α : Type} (position : Nat) (entries : List (Nat × α)) : List α :=
  (entries.filter fun entry ↦ entry.1 == position).map Prod.snd

theorem own_cons_self {α : Type} (position : Nat) (x : α) (entries : List (Nat × α)) :
    own position ((position, x) :: entries) = x :: own position entries := by
  simp [own]

theorem own_cons_of_ne {α : Type} {position other : Nat} (h : other ≠ position) (x : α)
    (entries : List (Nat × α)) : own position ((other, x) :: entries) = own position entries := by
  simp [own, h]

end Schedule

/-! ### Observations -/

/-- Everything that can be asked of a thread without changing it. -/
structure Observation where
  /-- The block at work. -/
  block : Option BlockId
  /-- The frames of all levels, innermost first. -/
  frames : Except Halt (List Frame)
  /-- The frame of the level below the top one. -/
  parentFrame : Except Halt (Option Frame)
  /-- The parameters, as seen from the top level. -/
  param : String → Except Halt (Option Value)
  /-- Whether a call of a procedure would recurse. -/
  recursive : String → Except Halt Bool
  /-- The number of levels. -/
  depth : Nat
  /-- The target it is on. -/
  target : TargetId
  /-- What it is doing. -/
  status : Status

/-- What can be asked of a thread at work on an engine. -/
def Activity.observe (a : Activity) : Observation where
  block := a.thread.peek?
  frames := a.thread.levels.mapM fun level ↦ a.engine.pool.get level.frame
  parentFrame := a.parentFrame?
  param := a.param?
  recursive := a.isRecursiveCall
  depth := a.thread.depth
  target := a.thread.target
  status := a.thread.status

/-- What can be asked of an inline thread. None of it can fail. -/
def InlineThread.observe (w : World) (t : InlineThread) : Observation where
  block := t.peek?
  frames := .ok (t.levels.map InlineLevel.frame)
  parentFrame := .ok t.parentFrame?
  param name := .ok (t.param? name)
  recursive code := .ok (t.isRecursiveCall w code)
  depth := t.depth
  target := t.target
  status := t.status

namespace Mirrors

variable {e : Engine} {others : List FrameId} {a : Activity} {t : InlineThread}

private theorem mapM_get {levels : List Level} (h : Mirrors e others a t)
    (hsub : ∀ level ∈ levels, level ∈ a.thread.levels) :
    (levels.mapM fun level ↦ a.engine.pool.get level.frame) =
      .ok ((levels.map (Level.inline a.engine.pool)).map InlineLevel.frame) := by
  induction levels with
  | nil => rfl
  | cons level rest ih =>
    rw [List.mapM_cons, h.get_of_mem (hsub level List.mem_cons_self),
      ih fun level' hmem ↦ hsub level' (List.mem_cons_of_mem _ hmem)]
    rfl

/-- **Related states cannot be told apart.** -/
theorem observe (h : Mirrors e others a t) : a.observe = t.observe e.world := by
  simp only [Activity.observe, InlineThread.observe, h.peek?_eq, h.depth_eq, h.target_eq,
    h.status_eq, h.parentFrame?, h.mapM_get fun _ ↦ id, h.levels_eq, Observation.mk.injEq, true_and,
    and_true]
  exact ⟨funext h.param?, funext h.isRecursiveCall⟩

theorem operate (h : Mirrors e others a t) (operation : Operation) :
    Agree (WithValue (Mirrors e others)) (a.operate operation) (t.operate e.world operation) := by
  cases operation with
  | push block target => exact (h.push block target).map fun _ _ h' ↦ ⟨rfl, h'⟩
  | pop => exact h.pop
  | reuse block => exact (h.reuse block).map fun _ _ h' ↦ ⟨rfl, h'⟩
  | advance => exact h.advance.map fun _ _ h' ↦ ⟨rfl, h'⟩
  | stopScript => exact h.stopScript.map fun _ _ h' ↦ ⟨rfl, h'⟩
  | pushTarget target => exact .ok ⟨rfl, h.pushTarget target⟩
  | popTarget => exact h.popTarget.map fun _ _ h' ↦ ⟨rfl, h'⟩
  | initParams => exact h.initParams.map fun _ _ h' ↦ ⟨rfl, h'⟩
  | setParam name value => exact (h.setParam name value).map fun _ _ h' ↦ ⟨rfl, h'⟩
  | modifyTopFrame change => exact (h.modifyTopFrame change).map fun _ _ h' ↦ ⟨rfl, h'⟩

end Mirrors

/-! ### Inline threads side by side -/

namespace InlineThread

/-- Carries an operation out on one of several inline threads. -/
def moveAt (w : World) (ts : List InlineThread) (position : Nat) (operation : Operation) :
    Except Halt (Option BlockId × List InlineThread) :=
  match ts[position]? with
  | none => .ok (none, ts)
  | some t => do
    let (given, t) ← t.operate w operation
    return (given, ts.set position t)

/-- Makes moves in order on several inline threads. -/
def playAll (w : World) (ts : List InlineThread) : List (Nat × Operation) →
    Except Halt (List (Nat × Option BlockId) × List InlineThread)
  | [] => .ok ([], ts)
  | (position, operation) :: rest => do
    let (given, ts) ← moveAt w ts position operation
    let (further, ts) ← playAll w ts rest
    return ((position, given) :: further, ts)

variable {w : World} {ts ts' : List InlineThread} {position : Nat} {operation : Operation}
  {given : Option BlockId}

/-- A move at another position leaves an inline thread alone. -/
theorem getElem?_moveAt_of_ne {other : Nat} (hne : position ≠ other)
    (h : moveAt w ts position operation = .ok (given, ts')) : ts'[other]? = ts[other]? := by
  rw [moveAt] at h
  split at h
  · cases h
    rfl
  · obtain ⟨⟨given', t'⟩, -, h⟩ := exists_of_bind_eq_ok h
    cases h
    exact List.getElem?_set_ne hne

theorem length_moveAt (h : moveAt w ts position operation = .ok (given, ts')) :
    ts'.length = ts.length := by
  rw [moveAt] at h
  split at h
  · cases h
    rfl
  · obtain ⟨⟨given', t'⟩, -, h⟩ := exists_of_bind_eq_ok h
    cases h
    exact List.length_set

theorem length_playAll : ∀ {moves : List (Nat × Operation)} {ts ts' : List InlineThread}
    {answers : List (Nat × Option BlockId)},
    playAll w ts moves = .ok (answers, ts') → ts'.length = ts.length := by
  intro moves
  induction moves with
  | nil =>
    intro ts ts' answers h
    cases h
    rfl
  | cons move rest ih =>
    intro ts ts' answers h
    obtain ⟨⟨given, ts₁⟩, hmove, h⟩ := exists_of_bind_eq_ok h
    obtain ⟨⟨further, ts₂⟩, hrest, h⟩ := exists_of_bind_eq_ok h
    cases h
    exact (ih hrest).trans (length_moveAt hmove)

/-- A move at an inline thread's own position is the operation. -/
theorem operate_of_moveAt {t : InlineThread} (ht : ts[position]? = some t)
    (h : moveAt w ts position operation = .ok (given, ts')) :
    ∃ t', t.operate w operation = .ok (given, t') ∧ ts'[position]? = some t' := by
  rw [moveAt, ht] at h
  obtain ⟨⟨given', t'⟩, hop, h⟩ := exists_of_bind_eq_ok h
  cases h
  exact ⟨t', hop, List.getElem?_set_self (List.getElem?_eq_some_iff.1 ht).1⟩

/-- **Inline threads do not meet.** Each of them ends as if it had made its own moves alone. -/
theorem play_of_playAll : ∀ {moves : List (Nat × Operation)} {ts ts' : List InlineThread}
    {answers : List (Nat × Option BlockId)} {t : InlineThread},
    playAll w ts moves = .ok (answers, ts') → ts[position]? = some t →
      ∃ t', t.play w (Schedule.own position moves) = .ok (Schedule.own position answers, t') ∧
        ts'[position]? = some t' := by
  intro moves
  induction moves with
  | nil =>
    intro ts ts' answers t h ht
    cases h
    exact ⟨t, rfl, ht⟩
  | cons move rest ih =>
    obtain ⟨at', operation⟩ := move
    intro ts ts' answers t h ht
    obtain ⟨⟨given, ts₁⟩, hmove, h⟩ := exists_of_bind_eq_ok h
    obtain ⟨⟨further, ts₂⟩, hrest, h⟩ := exists_of_bind_eq_ok h
    cases h
    by_cases hat : at' = position
    · subst hat
      obtain ⟨t₁, hop, ht₁⟩ := operate_of_moveAt ht hmove
      obtain ⟨t', hplay, ht'⟩ := ih hrest ht₁
      refine ⟨t', ?_, ht'⟩
      rw [Schedule.own_cons_self, Schedule.own_cons_self, play, hop]
      simp only [bind, Except.bind, hplay]
      rfl
    · rw [Schedule.own_cons_of_ne hat, Schedule.own_cons_of_ne hat]
      exact ih hrest ((getElem?_moveAt_of_ne hat hmove).trans ht)

theorem onlyMisuse_operate (w : World) (t : InlineThread) (operation : Operation) :
    Halt.OnlyMisuse (t.operate w operation) := by
  cases operation with
  | push block target => exact onlyMisuse_ok _
  | pop => exact onlyMisuse_pop t
  | reuse block => exact onlyMisuse_map (onlyMisuse_reuse t block)
  | advance => exact onlyMisuse_map (onlyMisuse_reuse t _)
  | stopScript => exact onlyMisuse_map (onlyMisuse_stopScript w t)
  | pushTarget target => exact onlyMisuse_ok _
  | popTarget => exact onlyMisuse_map (onlyMisuse_popTarget t)
  | initParams => exact onlyMisuse_ok _
  | setParam name value => exact onlyMisuse_map (onlyMisuse_setParam t name value)
  | modifyTopFrame change => exact onlyMisuse_ok _

theorem onlyMisuse_playAll (w : World) : ∀ (moves : List (Nat × Operation))
    (ts : List InlineThread), Halt.OnlyMisuse (playAll w ts moves) := by
  intro moves
  induction moves with
  | nil => exact fun ts ↦ onlyMisuse_ok _
  | cons move rest ih =>
    obtain ⟨position, operation⟩ := move
    intro ts
    have hmove : Halt.OnlyMisuse (moveAt w ts position operation) := by
      rw [moveAt]
      split
      · exact onlyMisuse_ok _
      · exact onlyMisuse_bind (onlyMisuse_operate w _ operation) fun _ ↦ onlyMisuse_ok _
    exact onlyMisuse_bind hmove fun x ↦ onlyMisuse_bind (ih x.2) fun _ ↦ onlyMisuse_ok _

end InlineThread

/-! ### A schedule and its inline threads -/

namespace Schedule.Mirrored

variable {w : World} {s : Schedule} {ts : List InlineThread}

/-- **One move.** -/
theorem move (h : Mirrored w s ts) (position : Nat) (operation : Operation) :
    Agree (fun x y ↦ x.1 = y.1 ∧ Mirrored w x.2 y.2) (s.move position operation)
      (InlineThread.moveAt w ts position operation) := by
  rw [Schedule.move, InlineThread.moveAt, h.getElem?]
  rcases ht : s.threads[position]? with - | t
  · exact .ok ⟨rfl, h⟩
  · have hlt := (List.getElem?_eq_some_iff.1 ht).1
    have hop := (h.activity ht).operate operation
    rw [h.world] at hop
    exact hop.bind fun x y hxy ↦ .ok ⟨hxy.1, h.set hlt hxy.2.reports⟩

/-- **A whole play**, by induction from one move. -/
theorem play (moves : List (Nat × Operation)) : ∀ {s : Schedule} {ts : List InlineThread},
    Mirrored w s ts → Agree (fun x y ↦ x.1 = y.1 ∧ Mirrored w x.2 y.2) (s.play moves)
      (InlineThread.playAll w ts moves) := by
  induction moves with
  | nil => exact fun h ↦ .ok ⟨rfl, h⟩
  | cons move rest ih =>
    obtain ⟨position, operation⟩ := move
    intro s ts h
    refine (h.move position operation).bind fun x y hxy ↦ ?_
    refine (ih hxy.2).bind fun x' y' hxy' ↦ .ok ⟨?_, hxy'.2⟩
    show (position, x.1) :: x'.1 = (position, y.1) :: y'.1
    rw [hxy.1, hxy'.1]

/-- New threads hold no frames. -/
theorem fresh {e : Engine} (hpool : e.pool = Pool.empty) (scripts : List (BlockId × TargetId)) :
    Mirrored e.world (Schedule.fresh e scripts)
      (scripts.map fun script ↦ { topBlock := script.1, target := script.2 }) where
  world := rfl
  lends := by
    have hheld : (Schedule.fresh e scripts).held = [] := by
      simp only [Schedule.held, Schedule.fresh, List.flatMap_map]
      simp [Thread.frames]
    rw [hheld, show (Schedule.fresh e scripts).engine.pool = Pool.empty from hpool]
    exact Pool.lends_empty
  inline := by
    rw [Schedule.fresh, List.map_map]
    rfl

end Schedule.Mirrored

/-! ### The two theorems -/

namespace Schedule

/-- **Pooled frames refine inline frames.** After any play of new threads on one engine, every
thread answers every question as an inline thread does that made the thread's own moves and nothing
else, and the blocks that were popped off it are the same. In particular no move changes what can be
seen of a thread at another position. -/
theorem observe_play_eq {e : Engine} (hpool : e.pool = Pool.empty)
    {scripts : List (BlockId × TargetId)} {moves : List (Nat × Operation)}
    {answers : List (Nat × Option BlockId)} {s : Schedule}
    (hplay : (fresh e scripts).play moves = .ok (answers, s)) :
    s.threads.length = scripts.length ∧
    (∀ (position : Nat) (script : BlockId × TargetId), scripts[position]? = some script →
      ∃ t t', s.threads[position]? = some t ∧
        InlineThread.play e.world { topBlock := script.1, target := script.2 }
          (own position moves) = .ok (own position answers, t') ∧
        Activity.observe ⟨s.engine, t⟩ = t'.observe e.world) ∧
    ∀ (position other : Nat) (operation : Operation) (given : Option BlockId) (s' : Schedule)
      (t : Thread), other ≠ position → s.threads[position]? = some t →
      s.move other operation = .ok (given, s') →
        s'.threads[position]? = some t ∧
          Activity.observe ⟨s'.engine, t⟩ = Activity.observe ⟨s.engine, t⟩ := by
  -- The whole play is first matched by all inline threads at once; what each of them did by itself
  -- is then read off that.
  have hagree := Mirrored.play moves (Mirrored.fresh hpool scripts)
  rw [hplay] at hagree
  obtain ⟨⟨answers', ts⟩, hall, rfl, hs⟩ := hagree.exists_right
  have hobserve : ∀ {s' : Schedule} {ts' : List InlineThread} {position : Nat} {t : Thread}
      {t' : InlineThread}, Mirrored e.world s' ts' → s'.threads[position]? = some t →
        ts'[position]? = some t' → Activity.observe ⟨s'.engine, t⟩ = t'.observe e.world := by
    intro s' ts' position t t' hs' ht ht'
    rw [hs'.getElem?, ht] at ht'
    obtain rfl := Option.some.inj ht'
    rw [(hs'.activity ht).observe, hs'.world]
  refine ⟨?_, ?_, ?_⟩
  · rw [← hs.length_eq, InlineThread.length_playAll hall, List.length_map]
  · intro position script hscript
    obtain ⟨t', hown, ht'⟩ := InlineThread.play_of_playAll hall
      (List.getElem?_map.trans (congrArg (Option.map _) hscript))
    obtain ⟨t, ht, -⟩ := Option.map_eq_some_iff.1 ((hs.getElem? position).symm.trans ht')
    exact ⟨t, t', ht, hown, hobserve hs ht ht'⟩
  · intro position other operation given s' t hne ht hmove
    have hmoved := hs.move other operation
    rw [hmove] at hmoved
    obtain ⟨⟨given', ts'⟩, hmoveAt, -, hs'⟩ := hmoved.exists_right
    have hsame := InlineThread.getElem?_moveAt_of_ne hne hmoveAt
    have ht' : s'.threads[position]? = some t := by
      rw [Schedule.move] at hmove
      split at hmove
      · cases hmove
        exact ht
      · obtain ⟨x, -, hmove⟩ := exists_of_bind_eq_ok hmove
        cases hmove
        exact (List.getElem?_set_ne hne).trans ht
    -- The move may have changed the pool, but not this inline thread, which the answers depend on.
    have hts : ts[position]? = some (t.inline s.engine.pool) := by rw [hs.getElem?, ht]; rfl
    exact ⟨ht', (hobserve hs' ht' (hsame.trans hts)).trans (hobserve hs ht hts).symm⟩

/-- The second thread takes the cell that the first one wrote to and gave back, and cannot tell. -/
theorem observe_play_recycled :
    ∃ answers s, (fresh { settings := ⟨30, 0, 0, false⟩ } [("a", ⟨0⟩), ("b", ⟨0⟩)]).play
        [(0, .push "a" none), (0, .modifyTopFrame fun f ↦ { f with isLoop := true }), (0, .pop),
          (1, .push "b" none), (0, .push "a" none)] = .ok (answers, s) ∧ s.held = [⟨1⟩, ⟨0⟩] ∧
      ∃ t t', s.threads[1]? = some t ∧
        InlineThread.play ⟨⟨30, 0, 0, false⟩, []⟩ { topBlock := "b", target := ⟨0⟩ }
          [.push "b" none] = .ok (own 1 answers, t') ∧
        Activity.observe ⟨s.engine, t⟩ = t'.observe ⟨⟨30, 0, 0, false⟩, []⟩ := by
  obtain ⟨answers, s, hplay, hheld⟩ : ∃ answers s,
      (fresh { settings := ⟨30, 0, 0, false⟩ } [("a", ⟨0⟩), ("b", ⟨0⟩)]).play
        [(0, .push "a" none), (0, .modifyTopFrame fun f ↦ { f with isLoop := true }), (0, .pop),
          (1, .push "b" none), (0, .push "a" none)] = .ok (answers, s) ∧ s.held = [⟨1⟩, ⟨0⟩] :=
    ⟨_, _, rfl, rfl⟩
  exact ⟨answers, s, hplay, hheld, (observe_play_eq rfl hplay).2.1 1 ("b", ⟨0⟩) rfl⟩

/-- The position of the frame of a level, both counted from zero and levels innermost first. -/
def framePosition? (s : Schedule) (thread level : Nat) : Option FrameId :=
  ((s.threads[thread]?).bind fun t ↦ t.levels[level]?).map Level.frame

/-- The number of levels of all threads. -/
def levelCount (s : Schedule) : Nat :=
  s.threads.foldl (fun count t ↦ count + t.depth) 0

/-- **Ownership.** The bookkeeping of the pool is right: what is free, what is in use and by whom,
and how much of it. -/
structure Owned (s : Schedule) : Prop where
  /-- There are as many frames as flags. This holds of every pool, since a cell has one of each;
  it would say something of a pool that kept frames and flags apart. -/
  size_eq : (s.engine.pool.cells.map Cell.frame).size = (s.engine.pool.cells.map Cell.inUse).size
  /-- No position is listed twice as free. -/
  free_nodup : s.engine.pool.free.Nodup
  /-- The free positions are those within the pool that are not flagged. -/
  mem_free_iff : ∀ id, id ∈ s.engine.pool.free ↔
    id.cell < s.engine.pool.capacity ∧ s.engine.pool.isInUse id = false
  /-- The frame at a free position is blank. -/
  get_of_mem_free : ∀ id ∈ s.engine.pool.free, s.engine.pool.get id = .ok Frame.blank
  /-- A flagged position is that of one level of one thread. -/
  existsUnique_of_isInUse : ∀ id, s.engine.pool.isInUse id = true →
    ∃! place : Nat × Nat, s.framePosition? place.1 place.2 = some id
  /-- The position of a level's frame lies within the pool and is flagged. -/
  isInUse_of_framePosition? : ∀ thread level id, s.framePosition? thread level = some id →
    id.cell < s.engine.pool.capacity ∧ s.engine.pool.isInUse id = true
  /-- There are no more free positions than there are positions. -/
  freeCount_le : s.engine.pool.freeCount ≤ s.engine.pool.capacity
  /-- As many frames are in use as there are levels. -/
  inUseCount_eq : s.engine.pool.inUseCount = s.levelCount

theorem framePosition?_eq_some_iff {s : Schedule} {thread level : Nat} {id : FrameId} :
    s.framePosition? thread level = some id ↔
      ∃ t, s.threads[thread]? = some t ∧ t.frames[level]? = some id := by
  simp only [framePosition?, Option.map_eq_some_iff, Option.bind_eq_some_iff, Thread.frames,
    List.getElem?_map]
  constructor
  · rintro ⟨l, ⟨t, ht, hl⟩, rfl⟩
    exact ⟨t, ht, l, hl, rfl⟩
  · rintro ⟨t, ht, l, hl, rfl⟩
    exact ⟨l, ⟨t, ht, hl⟩, rfl⟩

theorem mem_held_iff {s : Schedule} {id : FrameId} :
    id ∈ s.held ↔ ∃ thread level, s.framePosition? thread level = some id := by
  simp only [held, List.mem_flatMap, framePosition?_eq_some_iff]
  constructor
  · rintro ⟨t, ht, hid⟩
    obtain ⟨thread, hthread⟩ := List.mem_iff_getElem?.1 ht
    obtain ⟨level, hlevel⟩ := List.mem_iff_getElem?.1 hid
    exact ⟨thread, level, t, hthread, hlevel⟩
  · rintro ⟨thread, level, t, hthread, hlevel⟩
    exact ⟨t, List.mem_of_getElem? hthread, List.mem_of_getElem? hlevel⟩

/-- Frames that are held once are the frames of one level each. -/
theorem framePosition?_injective {s : Schedule} (hnodup : s.held.Nodup) {id : FrameId}
    {place place' : Nat × Nat} (h : s.framePosition? place.1 place.2 = some id)
    (h' : s.framePosition? place'.1 place'.2 = some id) : place = place' := by
  obtain ⟨t, ht, hid⟩ := framePosition?_eq_some_iff.1 h
  obtain ⟨t', ht', hid'⟩ := framePosition?_eq_some_iff.1 h'
  have hthread : place.1 = place'.1 := by
    by_contra hne
    have hnodup' := (perm_held ht).nodup_iff.1 hnodup
    exact (List.nodup_append.1 hnodup').2.2 id (List.mem_of_getElem? hid) id
      (mem_heldBut (Ne.symm hne) ht' (List.mem_of_getElem? hid')) rfl
  rw [← hthread, ht] at ht'
  obtain rfl := Option.some.inj ht'
  have hframes : t.frames.Nodup :=
    (List.nodup_append.1 ((perm_held ht).nodup_iff.1 hnodup)).1
  have hlt := (List.getElem?_eq_some_iff.1 hid).1
  exact Prod.ext hthread ((List.getElem?_inj hlt hframes).1 (hid.trans hid'.symm))

theorem length_held (s : Schedule) : s.held.length = s.levelCount := by
  have hfold : ∀ (threads : List Thread) (count : Nat),
      threads.foldl (fun count t ↦ count + t.depth) count =
        count + (threads.flatMap Thread.frames).length := by
    intro threads
    induction threads with
    | nil => exact fun count ↦ rfl
    | cons t rest ih =>
      intro count
      rw [List.foldl_cons, ih, List.flatMap_cons, List.length_append, Thread.frames,
        List.length_map, Thread.depth, Nat.add_assoc]
  rw [levelCount, hfold, Nat.zero_add, held]

/-- A pool that has lent out exactly the frames of all levels keeps its books in order. -/
theorem owned_of_lends {s : Schedule} (h : s.engine.pool.Lends s.held) : s.Owned where
  size_eq := by simp
  free_nodup := h.free_nodup
  mem_free_iff := by
    intro id
    constructor
    · intro hmem
      have hcell := h.cell?_of_mem_free hmem
      exact ⟨Pool.lt_size_of_cell? hcell, Pool.isInUse_of_cell? hcell⟩
    · rintro ⟨hlt, hflag⟩
      obtain ⟨⟨f, flag⟩, hcell⟩ := Pool.exists_cell? hlt
      obtain rfl : flag = false := (Pool.isInUse_of_cell? hcell).symm.trans hflag
      exact h.mem_free_iff.2 ⟨f, hcell⟩
  get_of_mem_free := by
    intro id hmem
    rw [Pool.get, Pool.cell_eq_ok_of_cell? (h.cell?_of_mem_free hmem)]
    rfl
  existsUnique_of_isInUse := by
    intro id hflag
    obtain ⟨f, hcell⟩ := Pool.exists_of_isInUse hflag
    obtain ⟨thread, level, hplace⟩ := mem_held_iff.1 (h.mem_held_iff.2 ⟨f, hcell⟩)
    exact ⟨(thread, level), hplace, fun place hplace' ↦
      framePosition?_injective h.held_nodup hplace' hplace⟩
  isInUse_of_framePosition? := by
    intro thread level id hplace
    have hcell := h.cell?_of_mem (mem_held_iff.2 ⟨thread, level, hplace⟩)
    exact ⟨Pool.lt_size_of_cell? hcell, Pool.isInUse_of_cell? hcell⟩
  freeCount_le := by
    have hsum := h.freeCount_add_length
    omega
  inUseCount_eq := h.inUseCount_eq.trans s.length_held

/-- **Every play keeps the pool's books in order**, for as long as it goes; and where a move fails,
it is the caller who broke a rule, so that no frame is released twice and none is addressed that the
pool does not have. -/
theorem play_owned (e : Engine) (scripts : List (BlockId × TargetId))
    (moves : List (Nat × Operation)) :
    match (fresh { e with pool := Pool.empty } scripts).play moves with
    | .ok (_, s) => s.Owned
    | .error cause => cause.IsMisuse := by
  set e' : Engine := { e with pool := Pool.empty }
  have hagree := Mirrored.play moves (Mirrored.fresh (e := e') rfl scripts)
  rcases hplay : (fresh e' scripts).play moves with cause | ⟨answers, s⟩
  · rw [hplay] at hagree
    exact InlineThread.onlyMisuse_playAll _ moves _ cause hagree.eq_error
  · rw [hplay] at hagree
    obtain ⟨⟨answers', ts⟩, -, -, hs⟩ := hagree.exists_right
    exact owned_of_lends hs.lends

end Schedule

end BlockScript
