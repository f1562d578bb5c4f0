import BlockScript.Proofs.Activity.Nesting

/-!
# Where a stop of the innermost script ends

A stop pops levels until one **catches** it: a level whose frame waits for a reporter, or one that
is at a procedure call. Whether a level is at a call is decided on the target that is at work when
the level comes to the top, and every level above it that had switched the target has been popped
by then. So which level catches the stop depends on the switches above it, and this module says how.

* `Activity.targetAfter?` is the target at work once so many levels are popped, and
  `Activity.catch?` looks for the innermost level that catches a stop, as a bounded search over the
  stack that is there at the beginning.
* `Pool.TakesBack` says what a pool is like that has taken frames back, each of them once.
* `Activity.Popped` says once what popping any number of levels comes to. Pops are put together by
  `Popped.trans`, and the search goes on where it was (`Popped.catches_eq`).
* `Activity.stopScript_unwound` is the result, for all stacks: the pops come to an end, at the level
  that was searched for, and what happens there is one of three things (`Activity.Unwound`).
-/

namespace BlockScript

/-! ### Frames that are taken back -/

namespace Pool

/-- **The pool `p'` is the pool `p` after it took back** the frames at these positions, one after
the other, and nothing else. -/
structure TakesBack (p : Pool) (ids : List FrameId) (p' : Pool) : Prop where
  /-- No frame is taken back twice. -/
  nodup : ids.Nodup
  /-- Each of them was in use. -/
  isInUse_of_mem : ∀ id ∈ ids, p.isInUse id = true
  /-- No cell is added. -/
  capacity_eq : p'.capacity = p.capacity
  /-- They are free now, the last one first, and what was free is still free. -/
  free_eq : p'.free = ids.reverse ++ p.free
  /-- Their cells are wiped, and not in use any more. -/
  cell?_of_mem : ∀ id ∈ ids, p'.cell? id = some ⟨Frame.blank, false⟩
  /-- All other cells are as they were. -/
  cell?_of_notMem : ∀ id, id ∉ ids → p'.cell? id = p.cell? id

theorem cell?_of_cell_eq_ok {p : Pool} {id : FrameId} {c : Cell} (h : p.cell id = .ok c) :
    p.cell? id = some c := by
  rw [cell] at h
  split at h
  · cases h
    exact ‹_›
  · cases h

namespace TakesBack

variable {p p₁ p₂ : Pool} {ids ids' : List FrameId} {id : FrameId}

/-- No frame is taken back. -/
theorem refl (p : Pool) : p.TakesBack [] p where
  nodup := List.nodup_nil
  isInUse_of_mem := fun _ hmem ↦ absurd hmem List.not_mem_nil
  capacity_eq := rfl
  free_eq := rfl
  cell?_of_mem := fun _ hmem ↦ absurd hmem List.not_mem_nil
  cell?_of_notMem := fun _ _ ↦ rfl

/-- Releasing a frame takes it back. -/
theorem of_release (h : p.release id = .ok p₁) : p.TakesBack [id] p₁ := by
  rw [release] at h
  obtain ⟨⟨f, inUse⟩, hcell, h⟩ := exists_of_bind_eq_ok h
  have hcell? := cell?_of_cell_eq_ok hcell
  cases inUse with
  | false => cases h
  | true =>
    cases h
    refine ⟨List.nodup_singleton id, ?_, ?_, rfl, ?_, ?_⟩
    · rintro other hmem
      rw [List.mem_singleton.1 hmem, isInUse_of_cell? hcell?]
    · exact Array.size_setIfInBounds
    · rintro other hmem
      rw [List.mem_singleton.1 hmem]
      exact cell?_setCell_self _ hcell?
    · intro other hnotMem
      exact cell?_setCell_of_ne _ fun heq ↦ hnotMem (List.mem_singleton.2 heq)

/-- A frame that was taken back is not in use, so that the second lot is another one. -/
theorem trans (h₁ : p.TakesBack ids p₁) (h₂ : p₁.TakesBack ids' p₂) :
    p.TakesBack (ids ++ ids') p₂ := by
  have hdisjoint : ∀ other ∈ ids', other ∉ ids := by
    intro other hmem' hmem
    have hused := h₂.isInUse_of_mem other hmem'
    rw [isInUse_of_cell? (h₁.cell?_of_mem other hmem)] at hused
    cases hused
  refine ⟨?_, ?_, h₂.capacity_eq.trans h₁.capacity_eq, ?_, ?_, ?_⟩
  · refine List.nodup_append.2 ⟨h₁.nodup, h₂.nodup, ?_⟩
    rintro other hmem _ hmem' rfl
    exact hdisjoint other hmem' hmem
  · intro other hmem
    rcases List.mem_append.1 hmem with hmem | hmem
    · exact h₁.isInUse_of_mem other hmem
    · have hused := h₂.isInUse_of_mem other hmem
      have hsame := h₁.cell?_of_notMem other (hdisjoint other hmem)
      rw [cell?, cell?] at hsame
      rwa [isInUse, hsame] at hused
  · rw [h₂.free_eq, h₁.free_eq, List.reverse_append, List.append_assoc]
  · intro other hmem
    by_cases hmem' : other ∈ ids'
    · exact h₂.cell?_of_mem other hmem'
    · rw [h₂.cell?_of_notMem other hmem']
      exact h₁.cell?_of_mem other ((List.mem_append.1 hmem).resolve_right hmem')
  · intro other hnotMem
    rw [List.mem_append, not_or] at hnotMem
    rw [h₂.cell?_of_notMem other hnotMem.2, h₁.cell?_of_notMem other hnotMem.1]

/-- The other frames are what they were. -/
theorem frameAt_of_notMem (h : p.TakesBack ids p₁) (hnotMem : id ∉ ids) :
    p₁.frameAt id = p.frameAt id := by
  rw [frameAt, frameAt, h.cell?_of_notMem id hnotMem]

/-- A frame that is not taken back may as well have been written to before. -/
theorem modify {change : Frame → Frame} (h : p.TakesBack ids p₁) (hnotMem : id ∉ ids)
    (hmodify : p₁.modify id change = .ok p₂) :
    ∃ p', p.modify id change = .ok p' ∧ p'.TakesBack ids p₂ := by
  have hsame := h.cell?_of_notMem id hnotMem
  rw [Pool.modify] at hmodify
  obtain ⟨c, hcell, ⟨⟩⟩ := exists_of_bind_eq_ok hmodify
  have hcell₁ : p₁.cell? id = some c := cell?_of_cell_eq_ok hcell
  have hcell? : p.cell? id = some c := hsame.symm.trans hcell₁
  refine ⟨p.setCell id { c with frame := change c.frame }, ?_, h.nodup, ?_, ?_, h.free_eq, ?_, ?_⟩
  · rw [Pool.modify, cell_eq_ok_of_cell? hcell?]
    rfl
  · intro other hmem
    have hne : other ≠ id := fun heq ↦ hnotMem (heq ▸ hmem)
    have hother := cell?_setCell_of_ne (p := p) { c with frame := change c.frame } hne
    rw [cell?, cell?] at hother
    rw [isInUse, hother]
    exact h.isInUse_of_mem other hmem
  · exact (Array.size_setIfInBounds.trans h.capacity_eq).trans Array.size_setIfInBounds.symm
  · intro other hmem
    have hne : other ≠ id := fun heq ↦ hnotMem (heq ▸ hmem)
    rw [cell?_setCell_of_ne _ hne]
    exact h.cell?_of_mem other hmem
  · intro other hmem
    by_cases hother : other = id
    · rw [hother, cell?_setCell_self _ hcell₁, cell?_setCell_self _ hcell?]
    · rw [cell?_setCell_of_ne _ hother, cell?_setCell_of_ne _ hother]
      exact h.cell?_of_notMem other hmem

end TakesBack

end Pool

/-! ### Which level catches a stop -/

namespace Thread

/-- The target at work and those to return to, the next one first. -/
def trail (t : Thread) : List TargetId :=
  t.target :: t.targetStack

/-- How many of so many innermost levels had switched the target. -/
def switchCount (t : Thread) (count : Nat) : Nat :=
  (t.levels.take count).countP Level.switched

end Thread

namespace Activity

/-- The target at work once so many levels are popped. -/
def targetAfter? (a : Activity) (count : Nat) : Option TargetId :=
  (unwindAll count a).toOption.map fun a ↦ a.thread.target

/-- Whether the level at an index, counted from the innermost one, waits for a reporter. -/
def waitsAt (a : Activity) (index : Nat) : Bool :=
  (a.thread.levels[index]?).any fun level ↦ (a.engine.pool.frameAt level.frame).waitingReporter

/-- Whether the level at an index is at a procedure call, on the target that is at work once the
levels above it are popped. -/
def callsAt (a : Activity) (index : Nat) : Bool :=
  (do
    let level ← a.thread.levels[index]?
    let id ← level.block
    let target ← a.targetAfter? index
    let graph ← a.engine.graph? target
    graph.get? id : Option Block).any fun b ↦ b.opcode == Block.callOpcode

/-- Whether a stop that pops all levels above an index ends there. -/
def catchesAt (a : Activity) (index : Nat) : Bool :=
  a.waitsAt index || a.callsAt index

/-- **The innermost level that catches a stop**, if there is one. -/
def catch? (a : Activity) : Option Nat :=
  (List.range a.thread.depth).find? a.catchesAt

/-- How many levels a stop pops: those above the one that catches it, or all. -/
def popCount (a : Activity) : Nat :=
  a.catch?.getD a.thread.depth

/-! ### What pops come to -/

/-- **So many levels are popped**: they are gone, their switches are undone, their frames are given
back, and everything else is as it was. -/
structure Popped (count : Nat) (a a' : Activity) : Prop where
  /-- The settings and the targets are the same. -/
  world_eq : a'.engine.world = a.engine.world
  /-- Nothing but traces was recorded. -/
  chronicle_eq : a'.engine.chronicle = a.engine.chronicle
  /-- Of the thread, nothing but levels and targets has changed. -/
  thread_eq : a'.thread = { a.thread with
    levels := a.thread.levels.drop count
    target := a'.thread.target
    targetStack := a'.thread.targetStack }
  /-- The targets are those from before the switches of the levels that are gone. -/
  trail_eq : a'.thread.trail = a.thread.trail.drop (a.thread.switchCount count)
  /-- The pool has got their frames back. -/
  takesBack : a.engine.pool.TakesBack (a.thread.frames.take count) a'.engine.pool

namespace Popped

variable {a a₁ a₂ a' : Activity} {count further : Nat}

theorem refl (a : Activity) : Popped 0 a a :=
  ⟨rfl, rfl, rfl, rfl, .refl _⟩

/-- The levels that are left are the ones below. -/
theorem levels_eq (h : Popped count a a') : a'.thread.levels = a.thread.levels.drop count := by
  rw [h.thread_eq]

/-- And so are their frames. -/
theorem frames_eq (h : Popped count a a') : a'.thread.frames = a.thread.frames.drop count := by
  rw [Thread.frames, h.levels_eq, List.map_drop, ← Thread.frames]

/-- Levels that have frames of their own keep them while others are popped. -/
theorem notMem_take_frames {id : FrameId} (h : Popped count a a') (hnodup : a.thread.frames.Nodup)
    (hmem : id ∈ a'.thread.frames) : id ∉ a.thread.frames.take count := by
  rw [h.frames_eq] at hmem
  exact fun htaken ↦ List.disjoint_take_drop hnodup (Nat.le_refl count) htaken hmem

/-- As long as not all levels are gone there is one on top. -/
theorem exists_levels (h : Popped count a a') (hlt : count < a.thread.depth) :
    ∃ level rest, a'.thread.levels = level :: rest := by
  refine List.exists_cons_of_ne_nil fun hnil ↦ ?_
  rw [h.levels_eq, List.drop_eq_nil_iff, ← Thread.depth] at hnil
  omega

theorem graph?_eq (h : Popped count a a') : a'.engine.graph? = a.engine.graph? := by
  show a'.engine.world.graph? = a.engine.world.graph?
  rw [h.world_eq]

/-- Switches of the target can be counted in two parts. -/
theorem switchCount_add (h : Popped count a a') (further : Nat) :
    a.thread.switchCount (count + further) =
      a.thread.switchCount count + a'.thread.switchCount further := by
  rw [Thread.switchCount, Thread.switchCount, Thread.switchCount, h.levels_eq, List.take_add,
    List.countP_append]

/-- One target is taken from the stack for each level that had switched it. -/
theorem length_targetStack (h : Popped count a a') :
    a'.thread.targetStack.length = a.thread.targetStack.length - a.thread.switchCount count := by
  have hlength := congrArg List.length h.trail_eq
  rw [Thread.trail, Thread.trail, List.length_drop, List.length_cons, List.length_cons] at hlength
  omega

/-- Pops may follow pops. -/
theorem trans (h₁ : Popped count a a₁) (h₂ : Popped further a₁ a₂) :
    Popped (count + further) a a₂ where
  world_eq := h₂.world_eq.trans h₁.world_eq
  chronicle_eq := h₂.chronicle_eq.trans h₁.chronicle_eq
  thread_eq := by
    rw [h₂.thread_eq, h₁.thread_eq, List.drop_drop]
  trail_eq := by
    rw [h₂.trail_eq, h₁.trail_eq, List.drop_drop, h₁.switchCount_add]
  takesBack := by
    have hboth := h₁.takesBack.trans h₂.takesBack
    rwa [h₁.frames_eq, ← List.take_add] at hboth

end Popped

section Pops

variable {a a' : Activity} {others : List FrameId}

/-- **One pop**, of a level that has a target to return to if it needs one. -/
theorem exists_pop {level : Level} {rest : List Level}
    (hlends : a.engine.pool.Lends (a.thread.frames ++ others))
    (hlevels : a.thread.levels = level :: rest)
    (hcovered : a.thread.switchCount 1 ≤ a.thread.targetStack.length) :
    ∃ a', a.pop = .ok (level.block, a') ∧ Popped 1 a a' ∧
      a'.engine.pool.Lends (a'.thread.frames ++ others) := by
  have hframes : a.thread.frames = level.frame :: rest.map Level.frame := by
    rw [Thread.frames, hlevels, List.map_cons]
  rw [hframes, List.cons_append] at hlends
  obtain ⟨pool, hrelease, hlends', -⟩ := hlends.release
  have htakesBack : a.engine.pool.TakesBack (a.thread.frames.take 1) pool := by
    rw [hframes]
    exact .of_release hrelease
  have hdrop : a.thread.levels.drop 1 = rest := by rw [hlevels]; rfl
  have hcount : a.thread.switchCount 1 = [level].countP Level.switched := by
    rw [Thread.switchCount, hlevels]
    rfl
  rw [hcount] at hcovered
  -- Up to here the level is gone and its frame is free; what is left is to undo its switch.
  set b := ((a.withLevels rest).note (.popped level.block rest.length)).withPool pool with hb
  have hchronicle : b.engine.chronicle = a.engine.chronicle := Engine.chronicle_note_of_trace rfl
  have hpop : a.pop = (if level.switched then b.popTarget else .ok b) >>=
      fun a' ↦ .ok (level.block, a') := by
    rw [pop, hlevels]
    show (a.engine.pool.release level.frame >>= _) = _
    rw [hrelease]
    cases level.switched with
    | false => rfl
    | true => rfl
  rw [hpop]
  rcases hswitched : level.switched with - | -
  · refine ⟨b, rfl, ⟨rfl, hchronicle, ?_, ?_, htakesBack⟩, hlends'⟩
    · rw [hdrop]
      rfl
    · rw [hcount, List.countP_singleton, hswitched]
      rfl
  · rcases hstack : a.thread.targetStack with - | ⟨target, targetStack⟩
    · rw [hstack, List.countP_singleton, hswitched] at hcovered
      cases hcovered
    · have hrestore : b.popTarget = .ok { b.note (.restored b.thread.target target) with
          thread := { b.thread with target, targetStack } } := by
        rw [popTarget, show b.thread.targetStack = target :: targetStack from hstack]
      rw [if_pos rfl, hrestore]
      refine ⟨_, rfl, ⟨rfl, ?_, ?_, ?_, htakesBack⟩, hlends'⟩
      · exact (Engine.chronicle_note_of_trace rfl).trans hchronicle
      · rw [hdrop]
        rfl
      · rw [hcount, List.countP_singleton, hswitched, Thread.trail, Thread.trail, hstack]
        rfl

/-- **Any number of pops**, by induction from one. -/
theorem exists_popped (count : Nat) : ∀ {a : Activity},
    a.engine.pool.Lends (a.thread.frames ++ others) → count ≤ a.thread.depth →
    a.thread.switchCount count ≤ a.thread.targetStack.length →
    ∃ a', unwindAll count a = .ok a' ∧ Popped count a a' ∧
      a'.engine.pool.Lends (a'.thread.frames ++ others) := by
  induction count with
  | zero => exact fun {a} hlends _ _ ↦ ⟨a, rfl, .refl a, hlends⟩
  | succ count ih =>
    intro a hlends hle hcovered
    rcases hlevels : a.thread.levels with - | ⟨level, rest⟩
    · rw [Thread.depth, hlevels] at hle
      cases hle
    · have hone : a.thread.switchCount 1 ≤ a.thread.switchCount (count + 1) :=
        (List.take_sublist_take_left (Nat.le_add_left 1 count)).countP_le
      obtain ⟨a₁, hpop, hpopped, hlends₁⟩ := exists_pop hlends hlevels (Nat.le_trans hone hcovered)
      rw [Nat.add_comm count 1, hpopped.switchCount_add] at hcovered
      have hstack := hpopped.length_targetStack
      have hdepth : a₁.thread.depth = a.thread.depth - 1 := by
        rw [Thread.depth, hpopped.levels_eq, List.length_drop, ← Thread.depth]
      obtain ⟨a₂, hrest, hpopped₂, hlends₂⟩ := ih hlends₁ (by omega) (by omega)
      refine ⟨a₂, ?_, ?_, hlends₂⟩
      · rw [unwindAll, hpop]
        exact hrest
      · rw [Nat.add_comm count 1]
        exact hpopped.trans hpopped₂

/-- What was found out about the levels below is the same once the levels above are popped. -/
theorem Popped.waitsAt_eq {count : Nat} (h : Popped count a a') (hnodup : a.thread.frames.Nodup)
    (index : Nat) : a'.waitsAt index = a.waitsAt (count + index) := by
  rw [waitsAt, waitsAt, ← List.getElem?_drop, ← h.levels_eq]
  rcases hlevel : a'.thread.levels[index]? with - | level
  · rfl
  · have hmem : level.frame ∈ a'.thread.frames :=
      List.mem_map_of_mem (List.mem_of_getElem? hlevel)
    rw [Option.any_some, Option.any_some,
      h.takesBack.frameAt_of_notMem (h.notMem_take_frames hnodup hmem)]

/-- Leaving levels can be done in two parts. -/
theorem unwindAll_add (count further : Nat) : ∀ a : Activity,
    unwindAll (count + further) a = unwindAll count a >>= unwindAll further := by
  induction count with
  | zero =>
    intro a
    rw [Nat.zero_add]
    rfl
  | succ count ih =>
    intro a
    rw [Nat.succ_add, unwindAll, unwindAll]
    rcases a.pop with cause | ⟨block, a₁⟩
    · rfl
    · exact ih a₁

/-- What is a call further down is still one when the levels above are gone. -/
theorem Popped.callsAt_eq {count : Nat} (h : Popped count a a') (hok : unwindAll count a = .ok a')
    (index : Nat) : a'.callsAt index = a.callsAt (count + index) := by
  have htarget : a'.targetAfter? index = a.targetAfter? (count + index) := by
    rw [targetAfter?, targetAfter?, unwindAll_add, hok]
    rfl
  rw [callsAt, callsAt, h.levels_eq, List.getElem?_drop, htarget, h.graph?_eq]

theorem callsAt_zero {level : Level} {rest : List Level}
    (hlevels : a.thread.levels = level :: rest) : a.callsAt 0 = a.isCall level := by
  rw [callsAt, isCall, hlevels]
  show (level.block.bind fun id ↦ a.graph?.bind fun graph ↦ graph.get? id).any _ = _
  rcases level.block.bind fun id ↦ a.graph?.bind fun graph ↦ graph.get? id with - | b
  · rfl
  · rfl

/-- A round in which the top level does not catch the stop pops it. -/
theorem unwind_succ {level : Level} {rest : List Level}
    (hlends : a.engine.pool.Lends (a.thread.frames ++ others))
    (hlevels : a.thread.levels = level :: rest) (rounds : Nat) :
    unwind (rounds + 1) a =
      if a.waitsAt 0 then .ok a
      else if a.callsAt 0 then a.advance
      else a.pop >>= fun result ↦ unwind rounds result.2 := by
  have hmem : level.frame ∈ a.thread.frames := by
    rw [Thread.frames, hlevels]
    exact List.mem_cons_self
  have hwaits : a.waitsAt 0 = (a.engine.pool.frameAt level.frame).waitingReporter := by
    rw [waitsAt, hlevels]
    rfl
  rw [unwind, hlevels, hwaits, callsAt_zero hlevels]
  dsimp only
  rw [hlends.get_of_mem (List.mem_append_left _ hmem)]
  rfl

/-- **Rounds that catch nothing are pops.** -/
theorem unwind_add (hlends : a.engine.pool.Lends (a.thread.frames ++ others)) (count : Nat) :
    ∀ {a' : Activity} {rounds : Nat}, count ≤ a.thread.depth →
      a.thread.switchCount count ≤ a.thread.targetStack.length →
      (∀ index < count, a.catchesAt index = false) → unwindAll count a = .ok a' →
      unwind (count + rounds) a = unwind rounds a' := by
  induction count with
  | zero =>
    intro a' rounds _ _ _ hok
    cases hok
    rw [Nat.zero_add]
  | succ count ih =>
    intro a' rounds hle hcovered hquiet hok
    have hprevious : a.thread.switchCount count ≤ a.thread.switchCount (count + 1) :=
      (List.take_sublist_take_left (Nat.le_succ count)).countP_le
    obtain ⟨a₁, hok₁, hpopped, hlends₁⟩ := exists_popped count hlends (Nat.le_of_succ_le hle)
      (Nat.le_trans hprevious hcovered)
    rw [unwindAll_add, hok₁] at hok
    have hlast : unwindAll 1 a₁ = .ok a' := hok
    obtain ⟨⟨block, a₂⟩, hpop, ⟨⟩⟩ := exists_of_bind_eq_ok hlast
    -- The level on top now is the one at this index from before.
    have hcatches : a.catchesAt (count + 0) = false := hquiet count (Nat.lt_succ_self count)
    rw [catchesAt, Bool.or_eq_false_iff,
      ← hpopped.waitsAt_eq (List.nodup_append.1 hlends.held_nodup).1, ← hpopped.callsAt_eq hok₁]
      at hcatches
    obtain ⟨level, rest, hlevels⟩ := hpopped.exists_levels hle
    rw [Nat.succ_add, ← Nat.add_succ, ih (Nat.le_of_succ_le hle) (Nat.le_trans hprevious hcovered)
      (fun index hlt ↦ hquiet index (Nat.lt_succ_of_lt hlt)) hok₁, unwind_succ hlends₁ hlevels,
      hcatches.1, hcatches.2, hpop]
    rfl

end Pops

/-! ### Where the stop ends -/

/-- Every level above the one that is found lets the stop pass, and so do all if there is none. -/
theorem catchesAt_of_lt_popCount {a : Activity} {index : Nat} (h : index < a.popCount) :
    a.catchesAt index = false := by
  rw [popCount] at h
  rcases hcatch : a.catch? with - | found
  · rw [hcatch] at h
    rw [catch?, List.find?_range_eq_none] at hcatch
    exact (Bool.not_eq_true' _).mp (hcatch index h)
  · rw [hcatch] at h
    rw [catch?, List.find?_range_eq_some] at hcatch
    exact (Bool.not_eq_true' _).mp (hcatch.2.2 index h)

/-- The level that catches the stop is there, and catches it. -/
theorem catchesAt_of_catch? {a : Activity} {index : Nat} (h : a.catch? = some index) :
    index < a.thread.depth ∧ a.catchesAt index = true := by
  rw [catch?, List.find?_range_eq_some, List.mem_range] at h
  exact ⟨h.2.1, h.1⟩

theorem popCount_of_catch? {a : Activity} {index : Nat} (h : a.catch? = some index) :
    a.popCount = index := by
  rw [popCount, h, Option.getD_some]

/-- No more levels go than there are. -/
theorem popCount_le_depth (a : Activity) : a.popCount ≤ a.thread.depth := by
  rw [popCount]
  rcases hcatch : a.catch? with - | found
  · exact Nat.le_refl _
  · exact Nat.le_of_lt (catchesAt_of_catch? hcatch).1

/-- **What a stop of the innermost script comes to.** The levels above the one that catches it are
popped; without such a level all are, and the thread is done. A level that waits for a reporter is
left as it is. A level that is at a call, and does not wait, moves on. -/
structure Unwound (a a' : Activity) : Prop where
  /-- The settings and the targets are the same. -/
  world_eq : a'.engine.world = a.engine.world
  /-- Nothing but traces was recorded. -/
  chronicle_eq : a'.engine.chronicle = a.engine.chronicle
  /-- The targets are those from before the switches of the levels that are popped. -/
  trail_eq : a'.thread.trail = a.thread.trail.drop (a.thread.switchCount a.popCount)
  /-- In particular the target at work is the one that the level was looked up on. -/
  targetAfter?_eq : a.targetAfter? a.popCount = some a'.thread.target
  /-- No two levels have the same frame. -/
  nodup_frames : a.thread.frames.Nodup
  /-- If no level catches the stop, all are popped, and the thread is done. -/
  of_none : a.catch? = none →
    a'.thread = { a.thread with
      levels := []
      target := a'.thread.target
      targetStack := a'.thread.targetStack
      status := .done
      scriptGlow := false } ∧
    a.engine.pool.TakesBack a.thread.frames a'.engine.pool
  /-- If a level catches it that waits, this level and those below it keep their blocks and
  frames. -/
  of_waits : ∀ index, a.catch? = some index → a.waitsAt index = true →
    a'.thread = { a.thread with
      levels := a.thread.levels.drop index
      target := a'.thread.target
      targetStack := a'.thread.targetStack } ∧
    a'.inline.levels = a.inline.levels.drop index ∧
    a.engine.pool.TakesBack (a.thread.frames.take index) a'.engine.pool
  /-- If a level catches it that does not wait, it is at a call. It gets the next block in the graph
  of the target at work, if there is one, and of its frame nothing stays but the mode; the levels
  below keep their blocks and frames. -/
  of_calls : ∀ index, a.catch? = some index → a.waitsAt index = false →
    ∃ level below id next pool,
      a.thread.levels.drop index = level :: below ∧ level.block = some id ∧
      next = ((a.engine.graph? a'.thread.target).bind fun graph ↦ graph.next? id) ∧
      a'.thread = { a.thread with
        levels := { level with block := next } :: below
        target := a'.thread.target
        targetStack := a'.thread.targetStack } ∧
      a'.inline.levels = ⟨next, (a.engine.pool.frameAt level.frame).renewed, level.switched⟩ ::
        a.inline.levels.drop (index + 1) ∧
      a.engine.pool.modify level.frame Frame.renewed = .ok pool ∧
      pool.TakesBack (a.thread.frames.take index) a'.engine.pool

section Ends

variable {a a₁ : Activity} {others : List FrameId}

/-- A stack that is empty stays as it is. -/
theorem unwind_of_nil (hlevels : a.thread.levels = []) (rounds : Nat) :
    unwind rounds a = .ok a := by
  cases rounds with
  | zero => rfl
  | succ rounds => rw [unwind, hlevels]

/-- A thread that has levels left is not done. -/
theorem settle_of_cons {level : Level} {rest : List Level}
    (hlevels : a.thread.levels = level :: rest) : a.settle = a := by
  rw [settle, hlevels]

/-- What is left below the levels that are popped looks as it did. -/
theorem Popped.inline_levels {count : Nat} (h : Popped count a a₁)
    (hnodup : a.thread.frames.Nodup) :
    a₁.inline.levels = a.inline.levels.drop count := by
  show a₁.thread.levels.map (Level.inline a₁.engine.pool) =
    (a.thread.levels.map (Level.inline a.engine.pool)).drop count
  rw [h.levels_eq, ← List.map_drop]
  refine Level.map_inline_congr fun id hmem ↦ h.takesBack.frameAt_of_notMem ?_
  rw [List.map_drop, ← Thread.frames, ← h.frames_eq] at hmem
  exact h.notMem_take_frames hnodup hmem

/-- All levels are popped. -/
theorem Popped.unwound_of_none (h : Popped a.popCount a a₁)
    (hafter : a.targetAfter? a.popCount = some a₁.thread.target) (hnodup : a.thread.frames.Nodup)
    (hcatch : a.catch? = none) : a₁.thread.levels = [] ∧ a.Unwound a₁.settle := by
  have hcount : a.popCount = a.thread.depth := by rw [popCount, hcatch]; rfl
  have hlevels : a₁.thread.levels = [] := by
    rw [h.levels_eq, hcount]
    exact List.drop_length
  have hsettle : a₁.settle =
      { a₁ with thread := { a₁.thread with scriptGlow := false, status := .done } } := by
    rw [settle, hlevels]
  refine ⟨hlevels, ?_⟩
  rw [hsettle]
  refine ⟨h.world_eq, h.chronicle_eq, h.trail_eq, hafter, hnodup, fun _ ↦ ⟨?_, ?_⟩, ?_, ?_⟩
  · rw [h.thread_eq, hcount, Thread.depth, List.drop_length]
  · have htakesBack := h.takesBack
    rwa [hcount, Thread.depth, ← List.length_map Level.frame, ← Thread.frames, List.take_length]
      at htakesBack
  · intro index hsome
    rw [hcatch] at hsome
    cases hsome
  · intro index hsome
    rw [hcatch] at hsome
    cases hsome

/-- A level waits. -/
theorem Popped.unwound_of_waits {index : Nat} (h : Popped a.popCount a a₁)
    (hafter : a.targetAfter? a.popCount = some a₁.thread.target) (hnodup : a.thread.frames.Nodup)
    (hcatch : a.catch? = some index) (hwaits : a.waitsAt index = true) : a.Unwound a₁ := by
  have hcount := popCount_of_catch? hcatch
  refine ⟨h.world_eq, h.chronicle_eq, h.trail_eq, hafter, hnodup, ?_, ?_, ?_⟩
  · intro hnone
    rw [hcatch] at hnone
    cases hnone
  · intro found hfound _
    obtain rfl : index = found := Option.some.inj (hcatch.symm.trans hfound)
    rw [hcount] at h
    exact ⟨h.thread_eq, h.inline_levels hnodup, h.takesBack⟩
  · intro found hfound hnot
    rw [hcatch] at hfound
    rw [← Option.some.inj hfound, hwaits] at hnot
    cases hnot

/-- A level is at a call. -/
theorem Popped.exists_unwound_of_calls {index : Nat} (h : Popped a.popCount a a₁)
    (hlends₁ : a₁.engine.pool.Lends (a₁.thread.frames ++ others))
    (hafter : a.targetAfter? a.popCount = some a₁.thread.target) (hnodup : a.thread.frames.Nodup)
    (hcatch : a.catch? = some index) (hwaits : a.waitsAt index = false)
    (hcalls : a₁.callsAt 0 = true) : ∃ a', a₁.advance = .ok a' ∧ a'.settle = a' ∧ a.Unwound a' := by
  have hcount := popCount_of_catch? hcatch
  obtain ⟨level, below, hlevels⟩ : ∃ level below, a₁.thread.levels = level :: below := by
    refine List.exists_cons_of_ne_nil fun hnil ↦ ?_
    rw [callsAt, hnil] at hcalls
    cases hcalls
  obtain ⟨id, hid⟩ : ∃ id, level.block = some id := by
    rw [callsAt_zero hlevels, isCall] at hcalls
    rcases hblock : level.block with - | id
    · rw [hblock] at hcalls
      cases hcalls
    · exact ⟨id, rfl⟩
  set next := (a.engine.graph? a₁.thread.target).bind fun graph ↦ graph.next? id with hnext
  have hnextBlock : a₁.nextBlock? = next := by
    rw [nextBlock?, Thread.peek?, hlevels, hnext, graph?, h.graph?_eq, List.head?_cons,
      Option.bind_some, hid, Option.bind_some]
  have hframes : a₁.thread.frames = level.frame :: below.map Level.frame := by
    rw [Thread.frames, hlevels, List.map_cons]
  -- The frame of the call is nobody else's, and it is not one of those that are given back.
  have hmem : level.frame ∈ a₁.thread.frames := by
    rw [hframes]
    exact List.mem_cons_self
  have hnotMem := h.notMem_take_frames hnodup hmem
  obtain ⟨pool₁, hmodify, -, hself, hother⟩ :=
    hlends₁.modify (List.mem_append_left _ hmem) Frame.renewed
  obtain ⟨pool, hmodify', htakesBack⟩ := h.takesBack.modify hnotMem hmodify
  have hbelow : below.map (Level.inline pool₁) = a.inline.levels.drop (index + 1) := by
    have hunique := (List.nodup_append.1 hlends₁.held_nodup).1
    rw [hframes, List.nodup_cons] at hunique
    have hinline := h.inline_levels hnodup
    rw [hcount] at hinline
    rw [Level.map_inline_congr fun other hmem' ↦ hother other fun heq ↦ hunique.1 (heq ▸ hmem'),
      ← List.tail_drop, ← hinline]
    show _ = (a₁.thread.levels.map (Level.inline a₁.engine.pool)).tail
    rw [hlevels]
    rfl
  refine ⟨(a₁.withPool pool₁).withLevels ({ level with block := next } :: below), ?_, rfl,
    h.world_eq, h.chronicle_eq, h.trail_eq, hafter, hnodup, ?_, ?_, ?_⟩
  · rw [advance, reuse, hlevels, hnextBlock]
    show (a₁.engine.pool.modify level.frame Frame.renewed >>= _) = _
    rw [hmodify]
    rfl
  · intro hnone
    rw [hcatch] at hnone
    cases hnone
  · intro found hfound hwaiting
    rw [hcatch] at hfound
    rw [← Option.some.inj hfound, hwaits] at hwaiting
    cases hwaiting
  · intro found hfound _
    obtain rfl : index = found := Option.some.inj (hcatch.symm.trans hfound)
    refine ⟨level, below, id, next, pool, ?_, hid, rfl, ?_, ?_, hmodify', ?_⟩
    · rw [← hlevels, h.levels_eq, hcount]
    · rw [withLevels, thread_withPool, h.thread_eq]
    · rw [← hbelow, ← h.takesBack.frameAt_of_notMem hnotMem, ← hself]
      rfl
    · rw [← hcount]
      exact htakesBack

/-- **The stop ends**, however many rounds it is given, if there are as many as there are levels.
All that is asked of the pool is that it has lent out the frames of the levels, each of them
once. -/
theorem exists_unwound (hlends : a.engine.pool.Lends (a.thread.frames ++ others))
    (hcovered : a.thread.switchCount a.popCount ≤ a.thread.targetStack.length) :
    ∃ a', (∀ rounds, a.thread.depth ≤ rounds → (unwind rounds a).map settle = .ok a') ∧
      a.Unwound a' := by
  have hle := a.popCount_le_depth
  have hnodup := (List.nodup_append.1 hlends.held_nodup).1
  obtain ⟨a₁, hok, hpopped, hlends₁⟩ := exists_popped a.popCount hlends hle hcovered
  have hafter : a.targetAfter? a.popCount = some a₁.thread.target := by
    rw [targetAfter?, hok]
    rfl
  have hrounds : ∀ rounds, a.thread.depth ≤ rounds →
      unwind rounds a = unwind (rounds - a.popCount) a₁ := by
    intro rounds hdepth
    rw [← unwind_add hlends a.popCount hle hcovered (fun _ ↦ catchesAt_of_lt_popCount) hok,
      Nat.add_sub_cancel' (Nat.le_trans hle hdepth)]
  rcases hcatch : a.catch? with - | index
  · obtain ⟨hlevels, hunwound⟩ := hpopped.unwound_of_none hafter hnodup hcatch
    refine ⟨a₁.settle, fun rounds hdepth ↦ ?_, hunwound⟩
    rw [hrounds rounds hdepth, unwind_of_nil hlevels]
    rfl
  · have hcount : a.popCount = index := by rw [popCount, hcatch]; rfl
    obtain ⟨hlt, hcatches⟩ := catchesAt_of_catch? hcatch
    have hwaits : a₁.waitsAt 0 = a.waitsAt index := hcount ▸ hpopped.waitsAt_eq hnodup 0
    have hcalls : a₁.callsAt 0 = a.callsAt index := hcount ▸ hpopped.callsAt_eq hok 0
    obtain ⟨level, rest, hlevels⟩ := hpopped.exists_levels (hcount ▸ hlt)
    -- The level that was found is on top, and one more round is all that it takes.
    have hlast : ∀ rounds, a.thread.depth ≤ rounds → unwind rounds a =
        if a.waitsAt index then .ok a₁ else if a.callsAt index then a₁.advance else
          a₁.pop >>= fun result ↦ unwind (rounds - index - 1) result.2 := by
      intro rounds hdepth
      have hleft : rounds - a.popCount = rounds - index - 1 + 1 := by omega
      rw [hrounds rounds hdepth, hleft, unwind_succ hlends₁ hlevels, hwaits, hcalls]
    rcases hwaiting : a.waitsAt index with - | -
    · rw [catchesAt, hwaiting, Bool.false_or] at hcatches
      obtain ⟨a', hadvance, hsettle, hunwound⟩ := hpopped.exists_unwound_of_calls hlends₁ hafter
        hnodup hcatch hwaiting (hcalls.trans hcatches)
      refine ⟨a', fun rounds hdepth ↦ ?_, hunwound⟩
      rw [hlast rounds hdepth, hwaiting, hcatches, if_neg Bool.false_ne_true, if_pos rfl, hadvance]
      exact congrArg Except.ok hsettle
    · refine ⟨a₁, fun rounds hdepth ↦ ?_,
        hpopped.unwound_of_waits hafter hnodup hcatch hwaiting⟩
      rw [hlast rounds hdepth, hwaiting, if_pos rfl]
      exact congrArg Except.ok (settle_of_cons hlevels)

end Ends

/-- **A stop of the innermost script, exactly.** Let any threads share an engine, let any operations
be made on them, and stop the innermost script of one of them. Only its stack and the pool have to
be those that the operations led to; what the targets are, on which target the thread is, and what
its status is may have been changed in between. If there is a target to return to for every switch
that is to be undone, then the stop ends, for as many rounds as there are levels or more, and it
ends as `Unwound` says. -/
theorem stopScript_unwound {e : Engine} (hpool : e.pool = Pool.empty)
    {scripts : List (BlockId × TargetId)} {moves : List (Nat × Operation)}
    {answers : List (Nat × Option BlockId)} {s : Schedule}
    (hplay : (Schedule.fresh e scripts).play moves = .ok (answers, s)) {position : Nat} {t : Thread}
    (ht : s.threads[position]? = some t) {a : Activity} (hshared : a.engine.pool = s.engine.pool)
    (hlevels : a.thread.levels = t.levels)
    (hcovered : a.thread.switchCount a.popCount ≤ a.thread.targetStack.length) :
    ∃ a', a.stopScript = .ok a' ∧
      (∀ rounds, a.thread.depth ≤ rounds → (unwind rounds a).map settle = .ok a') ∧
      a.Unwound a' := by
  have hagree := Schedule.Mirrored.play moves (Schedule.Mirrored.fresh hpool scripts)
  rw [hplay] at hagree
  obtain ⟨⟨answers', ts⟩, -, -, hs⟩ := hagree.exists_right
  have hlends : a.engine.pool.Lends (a.thread.frames ++ s.heldBut position) := by
    rw [hshared, Thread.frames, hlevels]
    exact (hs.activity ht).lends
  obtain ⟨a', hrounds, hunwound⟩ := exists_unwound hlends hcovered
  exact ⟨a', hrounds a.thread.depth (Nat.le_refl _), hrounds, hunwound⟩

/-- Beside another thread, two levels with the same block, of which the upper one has turned to the
sprite, and a level above them that has turned back to the stage. -/
def climb : List (Nat × Operation) :=
  [(0, .push "call" none), (1, .push "hat" none), (0, .push "call" (some ⟨1⟩)),
    (0, .push "body" (some ⟨0⟩))]

/-- The upper one of the two levels is not at a call: once the level above it is popped, the sprite
is at work, which has no such block. -/
theorem stopScript_unwound_climb :
    ∃ answers s t a', (Schedule.fresh switching [("call", ⟨0⟩), ("hat", ⟨0⟩)]).play climb =
        .ok (answers, s) ∧ s.threads[0]? = some t ∧ Activity.catch? ⟨s.engine, t⟩ = some 2 ∧
      t.switchCount 2 ≤ t.targetStack.length ∧ Activity.stopScript ⟨s.engine, t⟩ = .ok a' ∧
      Activity.Unwound ⟨s.engine, t⟩ a' ∧ a'.thread.target = ⟨0⟩ ∧
      a'.thread.peek? = some "after" := by
  have hfacts : ((Schedule.fresh switching [("call", ⟨0⟩), ("hat", ⟨0⟩)]).play climb).map
      (fun result ↦ (result.2.threads[0]?).map fun t ↦
        decide (Activity.catch? ⟨result.2.engine, t⟩ = some 2 ∧
          t.switchCount 2 ≤ t.targetStack.length ∧
          (Activity.stopScript ⟨result.2.engine, t⟩).toOption.map (fun a' ↦
            (a'.thread.target, a'.thread.peek?)) = some (⟨0⟩, some "after"))) =
      .ok (some true) := by
    decide +kernel
  obtain ⟨⟨answers, s⟩, hplay, hfacts⟩ := exists_of_map_eq_ok hfacts
  obtain ⟨t, ht, hfacts⟩ := Option.map_eq_some_iff.1 hfacts
  obtain ⟨hcatch, hcovered, hstopped⟩ := of_decide_eq_true hfacts
  have hcount := popCount_of_catch? hcatch
  obtain ⟨a', hstop, -, hunwound⟩ := stopScript_unwound rfl hplay ht
    (a := ⟨s.engine, t⟩) rfl rfl (hcount ▸ hcovered)
  rw [hstop] at hstopped
  obtain ⟨htarget, hpeek⟩ := Prod.mk.inj (Option.some.inj hstopped)
  exact ⟨answers, s, t, a', hplay, ht, hcatch, hcovered, hstop, hunwound, htarget, hpeek⟩

end Activity

end BlockScript
