import BlockScript.Proofs.Activity.Turns

/-!
# What a thread keeps at every step

Some things about a thread are true after a step because they are true after each of the few
operations that a step is made of: replacing the top level's block, popping, flagging a loop,
entering what a block leads into, being done when nothing is left, and the fields that nothing else
looks at. `InlineThread.KeptIn w P` lists these operations, each with what is known of the thread at
the point of a step where it comes up, and says of each that it keeps `P`. That unwinding, executing
a block and a whole step then keep `P` too is proved once for all such `P` (`KeptIn.stepBlock`,
`KeptIn.stopScript`, `KeptIn.kill`).

Many properties need nothing of the point at which an operation comes up. `InlineThread.Kept P` is
for those.

Two properties are used later. A script that starts on a target stays there, with no target to
return to and no level that has switched (`InlineThread.AtHome`); and a thread that is done is not
highlighted any more (`InlineThread.Dimmed`).
-/

namespace BlockScript

/-- A computation that succeeds after a map has succeeded before it. -/
theorem exists_of_map_eq_ok {α β : Type} {x : Except Halt α} {f : α → β} {b : β}
    (h : x.map f = .ok b) : ∃ a, x = .ok a ∧ f a = b := by
  rcases x with cause | a
  · cases h
  · exact ⟨a, rfl, Except.ok.inj h⟩

namespace InlineThread

/-- The block at work is found, and this is it. -/
def AtWork (w : World) (t : InlineThread) (b : Block) : Prop :=
  ∃ id, t.peek? = some id ∧ w.resolve? t.target id = some b

/-- The thread inside the procedure that its block calls, before it may have to yield. -/
def entered (t : InlineThread) (b : Block) (body : BlockId) : InlineThread :=
  let t := t.initParams.push body none
  if b.isWarp then t.modifyTopFrame fun frame ↦ { frame with warpMode := true } else t

/-- A call enters its procedure first, and only then looks at the time. -/
theorem enterProcedure_eq (w : World) (t : InlineThread) (now : Moment) (b : Block) (code : String)
    (body : BlockId) : t.enterProcedure w now b code body =
      if t.isRecursiveCall w code then (t.entered b body).yieldIfDue w now else t.entered b body :=
  rfl

/-- Every operation that a step is made of keeps the property, where a step comes to it. -/
structure KeptIn (w : World) (P : InlineThread → Prop) : Prop where
  /-- Replacing the block of the top level. -/
  reuse : ∀ {t t' : InlineThread} {block : Option BlockId}, P t → t.reuse block = .ok t' → P t'
  /-- Popping a level. -/
  pop : ∀ {t t' : InlineThread} {block : Option BlockId}, P t → t.pop = .ok (block, t') → P t'
  /-- Flagging the level of a loop. -/
  flag : ∀ {t : InlineThread} {b : Block}, P t → t.AtWork w b → b.command = .forever →
    P (t.modifyTopFrame fun frame ↦ { frame with isLoop := true })
  /-- Entering the blocks that a block encloses. -/
  enter : ∀ {t : InlineThread} {b : Block} (body : BlockId), P t → t.AtWork w b →
    b.command ≠ .call → P (t.push body none)
  /-- Entering the blocks of a loop again. -/
  reenter : ∀ {t : InlineThread} (body : BlockId), P t →
    t.topFrame?.elim false Frame.isLoop = true → P (t.push body none)
  /-- Entering a procedure. -/
  entered : ∀ {t : InlineThread} {b : Block} (body : BlockId), P t → t.AtWork w b →
    b.command = .call → P (t.entered b body)
  /-- Being done when no level is left. -/
  settle : ∀ {t : InlineThread}, P t → P t.settle
  /-- Yielding. -/
  yield : ∀ {t : InlineThread}, P t → P (t.withStatus .yield)
  /-- Looking at the clock. -/
  withWarpTimer : ∀ {t : InlineThread} (timer : Option Time), P t → P (t.withWarpTimer timer)
  /-- Highlighting a block. -/
  highlight : ∀ {t : InlineThread} (id : BlockId), P t → P { t with blockGlow := some id }

/-- Writing to the top frame does not change the block at work. -/
theorem peek?_modifyTopFrame (t : InlineThread) (change : Frame → Frame) :
    (t.modifyTopFrame change).peek? = t.peek? := by
  rw [modifyTopFrame, peek?, peek?]
  rcases hlevels : t.levels with - | ⟨level, rest⟩
  · rfl
  · rfl

/-! ### What the operations do when they succeed -/

/-- A level that is used again keeps its place and whether it switched the target. -/
theorem exists_of_reuse {t t' : InlineThread} {block : Option BlockId}
    (h : t.reuse block = .ok t') : ∃ level rest, t.levels = level :: rest ∧
      t' = t.withLevels (⟨block, level.frame.renewed, level.switched⟩ :: rest) := by
  rw [InlineThread.reuse] at h
  split at h
  · cases h
  · exact ⟨_, _, ‹_›, (Except.ok.inj h).symm⟩

/-- A level that has switched targets restores the last one when it is popped. -/
theorem pop_cases {t t' : InlineThread} {block : Option BlockId} (h : t.pop = .ok (block, t')) :
    t.levels = [] ∧ t' = t ∨ ∃ level rest, t.levels = level :: rest ∧
      (level.switched = false ∧ t' = t.withLevels rest ∨
        level.switched = true ∧ ∃ target targetStack, t.targetStack = target :: targetStack ∧
          t' = { t.withLevels rest with target, targetStack }) := by
  rw [InlineThread.pop] at h
  split at h
  · cases h
    exact .inl ⟨‹_›, rfl⟩
  · rename_i level rest hlevels
    refine .inr ⟨level, rest, hlevels, ?_⟩
    rcases hswitched : level.switched with - | -
    · rw [hswitched] at h
      cases h
      exact .inl ⟨rfl, rfl⟩
    · rw [hswitched] at h
      obtain ⟨t₁, hrestore, ⟨⟩⟩ := exists_of_bind_eq_ok h
      rw [popTarget] at hrestore
      split at hrestore
      · cases hrestore
      · cases hrestore
        exact .inr ⟨rfl, _, _, ‹_›, rfl⟩

/-- Popping takes the top level away, if there is one. -/
theorem levels_of_pop {t t' : InlineThread} {block : Option BlockId} (h : t.pop = .ok (block, t')) :
    t'.levels = t.levels.tail := by
  obtain ⟨hlevels, rfl⟩ | ⟨level, rest, hlevels, ⟨-, rfl⟩ | ⟨-, target, targetStack, -, rfl⟩⟩ :=
    pop_cases h
  · rw [hlevels]
    rfl
  · rw [hlevels]
    rfl
  · rw [hlevels]
    rfl

namespace KeptIn

variable {w : World} {P : InlineThread → Prop} {t t' : InlineThread} {now : Moment}
  {request : Option StopRequest}

/-- Unwinding leaves levels and moves on, both of which keep the property. -/
theorem unwind (hP : KeptIn w P) (rounds : Nat) : ∀ {t : InlineThread}, P t →
    t.unwind w rounds = .ok t' → P t' := by
  induction rounds with
  | zero =>
    intro t h hunwind
    cases hunwind
    exact h
  | succ rounds ih =>
    intro t h hunwind
    rw [InlineThread.unwind] at hunwind
    split at hunwind
    · cases hunwind
      exact h
    · split at hunwind
      · cases hunwind
        exact h
      · split at hunwind
        · exact hP.reuse h hunwind
        · obtain ⟨⟨block, t₁⟩, hpop, hrest⟩ := exists_of_bind_eq_ok hunwind
          exact ih (hP.pop h hpop) hrest

/-- So does stopping a script. -/
theorem stopScript (hP : KeptIn w P) (h : P t) (hstop : t.stopScript w = .ok t') : P t' := by
  obtain ⟨t₁, hunwind, rfl⟩ := exists_of_map_eq_ok hstop
  exact hP.settle (hP.unwind t.depth h hunwind)

/-- Leaving all levels keeps it at each of them. -/
theorem unwindAll (hP : KeptIn w P) (rounds : Nat) : ∀ {t : InlineThread}, P t →
    t.unwindAll rounds = .ok t' → P t' := by
  induction rounds with
  | zero =>
    intro t h hunwind
    cases hunwind
    exact h
  | succ rounds ih =>
    intro t h hunwind
    obtain ⟨⟨block, t₁⟩, hpop, hrest⟩ := exists_of_bind_eq_ok hunwind
    exact ih (hP.pop h hpop) hrest

/-- So does ending a thread. -/
theorem kill (hP : KeptIn w P) (h : P t) (hkill : t.kill w = .ok t') : P t' := by
  obtain ⟨t₁, hunwind, hstop⟩ := exists_of_bind_eq_ok hkill
  exact hP.stopScript (hP.unwindAll t.depth h hunwind) hstop

/-- Yielding is a change of the status and the timer. -/
theorem yieldIfDue (hP : KeptIn w P) (h : P t) (w' : World) (now : Moment) :
    P (t.yieldIfDue w' now) := by
  have hclock : P (t.shouldYield w' now).2 := by
    rw [InlineThread.shouldYield]
    split
    · exact hP.withWarpTimer _ h
    · exact h
  rw [InlineThread.yieldIfDue]
  dsimp only
  split
  · exact hP.yield (hP.withWarpTimer none hclock)
  · exact hclock

/-- Entering a block that is no call. -/
theorem enterOrAdvance (hP : KeptIn w P) (h : P t) {b : Block} (hb : t.AtWork w b)
    (hcommand : b.command ≠ .call) (henter : t.enterOrAdvance w b = .ok t') : P t' := by
  rw [InlineThread.enterOrAdvance] at henter
  split at henter
  · cases henter
    exact hP.enter _ h hb hcommand
  · exact hP.reuse h henter

/-- Entering an endless loop. -/
theorem enterLoop (hP : KeptIn w P) (h : P t) {b : Block} (hb : t.AtWork w b)
    (hcommand : b.command = .forever) : P (t.enterLoop b) := by
  have hflag := hP.flag h hb hcommand
  rw [InlineThread.enterLoop]
  split
  · -- The flag has not changed which block is at work.
    obtain ⟨id, hpeek, hresolve⟩ := hb
    refine hP.enter _ hflag ⟨id, ?_, hresolve⟩ (by rw [hcommand]; exact Command.noConfusion)
    rw [peek?_modifyTopFrame, hpeek]
  · exact hP.yield hflag

/-- Entering a procedure, at a call. -/
theorem call (hP : KeptIn w P) (h : P t) {b : Block} (hb : t.AtWork w b)
    (hcommand : b.command = .call) (hcall : t.call w now b = .ok t') : P t' := by
  rw [InlineThread.call] at hcall
  split at hcall
  · exact hP.reuse h hcall
  · split at hcall
    · exact hP.reuse h hcall
    · rename_i body _
      have hentered := hP.entered body h hb hcommand
      rw [enterProcedure_eq] at hcall
      split at hcall
      · cases hcall
        exact hP.yieldIfDue hentered w now
      · cases hcall
        exact hentered

/-- **Performing the block at the top**, with one case for each command. -/
theorem perform (hP : KeptIn w P) (h : P t) {b : Block} (hb : t.AtWork w b)
    (hperform : t.perform w now b = .ok (request, t')) : P t' := by
  rw [InlineThread.perform] at hperform
  cases hcommand : b.command with
  | stopAll =>
    rw [hcommand] at hperform
    obtain ⟨t₁, hkill, ⟨⟩⟩ := exists_of_map_eq_ok hperform
    exact hP.kill h hkill
  | stopOthers =>
    rw [hcommand] at hperform
    obtain ⟨t₁, hadvance, ⟨⟩⟩ := exists_of_map_eq_ok hperform
    exact hP.reuse h hadvance
  | stopThis =>
    rw [hcommand] at hperform
    obtain ⟨t₁, hstop, ⟨⟩⟩ := exists_of_map_eq_ok hperform
    exact hP.stopScript h hstop
  | forever =>
    rw [hcommand] at hperform
    cases hperform
    exact hP.enterLoop h hb hcommand
  | call =>
    rw [hcommand] at hperform
    obtain ⟨t₁, hcall, ⟨⟩⟩ := exists_of_map_eq_ok hperform
    exact hP.call h hb hcommand hcall
  | plain =>
    rw [hcommand] at hperform
    obtain ⟨t₁, henter, ⟨⟩⟩ := exists_of_map_eq_ok hperform
    exact hP.enterOrAdvance h hb (by rw [hcommand]; exact Command.noConfusion) henter

/-- Executing it, if it exists. -/
theorem execute (hP : KeptIn w P) (h : P t) {id : BlockId} (hpeek : t.peek? = some id)
    (hexecute : t.execute w now id = .ok (request, t')) : P t' := by
  rw [InlineThread.execute] at hexecute
  split at hexecute
  · obtain ⟨t₁, hstop, ⟨⟩⟩ := exists_of_map_eq_ok hexecute
    exact hP.stopScript h hstop
  · rename_i b hb
    exact hP.perform (hP.highlight id h) ⟨id, hpeek, hb⟩ hexecute

/-- Coming back to an enclosing block. -/
theorem resume (hP : KeptIn w P) (h : P t) {parent : BlockId}
    (hresume : t.resume w now parent = .ok t') : P t' := by
  rw [InlineThread.resume] at hresume
  split at hresume
  · rename_i hloop
    cases hresume
    refine hP.yieldIfDue ?_ w now
    split
    · exact hP.reenter _ h hloop
    · exact h
  · exact hP.reuse h hresume

/-- **One step.** -/
theorem stepBlock (hP : KeptIn w P) (h : P t) (hstep : t.stepBlock w now = .ok (request, t')) :
    P t' := by
  rw [InlineThread.stepBlock] at hstep
  split at hstep
  · exact hP.execute h ‹_› hstep
  · obtain ⟨⟨block, t₁⟩, hpop, hrest⟩ := exists_of_bind_eq_ok hstep
    have hpopped := hP.pop h hpop
    dsimp only at hrest
    split at hrest
    · obtain ⟨t₂, hstop, ⟨⟩⟩ := exists_of_map_eq_ok hrest
      exact hP.stopScript hpopped hstop
    · obtain ⟨t₂, hresume, ⟨⟩⟩ := exists_of_map_eq_ok hrest
      exact hP.resume hpopped hresume

end KeptIn

/-! ### Properties that are kept wherever a step is -/

/-- Every operation that a step is made of keeps the property. -/
structure Kept (P : InlineThread → Prop) : Prop where
  /-- Replacing the block of the top level. -/
  reuse : ∀ {t t' : InlineThread} {block : Option BlockId}, P t → t.reuse block = .ok t' → P t'
  /-- Popping a level. -/
  pop : ∀ {t t' : InlineThread} {block : Option BlockId}, P t → t.pop = .ok (block, t') → P t'
  /-- Pushing a block on the same target. -/
  push : ∀ {t : InlineThread} (block : BlockId), P t → P (t.push block none)
  /-- Writing to the frame of the top level. -/
  modifyTopFrame : ∀ {t : InlineThread} (change : Frame → Frame), P t → P (t.modifyTopFrame change)
  /-- Being done when no level is left. -/
  settle : ∀ {t : InlineThread}, P t → P t.settle
  /-- Yielding. -/
  yield : ∀ {t : InlineThread}, P t → P (t.withStatus .yield)
  /-- Looking at the clock. -/
  withWarpTimer : ∀ {t : InlineThread} (timer : Option Time), P t → P (t.withWarpTimer timer)
  /-- Highlighting a block. -/
  highlight : ∀ {t : InlineThread} (id : BlockId), P t → P { t with blockGlow := some id }

namespace Kept

variable {P : InlineThread → Prop} {w : World} {t t' : InlineThread}

/-- What is kept wherever a step is, is so in any world. -/
theorem keptIn (hP : Kept P) (w : World) : KeptIn w P where
  reuse := hP.reuse
  pop := hP.pop
  flag := fun h _ _ ↦ hP.modifyTopFrame _ h
  enter := fun body h _ _ ↦ hP.push body h
  reenter := fun body h _ ↦ hP.push body h
  entered := by
    intro t b body h _ _
    have hpushed := hP.push body (hP.modifyTopFrame (t := t)
      (fun frame ↦ { frame with params := some (frame.params.getD Table.empty) }) h)
    rw [InlineThread.entered]
    split
    · exact hP.modifyTopFrame _ hpushed
    · exact hpushed
  settle := hP.settle
  yield := hP.yield
  withWarpTimer := hP.withWarpTimer
  highlight := hP.highlight

theorem stopScript (hP : Kept P) (h : P t) (hstop : t.stopScript w = .ok t') : P t' :=
  (hP.keptIn w).stopScript h hstop

theorem kill (hP : Kept P) (h : P t) (hkill : t.kill w = .ok t') : P t' :=
  (hP.keptIn w).kill h hkill

theorem stepBlock (hP : Kept P) (h : P t) {now : Moment} {request : Option StopRequest}
    (hstep : t.stepBlock w now = .ok (request, t')) : P t' :=
  (hP.keptIn w).stepBlock h hstep

end Kept

/-! ### Two properties that are kept -/

/-- The thread is where its script started, and no level of it has switched targets. -/
structure AtHome (hat : BlockId × TargetId) (t : InlineThread) : Prop where
  /-- It runs the same script. -/
  topBlock_eq : t.topBlock = hat.1
  /-- It is on the target of the script. -/
  target_eq : t.target = hat.2
  /-- There is no target to return to. -/
  targetStack_eq : t.targetStack = []
  /-- No level has switched. -/
  switched_eq : ∀ level ∈ t.levels, level.switched = false

theorem AtHome.withLevels {hat : BlockId × TargetId} {t : InlineThread} (h : t.AtHome hat)
    {levels : List InlineLevel} (hlevels : ∀ level ∈ levels, level.switched = false) :
    (t.withLevels levels).AtHome hat :=
  ⟨h.topBlock_eq, h.target_eq, h.targetStack_eq, hlevels⟩

/-- No operation leaves the target of the hat. -/
theorem kept_atHome (hat : BlockId × TargetId) : Kept (AtHome hat) where
  reuse := by
    intro t t' block h hreuse
    obtain ⟨level, rest, hlevels, rfl⟩ := exists_of_reuse hreuse
    have hswitched := h.switched_eq
    rw [hlevels, List.forall_mem_cons] at hswitched
    exact h.withLevels (List.forall_mem_cons.2 hswitched)
  pop := by
    intro t t' block h hpop
    have hswitched := h.switched_eq
    obtain ⟨-, rfl⟩ | ⟨level, rest, hlevels, hcases⟩ := pop_cases hpop
    · exact h
    · rw [hlevels, List.forall_mem_cons] at hswitched
      obtain ⟨-, rfl⟩ | ⟨hlevel, -⟩ := hcases
      · exact h.withLevels hswitched.2
      · rw [hswitched.1] at hlevel
        cases hlevel
  push := fun block h ↦ h.withLevels (List.forall_mem_cons.2 ⟨rfl, h.switched_eq⟩)
  modifyTopFrame := by
    intro t change h
    have hswitched := h.switched_eq
    refine h.withLevels ?_
    rcases hlevels : t.levels with - | ⟨level, rest⟩
    · exact fun level hmem ↦ by cases hmem
    · rw [hlevels, List.forall_mem_cons] at hswitched
      exact List.forall_mem_cons.2 hswitched
  settle := by
    intro t h
    rw [InlineThread.settle]
    split
    · exact ⟨h.topBlock_eq, h.target_eq, h.targetStack_eq, h.switched_eq⟩
    · exact h
  yield := fun h ↦ ⟨h.topBlock_eq, h.target_eq, h.targetStack_eq, h.switched_eq⟩
  withWarpTimer := fun _ h ↦ ⟨h.topBlock_eq, h.target_eq, h.targetStack_eq, h.switched_eq⟩
  highlight := fun _ h ↦ ⟨h.topBlock_eq, h.target_eq, h.targetStack_eq, h.switched_eq⟩

/-- Once the thread is done its script is not highlighted. -/
def Dimmed (t : InlineThread) : Prop :=
  t.status = .done → t.scriptGlow = false

/-- A thread that gets done loses its highlight, and does not get it back. -/
theorem kept_dimmed : Kept Dimmed where
  reuse := by
    intro t t' block h hreuse
    obtain ⟨level, rest, -, rfl⟩ := exists_of_reuse hreuse
    exact h
  pop := by
    intro t t' block h hpop
    obtain ⟨-, rfl⟩ | ⟨level, rest, -, ⟨-, rfl⟩ | ⟨-, target, targetStack, -, rfl⟩⟩ :=
      pop_cases hpop
    · exact h
    · exact h
    · exact h
  push := fun _ h ↦ h
  modifyTopFrame := fun _ h ↦ h
  settle := by
    intro t h
    rw [InlineThread.settle]
    split
    · exact fun _ ↦ rfl
    · exact h
  yield := fun _ hdone ↦ by cases hdone
  withWarpTimer := fun _ h ↦ h
  highlight := fun _ h ↦ h

end InlineThread

end BlockScript
