import BlockScript.Proofs.Thread.StackMachine

/-!
# What interpreting a thread does not look at

Whether compilation was asked for, and what came of it, decides how a thread's turn begins and
nothing after that. `Alike c t t'` says that two threads are the same but for what came of compiling
them, and every operation keeps this, in worlds that are the same but for what was asked for
(`World.asking`).

The result is `Alike.frames`: two threads that are alike and both interpreted live through any
frames in the same way, block by block and request by request.
-/

namespace BlockScript

/-- The world with compilation asked for, or not. -/
def World.asking (w : World) (compile : Bool) : World :=
  { w with settings := { w.settings with compileScripts := compile } }

/-- The second thread is the first one with another result of compiling it. -/
def Alike (c : Compilation) (t t' : InlineThread) : Prop :=
  t' = { t with compilation := c }

namespace Alike

variable {c : Compilation} {t t' : InlineThread} (w : World) (compile : Bool)

/-- Results that come with a value: the values are equal, and the threads are alike. -/
def WithValue {α : Type} (c : Compilation) (x y : α × InlineThread) : Prop :=
  x.1 = y.1 ∧ Alike c x.2 y.2

/-- The two threads have the same status. -/
theorem status_eq (h : Alike c t t') : t'.status = t.status := by
  rw [h]

theorem peek?_eq (h : Alike c t t') : t'.peek? = t.peek? := by
  rw [h]
  rfl

/-! ### Operations on the stack -/

/-- Both leave the same level. -/
theorem pop (h : Alike c t t') : Agree (WithValue c) t.pop t'.pop := by
  obtain rfl := h
  rcases t with ⟨_, - | ⟨⟨_, _, - | -⟩, rest⟩, _, - | ⟨target, targetStack⟩, _, _, _, _, _, _, _⟩
  · exact .ok ⟨rfl, rfl⟩
  · exact .ok ⟨rfl, rfl⟩
  · exact .ok ⟨rfl, rfl⟩
  · exact .ok ⟨rfl, rfl⟩
  · exact .error _
  · exact .ok ⟨rfl, rfl⟩

/-- Both move on to the same block. -/
theorem advance (h : Alike c t t') :
    Agree (Alike c) (t.advance w) (t'.advance (w.asking compile)) := by
  obtain rfl := h
  rcases t with ⟨_, - | ⟨level, rest⟩, _, _, _, _, _, _, _, _, _⟩
  · exact .error _
  · exact .ok rfl

/-- Both unwind to the same call, by induction on the levels that may be left. -/
theorem unwind (rounds : Nat) : ∀ {t t' : InlineThread}, Alike c t t' →
    Agree (Alike c) (t.unwind w rounds) (t'.unwind (w.asking compile) rounds) := by
  induction rounds with
  | zero => exact fun h ↦ .ok h
  | succ rounds ih =>
    intro t t' h
    have hlevels : t'.levels = t.levels := by rw [h]
    have hcall : ∀ level, t'.isCall (w.asking compile) level = t.isCall w level := by
      rw [h]
      exact fun level ↦ rfl
    rw [InlineThread.unwind, InlineThread.unwind, hlevels]
    cases t.levels with
    | nil => exact .ok h
    | cons level rest =>
      dsimp only
      rw [hcall]
      cases level.frame.waitingReporter with
      | true => exact .ok h
      | false =>
        cases t.isCall w level with
        | true => exact h.advance w compile
        | false => exact h.pop.bind fun x y hxy ↦ ih hxy.2

theorem settle (h : Alike c t t') : Alike c t.settle t'.settle := by
  obtain rfl := h
  rcases t with ⟨_, - | ⟨level, rest⟩, _, _, _, _, _, _, _, _, _⟩ <;> rfl

/-- Stopping a script does not look at what came of compiling it. -/
theorem stopScript (h : Alike c t t') :
    Agree (Alike c) (t.stopScript w) (t'.stopScript (w.asking compile)) := by
  have hdepth : t'.depth = t.depth := by rw [h]; rfl
  rw [InlineThread.stopScript, InlineThread.stopScript, hdepth]
  exact (unwind w compile t.depth h).map fun _ _ h' ↦ h'.settle

/-- Leaving all levels, by induction on how many there may be. -/
theorem unwindAll (rounds : Nat) : ∀ {t t' : InlineThread}, Alike c t t' →
    Agree (Alike c) (t.unwindAll rounds) (t'.unwindAll rounds) := by
  induction rounds with
  | zero => exact fun h ↦ .ok h
  | succ rounds ih => exact fun h ↦ h.pop.bind fun x y hxy ↦ ih hxy.2

/-- Neither does ending a thread. -/
theorem kill (h : Alike c t t') :
    Agree (Alike c) (t.kill w) (t'.kill (w.asking compile)) := by
  have hdepth : t'.depth = t.depth := by rw [h]; rfl
  rw [InlineThread.kill, InlineThread.kill, hdepth]
  exact (unwindAll t.depth h).bind fun _ _ h' ↦ h'.stopScript w compile

/-! ### Executing blocks -/

/-- Both yield, or neither does, as they have the same timer. -/
theorem yieldIfDue (h : Alike c t t') (now : Moment) :
    Alike c (t.yieldIfDue w now) (t'.yieldIfDue (w.asking compile) now) := by
  obtain rfl := h
  rw [InlineThread.yieldIfDue, InlineThread.yieldIfDue]
  have hshould : InlineThread.shouldYield (w.asking compile) { t with compilation := c } now =
      ((t.shouldYield w now).1, { (t.shouldYield w now).2 with compilation := c }) := by
    rw [InlineThread.shouldYield, InlineThread.shouldYield]
    show (if t.inWarpMode then _ else _) = _
    cases t.inWarpMode <;> rfl
  rw [hshould]
  dsimp only
  cases (t.shouldYield w now).1 <;> rfl

/-- Both enter a block, or both leave it behind. -/
theorem enterOrAdvance (h : Alike c t t') (b : Block) :
    Agree (Alike c) (t.enterOrAdvance w b) (t'.enterOrAdvance (w.asking compile) b) := by
  rw [InlineThread.enterOrAdvance, InlineThread.enterOrAdvance]
  cases b.substack? with
  | none => exact h.advance w compile
  | some body =>
    obtain rfl := h
    exact .ok rfl

theorem enterLoop (h : Alike c t t') (b : Block) : Alike c (t.enterLoop b) (t'.enterLoop b) := by
  obtain rfl := h
  rw [InlineThread.enterLoop, InlineThread.enterLoop]
  cases b.substack? <;> rfl

/-- Both see the same enclosing calls. -/
theorem enterProcedure (h : Alike c t t') (now : Moment) (b : Block) (code : String)
    (body : BlockId) : Alike c (t.enterProcedure w now b code body)
      (t'.enterProcedure (w.asking compile) now b code body) := by
  have hrecursive : t'.isRecursiveCall (w.asking compile) code = t.isRecursiveCall w code := by
    rw [h]
    rfl
  have hentered : ∀ warp : Bool, Alike c
      (if warp then (t.initParams.push body none).modifyTopFrame fun frame ↦
        { frame with warpMode := true } else t.initParams.push body none)
      (if warp then (t'.initParams.push body none).modifyTopFrame fun frame ↦
        { frame with warpMode := true } else t'.initParams.push body none) := by
    obtain rfl := h
    rintro (- | -) <;> rfl
  rw [InlineThread.enterProcedure, InlineThread.enterProcedure, hrecursive]
  cases t.isRecursiveCall w code with
  | false => exact hentered b.isWarp
  | true => exact yieldIfDue w compile (hentered b.isWarp) now

/-- Both find the same procedure. -/
theorem call (h : Alike c t t') (now : Moment) (b : Block) :
    Agree (Alike c) (t.call w now b) (t'.call (w.asking compile) now b) := by
  have htarget : t'.target = t.target := by rw [h]
  rw [InlineThread.call, InlineThread.call, htarget]
  cases b.proccode with
  | none => exact h.advance w compile
  | some code =>
    dsimp only
    rw [show (w.asking compile).procedureBody? t.target code = w.procedureBody? t.target code
      from rfl]
    cases w.procedureBody? t.target code with
    | none => exact h.advance w compile
    | some body => exact .ok (h.enterProcedure w compile now b code body)

/-- **Performing a block**, with one case for each command. -/
theorem perform (h : Alike c t t') (now : Moment) (b : Block) :
    Agree (WithValue c) (t.perform w now b) (t'.perform (w.asking compile) now b) := by
  have htarget : t'.target = t.target := by rw [h]
  rw [InlineThread.perform, InlineThread.perform]
  cases b.command with
  | stopAll => exact (h.kill w compile).map fun _ _ h' ↦ ⟨rfl, h'⟩
  | stopOthers => exact (h.advance w compile).map fun _ _ h' ↦ ⟨by rw [htarget], h'⟩
  | stopThis => exact (h.stopScript w compile).map fun _ _ h' ↦ ⟨rfl, h'⟩
  | forever => exact .ok ⟨rfl, h.enterLoop b⟩
  | call => exact (h.call w compile now b).map fun _ _ h' ↦ ⟨rfl, h'⟩
  | plain => exact (h.enterOrAdvance w compile b).map fun _ _ h' ↦ ⟨rfl, h'⟩

/-- Executing a block, which is found in either world or in none. -/
theorem execute (h : Alike c t t') (now : Moment) (id : BlockId) :
    Agree (WithValue c) (t.execute w now id) (t'.execute (w.asking compile) now id) := by
  have htarget : t'.target = t.target := by rw [h]
  rw [InlineThread.execute, InlineThread.execute,
    show (w.asking compile).resolve? t'.target id = w.resolve? t.target id by rw [htarget]; rfl]
  cases w.resolve? t.target id with
  | none => exact (h.stopScript w compile).map fun _ _ h' ↦ ⟨rfl, h'⟩
  | some b =>
    have hglow : Alike c { t with blockGlow := some id } { t' with blockGlow := some id } := by
      rw [h]
      rfl
    exact hglow.perform w compile now b

/-- Coming back to an enclosing block. -/
theorem resume (h : Alike c t t') (now : Moment) (parent : BlockId) :
    Agree (Alike c) (t.resume w now parent) (t'.resume (w.asking compile) now parent) := by
  have hframe : t'.topFrame? = t.topFrame? := by rw [h]; rfl
  have hsubstack : (w.asking compile).substack? t'.target parent =
      w.substack? t.target parent := by
    rw [h]
    rfl
  rw [InlineThread.resume, InlineThread.resume, hframe, hsubstack]
  cases t.topFrame?.elim false Frame.isLoop with
  | false => exact h.advance w compile
  | true =>
    refine .ok (yieldIfDue w compile ?_ now)
    cases w.substack? t.target parent with
    | none => exact h
    | some body =>
      obtain rfl := h
      rfl

/-- **A step** is the same for both, and asks for the same. -/
theorem stepBlock (h : Alike c t t') (now : Moment) :
    Agree (WithValue c) (t.stepBlock w now) (t'.stepBlock (w.asking compile) now) := by
  rw [InlineThread.stepBlock, InlineThread.stepBlock, h.peek?_eq]
  cases t.peek? with
  | some id => exact h.execute w compile now id
  | none =>
    refine h.pop.bind fun x y hxy ↦ ?_
    obtain ⟨block, t₁⟩ := x
    obtain ⟨block', t₁'⟩ := y
    have h₁ : Alike c t₁ t₁' := hxy.2
    dsimp only
    rw [h₁.peek?_eq]
    cases t₁.peek? with
    | none => exact (h₁.stopScript w compile).map fun _ _ h' ↦ ⟨rfl, h'⟩
    | some parent => exact (h₁.resume w compile now parent).map fun _ _ h' ↦ ⟨rfl, h'⟩

/-! ### Turns and frames -/

/-- Time is up for both or for neither. -/
theorem yieldIfLate (h : Alike c t t') (now : Moment) (deadline : Time) :
    Alike c (t.yieldIfLate w now deadline) (t'.yieldIfLate (w.asking compile) now deadline) := by
  obtain rfl := h
  rw [InlineThread.yieldIfLate, InlineThread.yieldIfLate]
  show Alike c _ (if t.status = .running then _ else _)
  split
  · have hlate : InlineThread.outOfTime (w.asking compile) { t with compilation := c } now
        deadline = ((t.outOfTime w now deadline).1,
          { (t.outOfTime w now deadline).2 with compilation := c }) := by
      rw [InlineThread.outOfTime, InlineThread.outOfTime, InlineThread.shouldYield,
        InlineThread.shouldYield]
      show (if t.inWarpMode then (if t.inWarpMode then _ else _) else _) = _
      cases t.inWarpMode <;> rfl
    rw [hlate]
    dsimp only
    cases (t.outOfTime w now deadline).1 <;> rfl
  · rfl

/-- A step, and what time is left after it. -/
theorem turn (h : Alike c t t') (shown : Reading) (deadline : Time) :
    Agree (WithValue c) (t.turn w shown deadline)
      (t'.turn (w.asking compile) shown deadline) := by
  rw [InlineThread.turn, InlineThread.turn]
  exact (h.stepBlock w compile shown.step).bind fun x y hxy ↦
    .ok ⟨hxy.1, yieldIfLate w compile hxy.2 shown.check deadline⟩

/-- Results of a turn or of a life: all but the threads is equal, and these are alike. -/
def OfTurn {α β : Type} (c : Compilation) (x y : α × β × InlineThread) : Prop :=
  x.1 = y.1 ∧ x.2.1 = y.2.1 ∧ Alike c x.2.2 y.2.2

/-- **A slice**, by induction on the turns that it may have. -/
theorem slice (deadline : Time) (shown : Readings) (turns : Nat) : ∀ {t t' : InlineThread}
    (request : Option StopRequest), Alike c t t' →
      Agree (OfTurn c) (InlineThread.slice w deadline shown turns request t)
        (InlineThread.slice (w.asking compile) deadline shown turns request t') := by
  induction turns generalizing shown with
  | zero =>
    intro t t' request h
    rw [InlineThread.slice, InlineThread.slice, h.status_eq]
    split
    · exact .error _
    · exact .ok ⟨rfl, rfl, h⟩
  | succ turns ih =>
    intro t t' request h
    rw [InlineThread.slice, InlineThread.slice, h.status_eq, h.peek?_eq]
    split
    · refine (h.turn w compile (shown 0) deadline).bind fun x y hxy ↦ ?_
      obtain ⟨latest, t₁⟩ := x
      obtain ⟨latest', t₁'⟩ := y
      obtain ⟨rfl, h₁⟩ : latest = latest' ∧ Alike c t₁ t₁' := hxy
      refine (ih shown.later (latest.or request) h₁).bind fun x y hxy ↦ ?_
      obtain ⟨blocks, last, t₂⟩ := x
      obtain ⟨blocks', last', t₂'⟩ := y
      obtain ⟨rfl, rfl, h₂⟩ : blocks = blocks' ∧ last = last' ∧ Alike c t₂ t₂' := hxy
      exact .ok ⟨rfl, rfl, h₂⟩
    · exact .ok ⟨rfl, rfl, h⟩

theorem wake (h : Alike c t t') : Alike c t.wake t'.wake := by
  obtain rfl := h
  rw [InlineThread.wake, InlineThread.wake]
  dsimp only
  split <;> rfl

/-- **Two lives.** Of two threads that are alike, and neither of them compiled, each does what the
other does. -/
theorem frames {target : TargetId} {lot : Lot} (hlot : lot.Interpreted)
    (hc : ∀ program, c ≠ .compiled program) (spells : List Spell) :
    ∀ {stack : Stack} {t t' : InlineThread}, Rests w target lot stack t → Alike c t t' →
      Agree (OfTurn c) (t.frames w spells) (t'.frames (w.asking compile) spells) := by
  induction spells with
  | nil => exact fun _ h ↦ .ok ⟨rfl, rfl, h⟩
  | cons spell spells ih =>
    intro stack t t' hrests h
    rw [InlineThread.frames, InlineThread.frames, h.status_eq]
    split
    · exact .ok ⟨rfl, rfl, h⟩
    · rename_i hlive
      have hne : stack ≠ [] := fun hnil ↦ hlive (hrests.status_eq_done_iff.2 hnil)
      have hstands := hrests.stands hne
      -- Only here does the result of compiling come in: a turn asks whether there is a program.
      have hinterpreted : t'.lot.Interpreted := by
        have hkilled : t'.killed = t.killed := by rw [h]
        have hcompilation : t'.compilation = c := by rw [h]
        refine ⟨hkilled.trans ((congrArg Lot.killed hstands.lot_eq).trans hlot.killed_eq), ?_⟩
        exact fun program heq ↦ hc program (hcompilation.symm.trans heq)
      rw [hstands.takeTurn_eq hlot, hinterpreted.takeTurn_eq]
      have hturn := slice w compile (spell.began + w.settings.workTime) spell.shown spell.turns
        none h.wake
      show Agree _ (InlineThread.slice w _ spell.shown spell.turns none t.wake >>= _)
        (InlineThread.slice (w.asking compile) (spell.began + w.settings.workTime) spell.shown
          spell.turns none t'.wake >>= _)
      rcases hslice : InlineThread.slice w (spell.began + w.settings.workTime) spell.shown
        spell.turns none t.wake with cause | ⟨blocks, request, t₁⟩
      · rw [hslice] at hturn
        rw [hturn.eq_error]
        exact .error cause
      · obtain ⟨n, -, hrests₁, -, -⟩ := Rests.exists_of_slice spell.turns hrests.wake hslice
        rw [hslice] at hturn
        obtain ⟨⟨blocks', request', t₁'⟩, hok, hblocks, hrequest, h₁⟩ := hturn.exists_right
        obtain rfl : blocks = blocks' := hblocks
        obtain rfl : request = request' := hrequest
        rw [hok]
        refine (ih hrests₁ h₁).bind fun x y hxy ↦ ?_
        obtain ⟨further, requests, t₂⟩ := x
        obtain ⟨further', requests', t₂'⟩ := y
        obtain ⟨rfl, rfl, h₂⟩ : further = further' ∧ requests = requests' ∧ Alike c t₂ t₂' := hxy
        exact .ok ⟨rfl, rfl, h₂⟩

end Alike

end BlockScript
