import BlockScript.Proofs.Schedule.Driving

/-!
# Watching one thread of a run

A run goes on frame after frame, with every thread in turn, and threads that are done leave the
list, so that the others move up. A `Watch` follows one thread through all this: it keeps the
thread's position, and writes down what happens at the thread's own turns, namely the blocks that it
comes to, what it asks of the other threads, and whether any of them had asked it to stop by then.

A watch only looks on: the schedule goes where it goes without it (`Watch.map_schedule_frame`).

What is written down depends on the thread alone, as long as it is spared: it is what an inline
thread gives that lives through the same frames by itself (`Watch.Tracks.run`). The relation
`Watch.Tracks` between the watched thread and the lone one leaves out marks, since the mark that a
turn of its own brings to light is the one thing that others can do to it.
-/

namespace BlockScript

namespace Schedule

/-- The schedule when the turn of the thread at a position comes, in a frame. -/
def upTo (s : Schedule) (clock : Clock) (turns position : Nat) : Except Halt Schedule :=
  (List.range position).foldlM (stepAt (s.turnIn clock turns)) s

/-- Frames in order, each with what the clock shows in it and with its number of turns. -/
def framesAt : List (Clock × Nat) → Schedule → Except Halt Schedule
  | [], s => .ok s
  | (clock, turns) :: ticks, s => do
    let s ← s.frame clock turns
    framesAt ticks s

end Schedule

namespace Clock

/-- What the thread at a position is given in a frame. -/
def spell (clock : Clock) (turns position : Nat) : Spell :=
  ⟨clock.began, clock.shown position, turns⟩

/-- A clock that shows the same in the turns of all threads. -/
def Uniform (clock : Clock) : Prop :=
  ∀ i j, clock.shown i = clock.shown j

theorem Uniform.spell_eq {clock : Clock} (h : clock.Uniform) (turns position : Nat) :
    clock.spell turns position = clock.spell turns 0 := by
  rw [spell, spell, h position 0]

end Clock

/-- **What a thread is given in frames**: a spell for each of them, at the positions that it came to
be at. -/
def Spells : List (Clock × Nat) → List Spell → Prop :=
  List.Forall₂ fun tick spell ↦ ∃ position, spell = tick.1.spell tick.2 position

/-- Under clocks that show the same to all threads its positions do not matter. -/
theorem Spells.eq_map {ticks : List (Clock × Nat)} {spells : List Spell} (h : Spells ticks spells)
    (huniform : ∀ tick ∈ ticks, tick.1.Uniform) :
    spells = ticks.map fun tick ↦ tick.1.spell tick.2 0 := by
  induction h with
  | nil => rfl
  | cons hspell _ ih =>
    obtain ⟨position, rfl⟩ := hspell
    obtain ⟨hfirst, hrest⟩ := List.forall_mem_cons.1 huniform
    rw [List.map_cons, ← ih hrest, hfirst.spell_eq]

/-- A run, with what is known of one of its threads. -/
structure Watch where
  /-- The schedule. -/
  schedule : Schedule
  /-- Where the thread is, until it is done. -/
  position : Option Nat
  /-- The blocks that the thread came to. -/
  blocks : List BlockId := []
  /-- What the thread asked of the others, turn by turn. -/
  requests : List StopRequest := []
  /-- Whether the thread was left alone at each of its turns. -/
  spared : Bool := true

namespace Watch

open Schedule

/-- One frame. -/
def frame (x : Watch) (clock : Clock) (turns : Nat) : Except Halt Watch :=
  match x.position with
  | none => (x.schedule.frame clock turns).map fun s ↦ { x with schedule := s }
  | some position => do
    let before ← x.schedule.upTo clock turns position
    match before.threads[position]? with
    | none => (x.schedule.frame clock turns).map fun s ↦ { x with schedule := s, position := none }
    | some t => do
      let (request, a) ← x.schedule.turnIn clock turns position ⟨before.engine, t⟩
      let after ← (List.range' (position + 1) (x.schedule.threads.length - (position + 1))).foldlM
        (stepAt (x.schedule.turnIn clock turns)) (afterTurn before position request a)
      return {
        schedule := after.sweep
        position :=
          if a.thread.status = .done then none
          else some ((after.threads.take position).countP fun t ↦ t.status != .done)
        blocks := x.blocks ++ a.engine.blocksRun.drop before.engine.blocksRun.length
        requests := x.requests ++ request.toList
        spared := x.spared && !t.killed }

/-- Frames in order. -/
def run (x : Watch) : List (Clock × Nat) → Except Halt Watch
  | [] => .ok x
  | (clock, turns) :: ticks => do
    let x ← x.frame clock turns
    x.run ticks

/-- The thread's turn, should it come next and the thread be spared, ends within the steps that are
granted. -/
def TurnEnds (x : Watch) (clock : Clock) (turns : Nat) : Prop :=
  ∀ (position : Nat) (before : Schedule) (t : Thread), x.position = some position →
    x.schedule.upTo clock turns position = .ok before → before.threads[position]? = some t →
    t.killed = false → ∃ result,
      x.schedule.turnIn clock turns position ⟨before.engine, t⟩ = .ok result

/-! ### A watch only looks on -/

/-- The turns of a frame, divided at the thread that is watched. -/
private theorem range_eq {position n : Nat} (hlt : position < n) :
    List.range n =
      List.range position ++ position :: List.range' (position + 1) (n - (position + 1)) := by
  rw [List.range_eq_range', List.range_eq_range']
  obtain ⟨k, rfl⟩ := Nat.exists_eq_add_of_lt hlt
  have hcount : position + k + 1 - (position + 1) = k := by omega
  rw [hcount, show position + k + 1 = position + (k + 1) by omega, ← List.range'_append_1,
    Nat.zero_add, List.range'_succ]

/-- **Watching changes nothing.** -/
theorem map_schedule_frame {x : Watch} (clock : Clock) (turns : Nat)
    (hposition : ∀ position, x.position = some position → position < x.schedule.threads.length) :
    (x.frame clock turns).map Watch.schedule = x.schedule.frame clock turns := by
  rw [Watch.frame]
  rcases hx : x.position with - | position
  · dsimp only
    cases x.schedule.frame clock turns <;> rfl
  · dsimp only
    -- A frame is the turns before that of the watched thread, its own turn, and the turns after it.
    have hframe : x.schedule.frame clock turns = do
        let before ← x.schedule.upTo clock turns position
        let s ← stepAt (x.schedule.turnIn clock turns) before position
        let s ← (List.range' (position + 1) (x.schedule.threads.length - (position + 1))).foldlM
          (stepAt (x.schedule.turnIn clock turns)) s
        return s.sweep := by
      rw [Schedule.frame, everyTurn, range_eq (hposition position hx), List.foldlM_append]
      simp only [List.foldlM_cons, bind_assoc]
      rfl
    rcases hup : x.schedule.upTo clock turns position with cause | before
    · rw [hframe, hup]
      rfl
    · rcases hthread : before.threads[position]? with - | t
      · simp only [bind, Except.bind, hthread]
        cases x.schedule.frame clock turns <;> rfl
      · rw [hframe, hup]
        simp only [bind, Except.bind, hthread, stepAt]
        cases x.schedule.turnIn clock turns position ⟨before.engine, t⟩ with
        | error cause => rfl
        | ok result =>
          simp only [pure, Except.pure]
          rw [← afterTurn]
          rcases List.foldlM _ _ _ with cause | after <;> rfl

/-! ### The watched thread and the lone one -/

/-- The watched thread is `t`, its mark apart, or is gone where `t` is done. -/
structure Tracks (w : World) (x : Watch) (t : InlineThread) : Prop where
  /-- Once it is gone it is done. -/
  status_eq_done : x.position = none → t.status = .done
  /-- Until then it is at its position. -/
  getElem?_eq : ∀ position, x.position = some position → t.status ≠ .done ∧ t.killed = false ∧
    Driven w x.schedule ∧ ∃ t', x.schedule.threads[position]? = some t' ∧
      (t'.inline x.schedule.engine.pool).unmarked = t

/-- A thread that stays when others go is found as many places up as others went before it. -/
theorem getElem?_filter {α : Type} {p : α → Bool} {x : α} (hp : p x = true) :
    ∀ {l : List α} {i : Nat}, l[i]? = some x → (l.filter p)[(l.take i).countP p]? = some x := by
  intro l
  induction l with
  | nil => exact fun hx ↦ by cases hx
  | cons y rest ih =>
    intro i hx
    cases i with
    | zero =>
      obtain rfl := Option.some.inj hx
      rw [List.filter_cons_of_pos hp, List.take_zero, List.countP_nil]
      rfl
    | succ i =>
      rw [List.take_succ_cons, List.countP_cons, List.filter_cons]
      cases p y with
      | true => exact ih hx
      | false => exact ih hx

/-- A thread that is spared to the end is spared on the way. -/
theorem spared_of_frame {x x' : Watch} {clock : Clock} {turns : Nat}
    (hframe : x.frame clock turns = .ok x') (hspared : x'.spared = true) : x.spared = true := by
  rw [Watch.frame] at hframe
  split at hframe
  · cases hnext : x.schedule.frame clock turns <;> rw [hnext] at hframe <;> cases hframe
    exact hspared
  · obtain ⟨before, -, hframe₁⟩ := exists_of_bind_eq_ok hframe
    split at hframe₁
    · cases hnext : x.schedule.frame clock turns <;> rw [hnext] at hframe₁ <;> cases hframe₁
      exact hspared
    · obtain ⟨result, -, hframe₂⟩ := exists_of_bind_eq_ok hframe₁
      obtain ⟨after, -, hframe₃⟩ := exists_of_bind_eq_ok hframe₂
      cases hframe₃
      exact (Bool.and_eq_true_iff.1 hspared).1

theorem spared_of_run (ticks : List (Clock × Nat)) : ∀ {x x' : Watch}, x.run ticks = .ok x' →
    x'.spared = true → x.spared = true := by
  induction ticks with
  | nil =>
    intro x x' hrun hspared
    cases hrun
    exact hspared
  | cons tick ticks ih =>
    intro x x' hrun hspared
    obtain ⟨x₁, hframe, hrest⟩ := exists_of_bind_eq_ok hrun
    exact spared_of_frame hframe (ih hrest hspared)

namespace Tracks

variable {w : World} {x x' : Watch} {t : InlineThread} {clock : Clock} {turns : Nat}

/-- When its turn comes, a thread that is spared is the lone thread. -/
theorem upTo {position : Nat} {before : Schedule} (h : Tracks w x t)
    (hposition : x.position = some position)
    (hup : x.schedule.upTo clock turns position = .ok before) :
    Driven w before ∧ ∃ t', before.threads[position]? = some t' ∧
      (t'.killed = false → t'.inline before.engine.pool = t) := by
  obtain ⟨-, -, hdriven, t₀, ht₀, hsame⟩ := h.getElem?_eq position hposition
  obtain ⟨hdriven', -, t', ht', hsame'⟩ :=
    hdriven.foldlM (List.range position) List.not_mem_range_self ht₀ hup
  refine ⟨hdriven', t', ht', fun hkilled ↦ ?_⟩
  rw [← hsame, ← hsame']
  exact (InlineThread.unmarked_of_killed_eq hkilled).symm

/-- **One frame**, as long as the thread is there and is spared: its turn is that of the lone
thread. -/
theorem frame {position : Nat} (h : Tracks w x t) (hposition : x.position = some position)
    (hframe : x.frame clock turns = .ok x') (hspared : x'.spared = true) :
    x.spared = true ∧ ∃ blocks request t',
      t.takeTurn w (clock.began + w.settings.workTime) (clock.shown position) turns =
        .ok (blocks, request, t') ∧
      x'.blocks = x.blocks ++ blocks ∧ x'.requests = x.requests ++ request.toList ∧
      Tracks w x' t' := by
  obtain ⟨-, -, hdriven, -⟩ := h.getElem?_eq position hposition
  have hsettings : x.schedule.engine.settings = w.settings :=
    congrArg World.settings hdriven.world
  rw [Watch.frame, hposition] at hframe
  dsimp only at hframe
  obtain ⟨before, hup, hframe₁⟩ := exists_of_bind_eq_ok hframe
  obtain ⟨hdriven₁, t₁, ht₁, hsame⟩ := h.upTo hposition hup
  rw [ht₁] at hframe₁
  obtain ⟨⟨request, a⟩, hturn, hframe₂⟩ := exists_of_bind_eq_ok hframe₁
  obtain ⟨after, hrest, hframe₃⟩ := exists_of_bind_eq_ok hframe₂
  cases hframe₃
  obtain ⟨hspared₀, hkilled⟩ : x.spared = true ∧ t₁.killed = false := by
    have hboth := Bool.and_eq_true_iff.1 hspared
    exact ⟨hboth.1, by simpa using hboth.2⟩
  have ht : t₁.inline before.engine.pool = t := hsame hkilled
  obtain ⟨blocks, hinline, hreports⟩ := hdriven₁.reports ht₁ hturn
  refine ⟨hspared₀, blocks, request, a.inline, ?_, ?_, rfl, ?_⟩
  · rw [← ht, ← hinline, hsettings]
  · show x.blocks ++ a.engine.blocksRun.drop before.engine.blocksRun.length = _
    rw [hreports.blocksRun, List.drop_left]
  · by_cases hdone : a.thread.status = .done
    · refine ⟨fun _ ↦ hdone, fun position' hposition' ↦ ?_⟩
      rw [show (if a.thread.status = .done then none else _) = none from if_pos hdone]
        at hposition'
      cases hposition'
    · refine ⟨fun hnone ↦ ?_, fun position' hposition' ↦ ?_⟩
      · rw [show (if a.thread.status = .done then none else _) = some _ from if_neg hdone] at hnone
        cases hnone
      · rw [show (if a.thread.status = .done then none else _) = some _ from if_neg hdone]
          at hposition'
        obtain rfl := Option.some.inj hposition'
        -- The thread was spared at its own turn. A mark that it gets later in the frame shows at
        -- its next turn, which is why `Tracks` leaves marks out.
        have hmark : a.inline.killed = false := by
          obtain ⟨target, lot, stack, hrests⟩ := hdriven₁.rests t₁ (List.mem_of_getElem? ht₁)
          exact (congrArg Lot.killed (hrests.lot_of_takeTurn hinline)).trans hkilled
        have hnotMem : position ∉
            List.range' (position + 1) (x.schedule.threads.length - (position + 1)) := by
          rw [List.mem_range'_1]
          omega
        obtain ⟨hdriven₂, -, t₂, ht₂, hsame₂⟩ := (hdriven₁.turn ht₁ hturn).foldlM _ hnotMem
          (Driven.getElem?_afterTurn ht₁) hrest
        have hunmarked : (t₂.inline after.engine.pool).unmarked = a.inline :=
          hsame₂.trans (InlineThread.unmarked_of_killed_eq hmark)
        refine ⟨hdone, hmark, hdriven₂.sweep, t₂, getElem?_filter ?_ ht₂, hunmarked⟩
        have hstatus₂ : t₂.status = a.thread.status := congrArg InlineThread.status hunmarked
        rw [hstatus₂]
        simpa using hdone

/-- The watched thread is gone just when the lone thread is done. -/
theorem position_eq_none_iff (h : Tracks w x t) : x.position = none ↔ t.status = .done := by
  refine ⟨h.status_eq_done, fun hdone ↦ ?_⟩
  by_contra hsome
  obtain ⟨position, hposition⟩ := Option.ne_none_iff_exists'.1 hsome
  exact (h.getElem?_eq position hposition).1 hdone

/-- The turn of a thread that is spared ends if that of the lone thread does. -/
theorem turnEnds (h : Tracks w x t)
    (hturn : ∀ position, x.position = some position → ∃ result,
      t.takeTurn w (clock.began + w.settings.workTime) (clock.shown position) turns = .ok result) :
    x.TurnEnds clock turns := by
  intro position before t' hposition hup ht' hkilled
  obtain ⟨result, hturn⟩ := hturn position hposition
  obtain ⟨hdriven, t'', ht'', hsame⟩ := h.upTo hposition hup
  obtain rfl : t' = t'' := Option.some.inj (ht'.symm.trans ht'')
  have hsettings : x.schedule.engine.settings = w.settings :=
    congrArg World.settings (h.getElem?_eq position hposition).2.2.1.world
  rw [← hsame hkilled] at hturn
  rw [turnIn, hsettings]
  exact hdriven.takeTurn_of_inline ht' hturn

/-- So the turn of an interpreted thread ends if the stack machine does within as many steps. -/
theorem turnEnds_of_after_eq_nil {target : TargetId} {lot : Lot} {stack : Stack} (h : Tracks w x t)
    (hlot : lot.Interpreted) (hrests : Rests w target lot stack t)
    (hend : Stack.after w target turns stack = []) : x.TurnEnds clock turns := by
  refine h.turnEnds fun position hposition ↦ ?_
  have hne := mt hrests.status_eq_done_iff.2 (h.getElem?_eq position hposition).1
  exact hrests.takeTurn_of_after_eq_nil hlot hne hend

/-- One frame after the thread is gone. -/
theorem frame_of_gone (h : Tracks w x t) (hgone : x.position = none)
    (hframe : x.frame clock turns = .ok x') :
    x'.spared = x.spared ∧ x'.blocks = x.blocks ∧ x'.requests = x.requests ∧ Tracks w x' t := by
  rw [Watch.frame, hgone] at hframe
  rcases hnext : x.schedule.frame clock turns with cause | s
  · rw [hnext] at hframe
    cases hframe
  · rw [hnext] at hframe
    cases hframe
    refine ⟨rfl, rfl, rfl, fun _ ↦ h.status_eq_done hgone, fun position hposition ↦ ?_⟩
    cases hposition

theorem lt_length (h : Tracks w x t) (position : Nat) (hposition : x.position = some position) :
    position < x.schedule.threads.length := by
  obtain ⟨-, -, -, t', ht', -⟩ := h.getElem?_eq position hposition
  exact (List.getElem?_eq_some_iff.1 ht').1

/-- **A whole run**, by induction from one frame: what is written down of a thread that is spared is
what the lone thread gives. -/
theorem run (ticks : List (Clock × Nat)) : ∀ {x x' : Watch} {t : InlineThread}, Tracks w x t →
    x.run ticks = .ok x' → x'.spared = true →
      x.spared = true ∧ framesAt ticks x.schedule = .ok x'.schedule ∧
      ∃ spells blocks requests t', Spells ticks spells ∧
        t.frames w spells = .ok (blocks, requests, t') ∧ x'.blocks = x.blocks ++ blocks ∧
        x'.requests = x.requests ++ requests ∧ Tracks w x' t' := by
  induction ticks with
  | nil =>
    intro x x' t h hrun hspared
    cases hrun
    exact ⟨hspared, rfl, [], [], [], t, .nil, rfl, (List.append_nil _).symm,
      (List.append_nil _).symm, h⟩
  | cons tick ticks ih =>
    obtain ⟨clock, turns⟩ := tick
    intro x x' t h hrun hspared
    obtain ⟨x₁, hframe, hrest⟩ := exists_of_bind_eq_ok hrun
    have hnext : x.schedule.frame clock turns = .ok x₁.schedule := by
      rw [← map_schedule_frame clock turns h.lt_length, hframe]
      rfl
    rcases hposition : x.position with - | position
    · obtain ⟨hspared₁, hblocks, hrequests, h₁⟩ := h.frame_of_gone hposition hframe
      obtain ⟨hspared₀, hframes, spells, blocks, requests, t', hspells, hlone, hblocks',
        hrequests', h'⟩ := ih h₁ hrest hspared
      have hdone := h.status_eq_done hposition
      rw [InlineThread.frames_of_done hdone] at hlone
      cases hlone
      -- Nothing that happens at any position concerns it any more.
      refine ⟨hspared₁ ▸ hspared₀, ?_, clock.spell turns 0 :: spells, [], [], t,
        .cons ⟨0, rfl⟩ hspells, InlineThread.frames_of_done hdone, ?_, ?_, h'⟩
      · rw [framesAt, hnext]
        exact hframes
      · rw [hblocks', hblocks]
      · rw [hrequests', hrequests]
    · have hlive := (h.getElem?_eq position hposition).1
      have hspared₁ : x₁.spared = true := spared_of_run ticks hrest hspared
      obtain ⟨hspared₀, blocks₁, request, t₁, hturn, hblocks, hrequests, h₁⟩ :=
        h.frame hposition hframe hspared₁
      obtain ⟨-, hframes, spells, blocks, requests, t', hspells, hlone, hblocks', hrequests',
        h'⟩ := ih h₁ hrest hspared
      refine ⟨hspared₀, ?_, clock.spell turns position :: spells, blocks₁ ++ blocks,
        request.toList ++ requests, t', .cons ⟨position, rfl⟩ hspells, ?_, ?_, ?_, h'⟩
      · rw [framesAt, hnext]
        exact hframes
      · rw [InlineThread.frames, if_neg hlive, Clock.spell, hturn]
        show (InlineThread.frames w spells t₁ >>= _) = _
        rw [hlone]
        rfl
      · rw [hblocks', hblocks, List.append_assoc]
      · rw [hrequests', hrequests, List.append_assoc]

end Tracks

/-- A watch from the start of a schedule. -/
def ofStart (s : Schedule) (position : Nat) : Watch :=
  { schedule := s, position := some position }

/-- At the start the watched thread is at its hat. -/
theorem tracks_ofStart {e : Engine} {s : Schedule} (hpool : e.pool = Pool.empty)
    (hstart : start e = .ok s) {position : Nat} {hat : BlockId × TargetId}
    (hhat : (hats e)[position]? = some hat) :
    ∃ t compilation, s.threads[position]? = some t ∧ t.compilation = compilation ∧
      e.compilation hat = .ok compilation ∧
      Tracks e.world (ofStart s position) (InlineThread.started hat compilation) := by
  obtain ⟨hdriven, hlength, hthreads⟩ := driven_start hpool hstart
  have hlt : position < s.threads.length := hlength ▸ (List.getElem?_eq_some_iff.1 hhat).1
  have ht : s.threads[position]? = some s.threads[position] := List.getElem?_eq_getElem hlt
  obtain ⟨compilation, hcompile, hinline⟩ := hthreads position hat _ hhat ht
  refine ⟨_, compilation, ht, congrArg InlineThread.compilation hinline, hcompile, ?_, ?_⟩
  · intro hnone
    cases hnone
  · intro position' hposition
    obtain rfl := Option.some.inj hposition
    refine ⟨Status.noConfusion, rfl, hdriven, _, ht, ?_⟩
    show (Thread.inline s.engine.pool _).unmarked = _
    rw [hinline]
    rfl

/-- From the start, a thread that is spared takes the course of the lone one. -/
theorem Tracks.run_ofStart {w : World} {s : Schedule} {position : Nat} {t : InlineThread}
    {ticks : List (Clock × Nat)} {x : Watch} (h : Tracks w (ofStart s position) t)
    (hrun : (ofStart s position).run ticks = .ok x) (hspared : x.spared = true) :
    ∃ spells t', Spells ticks spells ∧ t.frames w spells = .ok (x.blocks, x.requests, t') ∧
      Tracks w x t' := by
  obtain ⟨-, -, spells, blocks, requests, t', hspells, hlone, hblocks, hrequests, h'⟩ :=
    h.run ticks hrun hspared
  have hblocks' : x.blocks = blocks := hblocks
  have hrequests' : x.requests = requests := hrequests
  rw [hblocks', hrequests']
  exact ⟨spells, t', hspells, hlone, h'⟩

end Watch

end BlockScript
