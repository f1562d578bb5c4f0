import BlockScript.Proofs.Schedule.Following
import BlockScript.Proofs.Schedule.StopRequests
import BlockScript.Proofs.Thread.Decisions

/-!
# Runs in which no thread ends another

Where no thread executes a block that ends other scripts, the threads of a run have nothing to do
with each other: each of them lives its own life, which an inline thread lives through all by itself
(`InlineThread.life`), and the run is these lives side by side.

Both directions are needed of this. A run of the schedule that comes to an end without a request
gives a life to each of its threads (`Driven.quietly_of_drive`); and lives that all come to an end
make a run that does (`Driven.exists_drive`), in whatever order the threads stand and whatever
frames of the pool they are given. The second is what carries a run over to another order.

What is left between the threads is the clock. One that goes on shows a thread something else the
later its turn comes, and a life has to be told without regard to positions. So lives are told in
ticks of their own, and seen in a way that may leave something out (`View`): `Tick.SeenAs` says that
the frame of a tick gives every thread, wherever it stands, what a tick of its own would give it.
This is so of a clock that shows the same to all threads (`Tick.Impartial.seenAs`), and, if one does
not look at the timers, of any clock under budgets of nothing or without end
(`Tick.Decides.seenAs`).
-/

namespace BlockScript

/-! ### Ways to look at threads -/

/-- A way to look at threads, which leaves nothing out of their status and their levels. -/
structure View where
  /-- What is seen of a thread. -/
  see : InlineThread → InlineThread
  /-- Its status is. -/
  status_see : ∀ t, (see t).status = t.status
  /-- Its levels are. -/
  levels_see : ∀ t, (see t).levels = t.levels

namespace View

/-- Everything is seen. -/
def full : View where
  see := id
  status_see := fun _ ↦ rfl
  levels_see := fun _ ↦ rfl

/-- Everything but the timer is seen. -/
def timerless : View where
  see := InlineThread.timerless
  status_see := fun _ ↦ rfl
  levels_see := fun _ ↦ rfl

/-- What is seen of the result of a turn. -/
def result (v : View) (x : List BlockId × Option StopRequest × InlineThread) :
    List BlockId × Option StopRequest × InlineThread :=
  (x.1, x.2.1, v.see x.2.2)

/-- What is seen of a report: the blocks that a thread came to, and the thread. -/
def report (v : View) (x : List BlockId × InlineThread) : List BlockId × InlineThread :=
  (x.1, v.see x.2)

/-- Threads that are done are seen to be. -/
theorem filter_map_see (v : View) (ts : List InlineThread) :
    (ts.map v.see).filter (fun t ↦ t.status != .done) =
      (ts.filter fun t ↦ t.status != .done).map v.see := by
  rw [List.filter_map]
  refine congrArg _ (List.filter_congr fun t _ ↦ ?_)
  rw [Function.comp, v.status_see]

end View

/-! ### Lives -/

namespace InlineThread

theorem eq_of_unmarked {t t' : InlineThread} (h : t.unmarked = t'.unmarked)
    (hkilled : t.killed = t'.killed) : t = t' := by
  cases t
  cases t'
  cases hkilled
  simpa [unmarked] using h

/-- What is seen of a thread's turn in the frame of a tick of its own. -/
def atTick (v : View) (w : World) (tick : Tick) (t : InlineThread) :
    Except Halt (List BlockId × Option StopRequest × InlineThread) :=
  (t.takeTurn (w.during tick) (tick.clock.began + tick.workTime) (tick.clock.shown 0)
    tick.turns).map v.result

/-- The thread after its turn. -/
def afterTick (v : View) (w : World) (tick : Tick) (t : InlineThread) : InlineThread :=
  match t.atTick v w tick with
  | .ok (_, _, t') => t'
  | .error _ => t

/-- All turns of the thread end, until it is done, and it asks nothing of the others. -/
def Quietly (v : View) (w : World) : List Tick → InlineThread → Prop
  | [], _ => True
  | tick :: ticks, t => ∃ blocks t', t.atTick v w tick = .ok (blocks, none, t') ∧
      (t'.status ≠ .done → Quietly v w ticks t')

/-- The life of a thread: turn by turn, until it is done, the blocks that it comes to and what is
seen of it afterwards. -/
def life (v : View) (w : World) : List Tick → InlineThread → List (List BlockId × InlineThread)
  | [], _ => []
  | tick :: ticks, t =>
    match t.atTick v w tick with
    | .ok (blocks, _, t') =>
      (blocks, t') :: if t'.status = .done then [] else life v w ticks t'
    | .error _ => []

/-- What is left of a thread. -/
def remains (v : View) (w : World) : List Tick → InlineThread → Option InlineThread
  | [], t => some t
  | tick :: ticks, t =>
    if (t.afterTick v w tick).status = .done then none
    else remains v w ticks (t.afterTick v w tick)

variable {v : View} {w : World} {tick : Tick} {t t' : InlineThread} {blocks : List BlockId}
  {request : Option StopRequest}

theorem afterTick_eq (h : t.atTick v w tick = .ok (blocks, request, t')) :
    t.afterTick v w tick = t' := by
  rw [afterTick, h]

section Threads

variable {ticks : List Tick} {ts : List InlineThread}

/-- Threads whose turns end quietly are left with turns that do, those of them that are not done. -/
theorem quietly_of_mem_filter (hquiet : ∀ t ∈ ts, t.Quietly v w (tick :: ticks))
    (hmem : t ∈ (ts.map fun t ↦ t.afterTick v w tick).filter fun t ↦ t.status != .done) :
    t.Quietly v w ticks := by
  obtain ⟨hmap, hlive⟩ := List.mem_filter.1 hmem
  obtain ⟨u, hu, rfl⟩ := List.mem_map.1 hmap
  obtain ⟨blocks, t', hturn, hrest⟩ := hquiet u hu
  rw [afterTick_eq hturn] at hlive ⊢
  exact hrest (by simpa using hlive)

/-- What is left of threads is what is left of those that are not done after their first turn. -/
theorem filterMap_remains_cons :
    ts.filterMap (remains v w (tick :: ticks)) =
      ((ts.map fun t ↦ t.afterTick v w tick).filter fun t ↦ t.status != .done).filterMap
        (remains v w ticks) := by
  rw [List.filterMap_filter, List.filterMap_map]
  refine List.filterMap_congr fun t _ ↦ ?_
  rw [remains, Function.comp]
  by_cases hdone : (t.afterTick v w tick).status = .done <;> simp [hdone]

end Threads

end InlineThread

/-! ### Ticks in which positions do not matter -/

namespace Tick

/-- **The frame of a tick is seen as that of another**: nobody is killed from outside, and the turn
of a thread at any position looks like its turn in a frame of the other. -/
structure SeenAs (v : View) (tick own : Tick) : Prop where
  /-- Nobody is killed. -/
  kills_eq : tick.kills = []
  /-- The turns look alike. -/
  takeTurn_eq : ∀ (w : World) (position : Nat) (t : InlineThread),
    (t.takeTurn (w.during tick) (tick.clock.began + tick.workTime) (tick.clock.shown position)
      tick.turns).map v.result = (v.see t).atTick v w own

/-- A tick that treats all threads alike: it marks none, and its clock shows the same to all. -/
structure Impartial (tick : Tick) : Prop where
  /-- Nobody is killed from outside. -/
  kills_eq : tick.kills = []
  /-- What the clock shows does not depend on the thread whose turn it is. -/
  uniform : tick.clock.Uniform

/-- **A tick with budgets of nothing or without end**: it marks no thread, and whatever its clock
shows, and to whom, time is up for the frame at every look at it or at none, and so for a stretch in
warp mode. -/
structure Decides (tick : Tick) (late due : Bool) : Prop where
  /-- Nobody is killed from outside. -/
  kills_eq : tick.kills = []
  /-- The clock decides at every look. -/
  decides : ∀ position turn, (tick.clock.shown position turn).Decides
    (tick.clock.began + tick.workTime) tick.warpTime late due

/-- The tick of a clock that stands still, with budgets of nothing where time is to be up. -/
def deciding (late due : Bool) (turns : Nat) : Tick where
  clock := .still 0
  turns
  workTime := if late then 0 else 1
  warpTime := if due then 0 else 1

theorem decides_deciding (late due : Bool) (turns : Nat) :
    (deciding late due turns).Decides late due := by
  have hdue : (Moment.still 0).Decides (if due then 0 else 1) due := by
    cases due with
    | true => exact rfl
    | false => exact Nat.one_pos
  refine ⟨rfl, fun _ _ ↦ ⟨?_, hdue, hdue⟩⟩
  show 0 + (if late then 0 else 1) ≤ 0 ↔ late = true
  cases late <;> decide

theorem Impartial.seenAs {tick : Tick} (h : tick.Impartial) : tick.SeenAs .full tick where
  kills_eq := h.kills_eq
  takeTurn_eq := by
    intro w position t
    rw [h.uniform position 0]
    rfl

/-- Under any clock that decides, threads do what they do if the clock stands still, their timers
apart. -/
theorem Decides.seenAs {tick : Tick} {late due : Bool} (h : tick.Decides late due) :
    tick.SeenAs .timerless (deciding late due tick.turns) where
  kills_eq := h.kills_eq
  takeTurn_eq := by
    intro w position t
    have hsame : t.ButTimer t.timerless := rfl
    have hown : ∀ turn, ((deciding late due tick.turns).clock.shown 0 turn).Decides _
        (w.settings.withBudgets (deciding late due tick.turns)).warpTime late due :=
      (decides_deciding late due tick.turns).decides 0
    have hagree := hsame.takeTurn (w := w.during tick) (h.decides position) hown tick.turns
    exact hagree.map_eq fun x y hxy ↦ by
      obtain ⟨blocks, request, u⟩ := x
      obtain ⟨blocks', request', u'⟩ := y
      obtain ⟨rfl, rfl, hu⟩ := hxy
      exact congrArg (fun u ↦ (blocks, request, u)) hu

/-- Two ticks with the same budgets, of nothing or without end, whatever their clocks show. -/
structure SameBudgets (tick tick' : Tick) : Prop where
  /-- A turn may take equally many steps. -/
  turns_eq : tick.turns = tick'.turns
  /-- Both clocks decide, and they decide alike. -/
  decides : ∃ late due, tick.Decides late due ∧ tick'.Decides late due

/-- Under the same budgets two runs can be told in the same ticks. -/
theorem exists_seenAs {ticks ticks' : List Tick} (h : List.Forall₂ SameBudgets ticks ticks') :
    ∃ owns, List.Forall₂ (SeenAs .timerless) ticks owns ∧
      List.Forall₂ (SeenAs .timerless) ticks' owns := by
  induction h with
  | nil => exact ⟨[], .nil, .nil⟩
  | cons hfirst _ ih =>
    obtain ⟨hturns, late, due, htick, htick'⟩ := hfirst
    obtain ⟨owns, hseen, hseen'⟩ := ih
    exact ⟨_ :: owns, .cons htick.seenAs hseen, .cons (hturns ▸ htick'.seenAs) hseen'⟩

end Tick

namespace Schedule

/-- What the threads of a schedule look like. -/
def inlines (s : Schedule) : List InlineThread :=
  s.threads.map (Thread.inline s.engine.pool)

/-- What is seen of the thread at a position in a frame: the blocks that were recorded at its turn,
and what it looks like after it. -/
def reportAt (s : Schedule) (clock : Clock) (turns position : Nat) :
    List (List BlockId × InlineThread) :=
  match s.atTurn clock turns position with
  | none => []
  | some a =>
    match s.turnIn clock turns position a with
    | .ok (_, a') => [(a'.engine.blocksRun.drop a.engine.blocksRun.length, a'.inline)]
    | .error _ => []

/-- What is seen of the thread at a position in a run, turn by turn. -/
def reportsOf (s : Schedule) (ticks : List Tick) (position : Nat) :
    List (List BlockId × InlineThread) :=
  follow (fun s tick position ↦ s.reportAt tick.clock tick.turns position) ticks position s

/-- No thread executes a block that ends other scripts in the frame. -/
def IsQuiet (s : Schedule) (clock : Clock) (turns : Nat) : Prop :=
  ∀ position b, s.Executes clock turns position b → ¬b.EndsAll ∧ ¬b.EndsOthers

/-- The turn of each thread by itself ends and asks for nothing, and this is the thread after it. -/
def TurnsQuietly (s : Schedule) (w : World) (clock : Clock) (turns : Nat)
    (after : Nat → InlineThread → InlineThread) : Prop :=
  ∀ (position : Nat) (t : InlineThread), s.inlines[position]? = some t → ∃ blocks,
    t.takeTurn w (clock.began + w.settings.workTime) (clock.shown position) turns =
      .ok (blocks, none, after position t)

/-- No thread executes a block that ends other scripts in the run. -/
def Undisturbed : Schedule → List Tick → Prop
  | _, [] => True
  | s, tick :: ticks => (s.prepare tick).IsQuiet tick.clock tick.turns ∧
      ∀ s', (s.prepare tick).frame tick.clock tick.turns = .ok s' → s'.Undisturbed ticks

variable {s s' : Schedule} {tick : Tick}

theorem getElem?_inlines (s : Schedule) (position : Nat) :
    s.inlines[position]? = (s.threads[position]?).map (Thread.inline s.engine.pool) :=
  List.getElem?_map

theorem inlines_sweep (s : Schedule) :
    s.sweep.inlines = s.inlines.filter fun t ↦ t.status != .done := by
  rw [inlines, inlines, List.filter_map]
  rfl

/-- Where nobody is killed from outside a tick changes no thread. -/
theorem inlines_prepare (s : Schedule) (hkills : tick.kills = []) :
    (s.prepare tick).inlines = s.inlines := by
  refine List.ext_getElem? fun position ↦ ?_
  rw [getElem?_inlines, getElem?_inlines, getElem?_prepare, hkills]
  cases s.threads[position]? <;> rfl

namespace Driven

variable {w : World} {clock : Clock} {turns position : Nat} {t : Thread}

/-! ### From the schedule to its threads -/

/-- **A quiet frame gives every thread its own turn.** -/
theorem takeTurn_of_isQuiet (h : Driven w s) (hframe : s.frame clock turns = .ok s')
    (hquiet : s.IsQuiet clock turns) {t : InlineThread} (ht : s.inlines[position]? = some t) :
    ∃ blocks t', t.takeTurn w (clock.began + w.settings.workTime) (clock.shown position) turns =
      .ok (blocks, none, t') := by
  rw [getElem?_inlines] at ht
  obtain ⟨u, hu, rfl⟩ := Option.map_eq_some_iff.1 ht
  obtain ⟨mid', hup, -⟩ := exists_of_frame hframe
  obtain ⟨a, hatTurn⟩ := h.exists_atTurn hup (List.getElem?_eq_some_iff.1 hu).1
  obtain ⟨u', hu', hsame, ⟨target, lot, stack, hrests⟩, hsteps⟩ := h.of_atTurn hatTurn
  obtain rfl : u = u' := Option.some.inj (hu.symm.trans hu')
  -- Nobody has asked for the end of the thread by then.
  have hkilled : a.thread.killed = u.killed := by
    obtain ⟨mid, hmid, -, hthread⟩ := Schedule.exists_of_atTurn hatTurn
    obtain ⟨u'', hu'', -, hmark⟩ := h.marked_iff position hmid hu
    obtain rfl : a.thread = u'' := Option.some.inj (hthread.symm.trans hu'')
    rw [Bool.eq_iff_iff, hmark, or_iff_left]
    rintro ⟨earlier, -, -, b, hexecutes, hends⟩
    exact hends.elim (hquiet earlier b hexecutes).1 fun hothers ↦
      (hquiet earlier b hexecutes).2 hothers.1
  have hinline : a.inline = u.inline s.engine.pool := InlineThread.eq_of_unmarked hsame hkilled
  obtain ⟨blocks, request, t₁, -, hturn, -, -⟩ := h.exists_after_of_atTurn hup hatTurn
  have hrequest : request = none := by
    rw [InlineThread.request_eq_of_takeTurn hturn, ← hsteps, List.getLast?_eq_none_iff,
      List.filterMap_eq_nil_iff]
    intro step hstep
    refine Option.eq_none_iff_forall_ne_some.2 fun r hr ↦ ?_
    obtain ⟨id, b, hid, hb, hasks⟩ :=
      ((hrests.request_of_mem_turnSteps (hsteps ▸ hstep)).2 r).1 hr
    obtain rfl : a.thread.target = target := hrests.target_eq
    have hexecutes := (h.executes_iff hatTurn).2 ⟨step, hstep, id, hid, hb⟩
    exact hasks.elim (fun hall ↦ (hquiet position b hexecutes).1 hall.2) fun hothers ↦
      (hquiet position b hexecutes).2 hothers.2
  rw [hinline, hrequest] at hturn
  exact ⟨blocks, t₁, hturn⟩

/-- Where no block ends other scripts no run is disturbed. -/
theorem undisturbed (ticks : List Tick) : ∀ {w : World} {s : Schedule}, Driven w s →
    (∀ target id b, w.resolve? target id = some b → ¬b.EndsAll ∧ ¬b.EndsOthers) →
      s.Undisturbed ticks := by
  induction ticks with
  | nil => exact fun _ _ ↦ trivial
  | cons tick ticks ih =>
    intro w s h hharmless
    have hprepared := h.prepare tick
    refine ⟨fun position b hexecutes ↦ ?_, fun s' hframe ↦ ?_⟩
    · obtain ⟨a, hatTurn, hsteps⟩ := hexecutes
      obtain ⟨step, -, id, -, hb⟩ := (hprepared.executes_iff hatTurn).1 ⟨a, hatTurn, hsteps⟩
      exact hharmless _ id b hb
    · exact ih ((hprepared.frame_safely _ _).of_eq_ok hframe) hharmless

/-! ### From the threads to the schedule -/

/-- A turn that asks for nothing changes one thread and no other. -/
theorem turnAt_of_quiet {mid : Schedule} {blocks : List BlockId} {t' : InlineThread}
    (h : Driven w mid) (ht : mid.threads[position]? = some t)
    (hturn : (t.inline mid.engine.pool).takeTurn w (clock.began + s.engine.settings.workTime)
      (clock.shown position) turns = .ok (blocks, none, t')) :
    ∃ a, s.turnIn clock turns position ⟨mid.engine, t⟩ = .ok (none, a) ∧ a.inline = t' ∧
      a.engine.blocksRun = mid.engine.blocksRun ++ blocks ∧
      ∃ mid', s.turnAt clock turns mid position = .ok mid' ∧
        mid'.inlines = mid.inlines.set position t' := by
  obtain ⟨⟨request, a⟩, hstep⟩ := h.takeTurn_of_inline ht hturn
  obtain ⟨blocks', hturn', hreports⟩ := h.reports ht hstep
  have heq := Except.ok.inj (hturn'.symm.trans hturn)
  obtain rfl : blocks' = blocks := congrArg Prod.fst heq
  obtain rfl : request = none := congrArg (fun r ↦ r.2.1) heq
  obtain rfl : a.inline = t' := congrArg (fun r ↦ r.2.2) heq
  refine ⟨a, hstep, rfl, hreports.blocksRun, afterTurn mid position none a, ?_, ?_⟩
  · exact stepAt_eq_ok ht hstep
  · exact (h.mirrored.set (List.getElem?_eq_some_iff.1 ht).1 hreports).inline

section QuietFrames

variable {after : Nat → InlineThread → InlineThread} (h : Driven w s)
  (hturns : s.TurnsQuietly w clock turns after)

include h hturns

/-- **The turns of a frame, one beside the other.** If the turn of every thread by itself ends and
asks for nothing, the frame gives each of them just that. -/
theorem upTo_of_quiet (position : Nat) (hle : position ≤ s.threads.length) :
    ∃ mid, s.upTo clock turns position = .ok mid ∧ ∀ i, mid.inlines[i]? =
      if i < position then (s.inlines[i]?).map (after i) else s.inlines[i]? := by
  have hsettings : s.engine.settings = w.settings := congrArg World.settings h.world
  induction position with
  | zero => exact ⟨s, rfl, fun i ↦ (if_neg (Nat.not_lt_zero i)).symm⟩
  | succ position ih =>
    obtain ⟨mid, hup, hinlines⟩ := ih (Nat.le_of_succ_le hle)
    have hx : s.inlines[position]? = some (s.threads[position].inline s.engine.pool) := by
      rw [getElem?_inlines, List.getElem?_eq_getElem hle]
      rfl
    -- The thread has not been touched yet.
    have hmid := hinlines position
    rw [if_neg (Nat.lt_irrefl position), hx, getElem?_inlines] at hmid
    obtain ⟨t, ht, hinline⟩ := Option.map_eq_some_iff.1 hmid
    obtain ⟨blocks, hturn⟩ := hturns position _ hx
    rw [← hinline, ← hsettings] at hturn
    obtain ⟨a, -, -, -, mid', hstep, hset⟩ := (h.of_upTo hup).1.turnAt_of_quiet ht hturn
    refine ⟨mid', ?_, fun i ↦ ?_⟩
    · rw [upTo_succ, hup]
      exact hstep
    · rw [hset, List.getElem?_set, hinlines i]
      rcases Nat.lt_trichotomy i position with hlt | rfl | hgt
      · rw [if_neg (Nat.ne_of_gt hlt), if_pos hlt, if_pos (Nat.lt_succ_of_lt hlt)]
      · have hlt : i < mid.inlines.length := by
          rw [inlines, List.length_map]
          exact (List.getElem?_eq_some_iff.1 ht).1
        rw [if_pos rfl, if_pos hlt, if_pos (Nat.lt_succ_self i), hx, hinline]
        rfl
      · rw [if_neg (Nat.ne_of_lt hgt), if_neg (Nat.not_lt_of_gt hgt),
          if_neg (Nat.not_lt_of_ge hgt)]

/-- **A quiet frame** as a whole. -/
theorem frame_of_quiet :
    ∃ mid, s.upTo clock turns s.threads.length = .ok mid ∧
      (∀ position t, s.inlines[position]? = some t →
        mid.inlines[position]? = some (after position t)) ∧
      s.frame clock turns = .ok mid.sweep ∧
      mid.sweep.inlines = (s.inlines.mapIdx after).filter fun t ↦ t.status != .done := by
  obtain ⟨mid, hup, hinlines⟩ := h.upTo_of_quiet hturns s.threads.length (Nat.le_refl _)
  have hafter : mid.inlines = s.inlines.mapIdx after := by
    refine List.ext_getElem? fun i ↦ ?_
    rw [hinlines, List.getElem?_mapIdx]
    split
    · rfl
    · next hge =>
      rw [getElem?_inlines, List.getElem?_eq_none (Nat.le_of_not_lt hge)]
      rfl
  refine ⟨mid, hup, fun position t ht ↦ ?_, ?_, ?_⟩
  · rw [hafter, List.getElem?_mapIdx, ht]
    rfl
  · rw [frame_eq, hup]
    rfl
  · rw [inlines_sweep, hafter]

/-- What is seen of a thread in a quiet frame. -/
theorem reportAt_of_quiet {t t' : InlineThread} {blocks : List BlockId}
    (ht : s.inlines[position]? = some t)
    (hturn : t.takeTurn w (clock.began + w.settings.workTime) (clock.shown position) turns =
      .ok (blocks, none, t')) :
    s.reportAt clock turns position = [(blocks, t')] := by
  have hsettings : s.engine.settings = w.settings := congrArg World.settings h.world
  have hlt : position < s.threads.length := by
    have hlt := (List.getElem?_eq_some_iff.1 ht).1
    rwa [inlines, List.length_map] at hlt
  obtain ⟨mid, hup, hinlines⟩ := h.upTo_of_quiet hturns position (Nat.le_of_lt hlt)
  have hmid := hinlines position
  rw [if_neg (Nat.lt_irrefl position), ht, getElem?_inlines] at hmid
  obtain ⟨u, hu, rfl⟩ := Option.map_eq_some_iff.1 hmid
  rw [← hsettings] at hturn
  obtain ⟨a, hstep, hinline, hblocks, -⟩ := (h.of_upTo hup).1.turnAt_of_quiet hu hturn
  have hatTurn : s.atTurn clock turns position = some ⟨mid.engine, u⟩ := by
    rw [atTurn_of_upTo hup, hu]
    rfl
  rw [reportAt, hatTurn]
  dsimp only
  rw [hstep]
  dsimp only
  rw [hblocks, List.drop_left, hinline]

/-- Where a thread is after a quiet frame. -/
theorem moved_of_quiet {t : InlineThread} (ht : s.inlines[position]? = some t) :
    ((after position t).status = .done → s.moved clock turns position = none) ∧
      ((after position t).status ≠ .done → ∃ position' s',
        s.moved clock turns position = some (position', s') ∧ s.frame clock turns = .ok s' ∧
          s'.inlines[position']? = some (after position t)) := by
  obtain ⟨mid, hup, hinlines, hframe, -⟩ := h.frame_of_quiet hturns
  have hmid := hinlines position t ht
  rw [getElem?_inlines] at hmid
  obtain ⟨u, hu, hinline⟩ := Option.map_eq_some_iff.1 hmid
  have hstatus : u.status = (after position t).status := congrArg InlineThread.status hinline
  rw [moved, hup]
  dsimp only
  rw [hu, Option.bind_some, hstatus]
  refine ⟨fun hdone ↦ if_pos hdone, fun hlive ↦ ⟨_, _, if_neg hlive, hframe, ?_⟩⟩
  have hkept : (u.status != .done) = true := by
    rw [hstatus]
    simpa using hlive
  have hplace : (mid.threads.filter fun t ↦ t.status != .done)[
      (mid.threads.take position).countP fun t ↦ t.status != .done]? = some u :=
    Watch.getElem?_filter (p := fun t : Thread ↦ t.status != .done) hkept hu
  rw [getElem?_inlines, ← hinline]
  exact congrArg (Option.map _) hplace

end QuietFrames

/-! ### Whole runs -/

/-- The thread at a position after its turn in the frame of a tick. -/
def afterIn (w : World) (tick : Tick) (position : Nat) (t : InlineThread) : InlineThread :=
  match t.takeTurn (w.during tick) (tick.clock.began + tick.workTime) (tick.clock.shown position)
    tick.turns with
  | .ok (_, _, t') => t'
  | .error _ => t

variable {v : View} {own : Tick}

theorem afterIn_eq {t t' : InlineThread} {blocks : List BlockId} {request : Option StopRequest}
    (h : t.takeTurn (w.during tick) (tick.clock.began + tick.workTime) (tick.clock.shown position)
      tick.turns = .ok (blocks, request, t')) : afterIn w tick position t = t' := by
  rw [afterIn, h]

/-- **A turn as it is, and as it is seen**, where it comes to an end and asks for nothing. -/
theorem atTick_eq_ok_iff (hseen : tick.SeenAs v own) {t : InlineThread} {blocks : List BlockId}
    {u : InlineThread} :
    (v.see t).atTick v w own = .ok (blocks, none, u) ↔
      t.takeTurn (w.during tick) (tick.clock.began + tick.workTime) (tick.clock.shown position)
        tick.turns = .ok (blocks, none, afterIn w tick position t) ∧
      v.see (afterIn w tick position t) = u := by
  rw [← hseen.takeTurn_eq w position t, afterIn]
  rcases t.takeTurn (w.during tick) (tick.clock.began + tick.workTime) (tick.clock.shown position)
    tick.turns with cause | ⟨blocks', request, t'⟩
  · constructor
    · intro hno
      cases hno
    · rintro ⟨hno, -⟩
      cases hno
  · constructor
    · intro heq
      obtain ⟨rfl, hrest⟩ := Prod.mk.inj (Except.ok.inj heq)
      obtain ⟨rfl, rfl⟩ := Prod.mk.inj hrest
      exact ⟨rfl, rfl⟩
    · rintro ⟨heq, rfl⟩
      obtain ⟨rfl, hrest⟩ := Prod.mk.inj (Except.ok.inj heq)
      obtain ⟨rfl, -⟩ := Prod.mk.inj hrest
      rfl

/-- What is seen of a thread after its turn is what it is after a turn of its own. -/
theorem see_afterIn (hseen : tick.SeenAs v own) (w : World) (position : Nat) (t : InlineThread) :
    v.see (afterIn w tick position t) = (v.see t).afterTick v w own := by
  rw [InlineThread.afterTick, ← hseen.takeTurn_eq w position t, afterIn]
  rcases t.takeTurn (w.during tick) (tick.clock.began + tick.workTime) (tick.clock.shown position)
    tick.turns with cause | ⟨blocks, request, t'⟩ <;> rfl

/-- What is seen of the threads that are left after a quiet frame. -/
theorem map_see_of_swept (hseen : tick.SeenAs v own)
    (hswept : s'.inlines = (s.inlines.mapIdx (afterIn w tick)).filter fun t ↦ t.status != .done) :
    s'.inlines.map v.see =
      ((s.inlines.map v.see).map fun t ↦ t.afterTick v w own).filter
        fun t ↦ t.status != .done := by
  rw [hswept, ← v.filter_map_see]
  refine congrArg _ (List.ext_getElem? fun position ↦ ?_)
  rw [List.getElem?_map, List.getElem?_mapIdx, List.getElem?_map, List.getElem?_map,
    Option.map_map, Option.map_map]
  exact congrArg (fun f ↦ Option.map f _) (funext (see_afterIn hseen w position))

/-- **A run gives every thread its life.** The settings of a tick are forgotten at the next one, so
that all lives are lived in one world. -/
theorem quietly_of_drive {ticks owns : List Tick}
    (hseen : List.Forall₂ (Tick.SeenAs v) ticks owns) :
    ∀ {w₀ : World} {s s' : Schedule}, Driven w₀ s → (∀ tick, w₀.during tick = w.during tick) →
      s.drive ticks = .ok s' → s.Undisturbed ticks →
        ∀ t ∈ s.inlines, (v.see t).Quietly v w owns := by
  induction hseen with
  | nil => exact fun _ _ _ _ _ _ ↦ trivial
  | @cons tick own ticks owns hfirst _ ih =>
    intro w₀ s s' h hw hdrive hquiet t hmem
    obtain ⟨s₁, hframe, hrest⟩ := exists_of_bind_eq_ok hdrive
    have hprepared : Driven (w.during tick) (s.prepare tick) := hw tick ▸ h.prepare tick
    have hturns : (s.prepare tick).TurnsQuietly (w.during tick) tick.clock tick.turns
        (afterIn w tick) := by
      intro position t ht
      obtain ⟨blocks, t', hturn⟩ := hprepared.takeTurn_of_isQuiet hframe hquiet.1 ht
      exact ⟨blocks, afterIn_eq hturn ▸ hturn⟩
    rw [← inlines_prepare s hfirst.kills_eq] at hmem
    obtain ⟨position, ht⟩ := List.mem_iff_getElem?.1 hmem
    obtain ⟨blocks, hturn⟩ := hturns position t ht
    refine ⟨blocks, _, (atTick_eq_ok_iff hfirst).2 ⟨hturn, rfl⟩, fun hlive ↦ ?_⟩
    obtain ⟨mid, -, hmid, hframe', -⟩ := hprepared.frame_of_quiet hturns
    obtain rfl : s₁ = mid.sweep := Except.ok.inj (hframe.symm.trans hframe')
    refine ih ((hprepared.frame_safely _ _).of_eq_ok hframe) (fun _ ↦ rfl) hrest
      (hquiet.2 _ hframe) _ ?_
    rw [inlines_sweep]
    rw [v.status_see] at hlive
    exact List.mem_filter.2 ⟨List.mem_of_getElem? (hmid position t ht), by simpa using hlive⟩

/-- **The lives of the threads make a run**, in which what is left of each thread and what is seen
of it are its own. -/
theorem exists_drive {ticks owns : List Tick} (hseen : List.Forall₂ (Tick.SeenAs v) ticks owns) :
    ∀ {w₀ : World} {s : Schedule}, Driven w₀ s → (∀ tick, w₀.during tick = w.during tick) →
      (∀ t ∈ s.inlines, (v.see t).Quietly v w owns) →
        ∃ s', s.drive ticks = .ok s' ∧
          s'.inlines.map v.see =
            (s.inlines.map v.see).filterMap (InlineThread.remains v w owns) ∧
          ∀ position t, s.inlines[position]? = some t →
            (s.reportsOf ticks position).map v.report = (v.see t).life v w owns := by
  induction hseen with
  | nil =>
    intro w₀ s h _ _
    exact ⟨s, rfl, (List.filterMap_some).symm, fun _ _ _ ↦ rfl⟩
  | @cons tick own ticks owns hfirst _ ih =>
    intro w₀ s h hw hquiet
    have hprepared : Driven (w.during tick) (s.prepare tick) := hw tick ▸ h.prepare tick
    rw [← inlines_prepare s hfirst.kills_eq] at hquiet ⊢
    have hturns : (s.prepare tick).TurnsQuietly (w.during tick) tick.clock tick.turns
        (afterIn w tick) := by
      intro position t ht
      obtain ⟨blocks, u, hturn, -⟩ := hquiet t (List.mem_of_getElem? ht)
      exact ⟨blocks, ((atTick_eq_ok_iff hfirst).1 hturn).1⟩
    obtain ⟨mid, -, -, hframe, hswept⟩ := hprepared.frame_of_quiet hturns
    -- What is seen of the threads does not depend on where they stand.
    have hseen := map_see_of_swept hfirst hswept
    have hquiet₁ : ∀ t ∈ mid.sweep.inlines, (v.see t).Quietly v w owns := by
      intro t hmem
      refine InlineThread.quietly_of_mem_filter ?_ (hseen ▸ List.mem_map_of_mem hmem)
      exact List.forall_mem_map.2 hquiet
    obtain ⟨s', hdrive, hleft, hreports⟩ :=
      ih ((hprepared.frame_safely _ _).of_eq_ok hframe) (fun _ ↦ rfl) hquiet₁
    refine ⟨s', (drive_cons hframe).trans hdrive, ?_, fun position t ht ↦ ?_⟩
    · rw [hleft, hseen, InlineThread.filterMap_remains_cons]
    · obtain ⟨blocks, hturn⟩ := hturns position t ht
      have hown := (atTick_eq_ok_iff hfirst).2 ⟨hturn, rfl⟩
      have hreport : (s.prepare tick).reportAt tick.clock tick.turns position = _ :=
        hprepared.reportAt_of_quiet hturns ht hturn
      obtain ⟨hgone, hstays⟩ := hprepared.moved_of_quiet hturns ht
      rw [InlineThread.life, hown]
      dsimp only
      rw [v.status_see]
      split
      · rw [reportsOf, follow_cons_of_gone (hgone ‹_›), hreport]
        rfl
      · obtain ⟨position', s₁, hmoved, hframe', ht'⟩ := hstays ‹_›
        obtain rfl : mid.sweep = s₁ := Except.ok.inj (hframe.symm.trans hframe')
        rw [reportsOf, follow_cons_of_moved hmoved, hreport, ← reportsOf, List.map_append,
          hreports position' _ ht']
        rfl

end Driven

end Schedule

end BlockScript
