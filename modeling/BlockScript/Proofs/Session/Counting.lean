import BlockScript.Proofs.Schedule.StretchRuns
import BlockScript.Session
import Mathlib.Data.List.Nodup

/-!
# Counting frames

The main loop of a run counts its frames in a 32-bit word. `Session.counts_frames` says what becomes
of the counter, for all arguments and from any schedule on: after every lap it is the number of
frames that were run, which never exceeds the number that was asked for, and the record at the end
names it. And it says when a frame cannot be counted any more: just when no number of frames was
asked for, and some run has a thread left at as many frames as a word has values.

Nothing keeps a run from being that long. `Session.run_waiting` is one of a script that waits in an
endless loop, at a frame rate that leaves no time to wait in.

The clock is not part of this. `Session.Laps` and `Schedule.KeepsOn` allow any clock at each frame,
and `Session.laps_iff` says that they differ in the counter alone.
-/

namespace BlockScript

/-! ### Frames -/

namespace Schedule

/-- **A run in which a thread is left at every frame**: the schedule after so many frames, whatever
the clock showed, each of which began with a thread. -/
inductive KeepsOn (s₀ : Schedule) : Nat → Schedule → Prop
  /-- Before the first frame. -/
  | start : KeepsOn s₀ 0 s₀
  /-- One more frame. -/
  | frame {n turns : Nat} {s s' : Schedule} {clock : Clock} (h : KeepsOn s₀ n s)
      (halive : s.threads ≠ []) (hframe : s.frame clock turns = .ok s') : KeepsOn s₀ (n + 1) s'

theorem KeepsOn.exists_last {s₀ s' : Schedule} {n : Nat} (h : KeepsOn s₀ (n + 1) s') :
    ∃ s clock turns, KeepsOn s₀ n s ∧ s.threads ≠ [] ∧ s.frame clock turns = .ok s' := by
  cases h with
  | frame h halive hframe => exact ⟨_, _, _, h, halive, hframe⟩

end Schedule

namespace Session

open Schedule

/-! ### Laps -/

/-- **The laps of the main loop**: the schedule and the counter after so many of them, whatever the
clock showed. In each lap the condition holds, a frame is run, and it is counted. -/
inductive Laps (arguments : Arguments) (s₀ : Schedule) : Nat → UInt32 → Schedule → Prop
  /-- Before the first lap. -/
  | start : Laps arguments s₀ 0 0 s₀
  /-- One more lap. -/
  | lap {n turns : Nat} {count count' : UInt32} {s s' : Schedule} {clock : Clock}
      (h : Laps arguments s₀ n count s) (hgoes : goesOn arguments s count = true)
      (hframe : s.frame clock turns = .ok s') (hcount : countFrame count = .ok count') :
      Laps arguments s₀ (n + 1) count' s'

/-- **The counter overflows**: there is a lap whose frame cannot be counted. -/
def Overflows (arguments : Arguments) (s₀ : Schedule) : Prop :=
  ∃ n count s clock turns s', Laps arguments s₀ n count s ∧ goesOn arguments s count = true ∧
    s.frame clock turns = .ok s' ∧ countFrame count = .error .counterOverflow

variable {arguments : Arguments} {s₀ s s' : Schedule} {n : Nat} {count count' : UInt32}

theorem goesOn_iff :
    goesOn arguments s count = true ↔
      s.threads ≠ [] ∧ ∀ most, arguments.maxFrames = some most → count.toNat < most.toNat := by
  rw [goesOn, Bool.and_eq_true, Bool.not_eq_true', List.isEmpty_eq_false_iff]
  refine and_congr_right fun _ ↦ ?_
  cases arguments.maxFrames with
  | none => simp
  | some most => simp [UInt32.lt_iff_toNat_lt]

theorem goesOn_of_unbounded (hnone : arguments.maxFrames = none) (halive : s.threads ≠ []) :
    goesOn arguments s count = true := by
  refine goesOn_iff.2 ⟨halive, fun most hsome ↦ ?_⟩
  rw [hnone] at hsome
  cases hsome

theorem toNat_add_one (h : count.toNat + 1 < UInt32.size) :
    (count + 1).toNat = count.toNat + 1 := by
  rw [UInt32.toNat_add, UInt32.toNat_one, Nat.mod_eq_of_lt h]

theorem countFrame_eq_ok_iff :
    countFrame count = .ok count' ↔ count'.toNat = count.toNat + 1 := by
  have hlt := count'.toNat_lt_size
  rw [countFrame]
  split
  · rw [Except.ok.injEq, ← UInt32.toNat_inj, toNat_add_one ‹_›]
    exact eq_comm
  · refine iff_of_false (fun h ↦ by cases h) ?_
    omega

theorem countFrame_eq_error_iff :
    countFrame count = .error .counterOverflow ↔ count.toNat + 1 = UInt32.size := by
  have hlt := count.toNat_lt_size
  rw [countFrame]
  split
  · refine iff_of_false (fun h ↦ by cases h) ?_
    omega
  · refine iff_of_true rfl ?_
    omega

/-- **Laps are frames that are counted.** There is a lap after so many frames just when that many
are no more than were asked for, and fit into the counter; and the counter is their number. -/
theorem laps_iff :
    Laps arguments s₀ n count s ↔
      KeepsOn s₀ n s ∧ count.toNat = n ∧
        ∀ most, arguments.maxFrames = some most → n ≤ most.toNat := by
  constructor
  · intro h
    induction h with
    | start => exact ⟨.start, UInt32.toNat_zero, fun _ _ ↦ Nat.zero_le _⟩
    | lap h hgoes hframe hcount ih =>
      obtain ⟨hkeeps, rfl, -⟩ := ih
      obtain ⟨halive, hmost⟩ := goesOn_iff.1 hgoes
      exact ⟨hkeeps.frame halive hframe, countFrame_eq_ok_iff.1 hcount, hmost⟩
  · rintro ⟨hkeeps, hcount, hmost⟩
    induction hkeeps generalizing count with
    | start =>
      obtain rfl : count = 0 := UInt32.toNat_inj.1 hcount
      exact .start
    | @frame n turns s s' clock hkeeps halive hframe ih =>
      have hlt : n + 1 < UInt32.size := hcount ▸ count.toNat_lt_size
      have hbefore : (UInt32.ofNat n).toNat = n := UInt32.toNat_ofNat_of_lt' (by omega)
      refine .lap (ih hbefore fun most hsome ↦ ?_) (goesOn_iff.2 ⟨halive, fun most hsome ↦ ?_⟩)
        hframe (countFrame_eq_ok_iff.2 ?_)
      · exact Nat.le_of_succ_le (hmost most hsome)
      · rw [hbefore]
        exact hmost most hsome
      · rw [hcount, hbefore]

/-- **When the counter overflows**: when nothing bounds the number of frames, and some run has as
many as the counter has values. -/
theorem exists_overflow_iff :
    Overflows arguments s₀ ↔
      arguments.maxFrames = none ∧ ∃ s, KeepsOn s₀ UInt32.size s := by
  constructor
  · rintro ⟨n, count, s, clock, turns, s', hlaps, hgoes, hframe, hcount⟩
    obtain ⟨hkeeps, rfl, -⟩ := laps_iff.1 hlaps
    obtain ⟨halive, hmost⟩ := goesOn_iff.1 hgoes
    rw [countFrame_eq_error_iff] at hcount
    refine ⟨Option.eq_none_iff_forall_ne_some.2 fun most hsome ↦ ?_, s', ?_⟩
    · -- A counter below another word is not the last word.
      have hlt := hmost most hsome
      have hword := most.toNat_lt_size
      omega
    · rw [← hcount]
      exact hkeeps.frame halive hframe
  · rintro ⟨hnone, s', hkeeps⟩
    obtain ⟨n, hn⟩ : ∃ n, UInt32.size = n + 1 := ⟨UInt32.size - 1, rfl⟩
    rw [hn] at hkeeps
    obtain ⟨s, clock, turns, hkeeps, halive, hframe⟩ := hkeeps.exists_last
    have hcount : (UInt32.ofNat n).toNat = n := UInt32.toNat_ofNat_of_lt' (by omega)
    refine ⟨n, .ofNat n, s, clock, turns, s', laps_iff.2 ⟨hkeeps, hcount, fun most hsome ↦ ?_⟩,
      goesOn_of_unbounded hnone halive, hframe, countFrame_eq_error_iff.2 ?_⟩
    · rw [hnone] at hsome
      cases hsome
    · rw [hcount, hn]

/-- The record at the end names the counter. -/
theorem history_close (s : Schedule) (count : UInt32) :
    (close s count).engine.history = s.engine.history ++
      [.stopped count.toNat s.threads.length s.engine.pool.capacity] := by
  rw [close, Engine.history_note]

/-- A run that ends does so after some laps. -/
theorem Laps.exists_of_frames {clocks : Nat → Clock} {turns : Nat} (rounds : Nat) :
    ∀ {n : Nat} {count : UInt32} {s : Schedule}, Laps arguments s₀ n count s →
      frames arguments clocks turns rounds count s = .ok s' →
        ∃ n count s, Laps arguments s₀ n count s ∧ goesOn arguments s count = false ∧
          s' = close s count := by
  induction rounds with
  | zero =>
    intro n count s hlaps hframes
    rw [frames] at hframes
    split at hframes
    · cases hframes
    · cases hframes
      exact ⟨n, count, s, hlaps, Bool.not_eq_true _ ▸ ‹_›, rfl⟩
  | succ rounds ih =>
    intro n count s hlaps hframes
    rw [frames] at hframes
    split at hframes
    · obtain ⟨s₁, hframe, hframes⟩ := exists_of_bind_eq_ok hframes
      obtain ⟨count', hcount, hframes⟩ := exists_of_bind_eq_ok hframes
      exact ih (hlaps.lap ‹_› hframe hcount) hframes
    · cases hframes
      exact ⟨n, count, s, hlaps, Bool.not_eq_true _ ▸ ‹_›, rfl⟩

/-! ### The counter -/

/-- What becomes of the counter of a run. -/
structure CountsFrames (arguments : Arguments) (s₀ : Schedule) : Prop where
  /-- Each lap is a frame with a thread. -/
  keepsOn : ∀ {n count s}, Laps arguments s₀ n count s → KeepsOn s₀ n s
  /-- The counter is the number of laps. -/
  count_eq : ∀ {n count s}, Laps arguments s₀ n count s → count.toNat = n
  /-- There are no more laps than were asked for. -/
  le_most : ∀ {n count s most}, Laps arguments s₀ n count s →
    arguments.maxFrames = some most → n ≤ most.toNat
  /-- The record at the end names the number of laps. -/
  history_close : ∀ {n count s}, Laps arguments s₀ n count s →
    (close s count).engine.history = s.engine.history ++
      [.stopped n s.threads.length s.engine.pool.capacity]
  /-- A run ends after some lap, once the condition for another one fails. -/
  ends : ∀ {clocks turns rounds s'}, frames arguments clocks turns rounds 0 s₀ = .ok s' →
    ∃ n count s, Laps arguments s₀ n count s ∧ goesOn arguments s count = false ∧
      s' = close s count
  /-- A frame cannot be counted just when nothing bounds the number of frames, and some run has as
  many as the counter has values. -/
  overflows_iff : Overflows arguments s₀ ↔
    arguments.maxFrames = none ∧ ∃ s, KeepsOn s₀ UInt32.size s

/-- **The counter counts the frames until it overflows**, which it does not if a number of frames
was asked for, nor as long as fewer frames are run than it has values. -/
theorem counts_frames (arguments : Arguments) (s₀ : Schedule) : CountsFrames arguments s₀ where
  keepsOn h := (laps_iff.1 h).1
  count_eq h := (laps_iff.1 h).2.1
  le_most h hsome := (laps_iff.1 h).2.2 _ hsome
  history_close h := by
    rw [history_close, (laps_iff.1 h).2.1]
  ends hframes := Laps.exists_of_frames _ .start hframes
  overflows_iff := exists_overflow_iff

end Session

/-! ### A thread that waits for ever -/

namespace Activity

/-- **The thread idles**: between two turns it is in an endless loop that encloses nothing, and
nothing but its next turn is due. -/
structure Idles (a : Activity) : Prop where
  /-- It is not marked. -/
  spared : a.thread.killed = false
  /-- It is interpreted. -/
  interpreted : a.thread.program? = none
  /-- It waits for its next turn. -/
  yields : a.thread.status = .yield
  /-- It is in the loop. -/
  atLoop : a.AtIdleLoop
  /-- Its level has a frame. -/
  framed : ∃ frame, a.topFrame? = .ok (some frame)

variable {a : Activity}

/-- Changing the frame of the top level leaves a frame there, and changes nothing but the pool. -/
theorem exists_modifyTopFrame (h : ∃ frame, a.topFrame? = .ok (some frame))
    (change : Frame → Frame) :
    ∃ pool, a.modifyTopFrame change = .ok (a.withPool pool) ∧
      ∃ frame, (a.withPool pool).topFrame? = .ok (some frame) := by
  obtain ⟨frame, hframe⟩ := h
  rw [topFrame?] at hframe
  split at hframe
  · cases hframe
  · next level rest hlevels =>
    rw [Pool.get] at hframe
    rcases hcell : a.engine.pool.cell level.frame with cause | c
    · rw [hcell] at hframe
      cases hframe
    · have hlt := Pool.cell_eq_ok_iff.1 ⟨c, hcell⟩
      refine ⟨a.engine.pool.setCell level.frame { c with frame := change c.frame }, ?_,
        change c.frame, ?_⟩
      · rw [modifyTopFrame, hlevels]
        dsimp only
        rw [Pool.modify, hcell]
        rfl
      · rw [topFrame?, thread_withPool, hlevels]
        dsimp only
        rw [pool_withPool, Pool.get, Pool.cell_setCell_self _ hlt]
        rfl

theorem Idles.wake_eq (h : a.Idles) : a.wake = a.withStatus .running := by
  rw [wake, if_pos (.inl h.yields)]

/-- **A step of a thread that idles** is to wait. -/
theorem Idles.exists_stepBlock (h : a.Idles) (now : Moment) :
    ∃ a', a.wake.stepBlock now = .ok (none, a') ∧ a'.Idles := by
  obtain ⟨id, b, hpeek, hb, hcommand, hbody⟩ := h.atLoop
  rw [h.wake_eq]
  -- The activity when the block has been looked up, and before it is carried out.
  let found : Activity :=
    { engine := a.engine.note (.executed a.thread.topBlock id
        ((a.engine.target? a.thread.target).map Target.name) b.opcode)
      thread := { a.thread with status := .running, blockGlow := some id } }
  have hfound : ∃ frame, found.topFrame? = .ok (some frame) := h.framed
  obtain ⟨pool, hmodify, hframed⟩ :=
    exists_modifyTopFrame hfound fun frame ↦ { frame with isLoop := true }
  refine ⟨(found.withPool pool).withStatus .yield, ?_,
    { spared := h.spared
      interpreted := h.interpreted
      yields := rfl
      atLoop := ⟨id, b, hpeek, hb, hcommand, hbody⟩
      framed := hframed }⟩
  have hpeek' : (a.withStatus .running).thread.peek? = some id := hpeek
  have hb' : (a.withStatus .running).engine.resolve? (a.withStatus .running).thread.target id =
      some b := hb
  have hloop : found.enterLoop b = .ok ((found.withPool pool).withStatus .yield) := by
    rw [enterLoop, hmodify, hbody]
    rfl
  have hperform : found.perform now b =
      .ok (none, (found.withPool pool).withStatus .yield) := by
    rw [perform, hcommand]
    dsimp only
    rw [hloop]
    rfl
  rw [stepBlock, hpeek']
  dsimp only
  rw [execute, hb']
  exact hperform

/-- **The turn of a thread that idles** is one step, as long as it may make one. -/
theorem Idles.exists_takeTurn (h : a.Idles) (deadline : Time) (shown : Readings) (turns : Nat) :
    ∃ a', a.takeTurn deadline shown (turns + 1) = .ok (none, a') ∧ a'.Idles := by
  obtain ⟨a', hstep, hidles⟩ := h.exists_stepBlock (shown 0).step
  have hwake : a.wake.thread.status = .running := by
    rw [h.wake_eq]
    rfl
  have hnot : a'.thread.status ≠ .running := by
    rw [hidles.yields]
    exact Status.noConfusion
  have hlate : a'.yieldIfLate (shown 0).check deadline = .ok a' := if_neg hnot
  have hturn : a.wake.turn (shown 0) deadline = .ok (none, a') := by
    rw [turn, hstep]
    show a'.yieldIfLate (shown 0).check deadline >>= _ = _
    rw [hlate]
    rfl
  have hslice : slice deadline shown (turns + 1) none a.wake = .ok (none, a') := by
    rw [slice, if_pos hwake, hturn]
    show slice deadline shown.later turns none a' = _
    rw [slice.eq_def]
    exact if_neg hnot
  have hbegin : a.begin = .ok (true, a.wake) := by
    have hprogram : a.wake.thread.program? = none := by
      rw [h.wake_eq]
      exact h.interpreted
    rw [begin, h.spared]
    dsimp only
    rw [hprogram]
    rfl
  refine ⟨a', ?_, hidles⟩
  rw [takeTurn, hbegin]
  exact hslice

end Activity

namespace Schedule

/-- **A frame of a thread that idles**, which is alone, does not end it. -/
theorem exists_frame_of_idles {s : Schedule} {t : Thread} (hthreads : s.threads = [t])
    (h : Activity.Idles ⟨s.engine, t⟩) (clock : Clock) (turns : Nat) :
    ∃ s' t', s.frame clock (turns + 1) = .ok s' ∧ s'.threads = [t'] ∧
      Activity.Idles ⟨s'.engine, t'⟩ := by
  obtain ⟨a, hturn, hidles⟩ := h.exists_takeTurn (clock.began + s.engine.settings.workTime)
    (clock.shown 0) turns
  have ht : s.threads[0]? = some t := by
    rw [hthreads]
    rfl
  have hstep : stepAt (s.turnIn clock (turns + 1)) s 0 = .ok (afterTurn s 0 none a) :=
    stepAt_eq_ok ht hturn
  have hafter : (afterTurn s 0 none a).threads = [a.thread] := by
    rw [afterTurn, markOthers, hthreads]
    rfl
  refine ⟨(afterTurn s 0 none a).sweep, a.thread, ?_, ?_, hidles⟩
  · rw [frame, everyTurn, hthreads, List.length_singleton, List.range_one, List.foldlM_cons, hstep]
    rfl
  · rw [sweep, hafter]
    simp [hidles.yields]

end Schedule

namespace Session

open Schedule

variable {arguments : Arguments}

/-- **A run that does not end overflows the counter**: frames that lead from schedules of a kind to
such schedules, all of which have threads, if nothing bounds their number. -/
theorem frames_eq_counterOverflow {P : Schedule → Prop} {clocks : Nat → Clock} {turns : Nat}
    (hnone : arguments.maxFrames = none) (hthreads : ∀ s, P s → s.threads ≠ [])
    (hframe : ∀ n s, P s → ∃ s', s.frame (clocks n) turns = .ok s' ∧ P s') (rounds : Nat) :
    ∀ {count : UInt32} {s : Schedule}, P s → UInt32.size ≤ rounds + count.toNat →
      frames arguments clocks turns rounds count s = .error .counterOverflow := by
  induction rounds with
  | zero =>
    intro count s h hrounds
    exact absurd count.toNat_lt_size (by omega)
  | succ rounds ih =>
    intro count s h hrounds
    obtain ⟨s', hs', h'⟩ := hframe count.toNat s h
    rw [frames, if_pos (goesOn_of_unbounded hnone (hthreads s h)), hs']
    show countFrame count >>= _ = _
    by_cases hlast : count.toNat + 1 = UInt32.size
    · rw [countFrame_eq_error_iff.2 hlast]
      rfl
    · have hcount : (count + 1).toNat = count.toNat + 1 :=
        toNat_add_one (Nat.lt_of_le_of_ne count.toNat_lt_size hlast)
      rw [countFrame_eq_ok_iff.2 hcount]
      exact ih h' (by omega)

/-- A run, once its project is loaded and its scripts are started. -/
theorem run_eq {texts : List String} {files : String → FileContent} {e : Engine} {s : Schedule}
    (hparse : CommandLine.parse texts = .ok arguments)
    (hload : load arguments (files arguments.project) = .ok e) (hstart : start e = .ok s)
    (now : Time) (turns rounds : Nat) :
    run texts files now turns rounds =
      (frames arguments (fun _ ↦ .still now) turns rounds 0 s).map fun s ↦
        { exitCode := 0, events := s.engine.history } := by
  rw [run, hparse]
  dsimp only
  rw [hload]
  dsimp only
  rw [hstart]
  show frames arguments (fun _ ↦ .still now) turns rounds 0 s >>= _ = _
  cases frames arguments (fun _ ↦ .still now) turns rounds 0 s with
  | ok s' => rfl
  | error cause => rfl

/-! ### A run that is too long -/

/-- A hat, and after it an endless loop that encloses nothing. -/
def waiting : Project where
  targets := [{
    name := "sprite"
    blocks := ⟨[
      ("hat", { opcode := "event_whenflagclicked", next := some "loop" }),
      ("loop", { opcode := "control_forever" })], by decide⟩ }]

/-- The project as it is written. -/
def waitingText : String :=
  "\x7b\"targets\": [\x7b\"name\": \"sprite\", \"blocks\": \x7b" ++
    "\"hat\": \x7b\"opcode\": \"event_whenflagclicked\", \"next\": \"loop\"\x7d, " ++
    "\"loop\": \x7b\"opcode\": \"control_forever\"\x7d\x7d\x7d]\x7d"

/-- The arguments under which no time is left for a frame. -/
def hasty : Arguments where
  project := "project.json"
  frameRate := 4294967295

/-- The script at a block. -/
def waitingAt (block : BlockId) (status : Status) (blockGlow : Option BlockId)
    (journal : List Event) : Schedule where
  engine :=
    { settings := settings hasty
      pool := ⟨#[{ frame := {}, inUse := true }], []⟩
      targets := waiting.targets
      journal }
  threads := [{
    topBlock := "hat"
    levels := [⟨some block, ⟨0⟩, false⟩]
    target := ⟨0⟩
    status
    scriptGlow := true
    blockGlow }]

/-- The schedule when the script is started. -/
def begun : Schedule :=
  waitingAt "hat" .running none [.started 1, .pushed "hat" 0, .loaded "sprite" 2]

/-- The schedule after the first frame, when the script has come to the loop. -/
def arrived : Schedule :=
  waitingAt "loop" .yield (some "hat") [
    .executed "hat" "hat" (some "sprite") "event_whenflagclicked", .started 1, .pushed "hat" 0,
    .loaded "sprite" 2]

/-- **The counter overflows.** A script that waits in an endless loop is run with no bound on the
number of frames, and with no time for them, so that one follows at once upon the other. After as
many frames as a 32-bit word has values the program stops with an overflow. -/
theorem run_waiting :
    run ["project.json", "--frame-rate", "4294967295"]
      (fun _ ↦ .octets waitingText.toUTF8.toList) 0 9 UInt32.size = .error .counterOverflow := by
  have hparse : CommandLine.parse ["project.json", "--frame-rate", "4294967295"] = .ok hasty := by
    decide +kernel
  have hproject : Project.load "project.json" (.octets waitingText.toUTF8.toList) =
      .ok waiting := by
    decide +kernel
  have hstart : start (Engine.ofProject (settings hasty) waiting) = .ok begun := by
    decide +kernel
  have hfirst : begun.frame (.still 0) 9 = .ok arrived := by
    decide +kernel
  have hidles : Activity.Idles ⟨arrived.engine, arrived.threads.head (List.cons_ne_nil _ _)⟩ :=
    { spared := rfl
      interpreted := rfl
      yields := rfl
      atLoop := ⟨"loop", _, rfl, rfl, rfl, rfl⟩
      framed := ⟨_, rfl⟩ }
  have hframes : frames hasty (fun _ ↦ .still 0) 9 UInt32.size 0 begun =
      .error .counterOverflow := by
    refine frames_eq_counterOverflow (P := fun s ↦ s = begun ∨
      ∃ t, s.threads = [t] ∧ Activity.Idles ⟨s.engine, t⟩) rfl ?_ ?_ UInt32.size (.inl rfl) ?_
    · rintro s (rfl | ⟨t, ht, -⟩)
      · exact List.cons_ne_nil _ _
      · exact ht ▸ List.cons_ne_nil _ _
    · rintro _ s (rfl | ⟨t, ht, hidles⟩)
      · exact ⟨arrived, hfirst, .inr ⟨_, rfl, hidles⟩⟩
      · obtain ⟨s', t', hframe, ht', hidles'⟩ := exists_frame_of_idles ht hidles (.still 0) 8
        exact ⟨s', hframe, .inr ⟨t', ht', hidles'⟩⟩
    · exact Nat.le_add_right _ _
  have hload : load hasty (.octets waitingText.toUTF8.toList) =
      .ok (Engine.ofProject (settings hasty) waiting) := by
    rw [load]
    exact congrArg (Except.map _) hproject
  rw [run_eq hparse hload hstart, hframes]
  rfl

end Session

end BlockScript
