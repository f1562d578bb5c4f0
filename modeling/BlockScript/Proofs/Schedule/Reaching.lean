import BlockScript.Proofs.Schedule.Ticks
import BlockScript.Proofs.Thread.Upkeep

/-!
# The schedules that a driver reaches

`Schedule.Reached e scripts s` is every schedule `s` that can come up when the scripts of an engine
are started and then driven: between two frames, between two turns of a frame, and between two steps
of a turn. Single steps may also be asked of any thread at any time, whether it is its turn or not.
The list `scripts` says where each thread of `s` started; threads that are done take their entry
with them when they go.

## Properties that last

What is proved of every reached schedule is a property of its threads, one by one. The threads share
the pool, and for a property of threads that hold their frames themselves that does not matter
(`Mirrors.works`). `Lasting P` lists what such a property has to withstand: the start, one step,
unwinding, the passing of time, a mark, and other settings. It then holds of every thread of every
reached schedule (`Reached.upholds`).

Every run is made of reached schedules (`Reached.upTo`, `Reached.drive`).
-/

namespace BlockScript

/-! ### What a thread is made to do -/

/-- One thing that a driver has a thread do. -/
inductive Activity.Works : Activity → Activity → Prop
  /-- A single step. -/
  | step {a a' : Activity} {now : Moment} {request : Option StopRequest}
      (h : a.stepBlock now = .ok (request, a')) : Works a a'
  /-- To run again after it yielded. -/
  | wake (a : Activity) : Works a a.wake
  /-- A step, after which it may have to yield. -/
  | turn {a a' : Activity} {shown : Reading} {deadline : Time} {request : Option StopRequest}
      (h : a.turn shown deadline = .ok (request, a')) : Works a a'
  /-- Its whole turn in a frame. -/
  | takeTurn {a a' : Activity} {deadline : Time} {shown : Readings} {turns : Nat}
      {request : Option StopRequest}
      (h : a.takeTurn deadline shown turns = .ok (request, a')) : Works a a'

/-- One thing that a driver has an inline thread do. -/
inductive InlineThread.Works (w : World) : InlineThread → InlineThread → Prop
  /-- A single step. -/
  | step {t t' : InlineThread} {now : Moment} {request : Option StopRequest}
      (h : t.stepBlock w now = .ok (request, t')) : Works w t t'
  /-- To run again after it yielded. -/
  | wake (t : InlineThread) : Works w t t.wake
  /-- A step, after which it may have to yield. -/
  | turn {t t' : InlineThread} {shown : Reading} {deadline : Time} {request : Option StopRequest}
      (h : t.turn w shown deadline = .ok (request, t')) : Works w t t'
  /-- Its whole turn in a frame. -/
  | takeTurn {t t' : InlineThread} {deadline : Time} {shown : Readings} {turns : Nat}
      {blocks : List BlockId} {request : Option StopRequest}
      (h : t.takeTurn w deadline shown turns = .ok (blocks, request, t')) : Works w t t'

/-- **What a thread does, it does with its frames inline**, and it spares everything else. -/
theorem Mirrors.works {e : Engine} {others : List FrameId} {a a' : Activity} {t : InlineThread}
    (h : Mirrors e others a t) (hworks : a.Works a') :
    ∃ blocks t', t.Works e.world t' ∧ Reports e others blocks a' t' := by
  cases hworks with
  | @step _ now request hstep =>
    have hagree := h.stepBlock now
    rw [hstep] at hagree
    obtain ⟨⟨request', t'⟩, hok, -, hreports⟩ := hagree.exists_right
    exact ⟨_, t', .step hok, hreports⟩
  | wake => exact ⟨_, _, .wake t, h.wake.reports⟩
  | @turn _ shown deadline request hturn =>
    have hagree := h.turn shown deadline
    rw [hturn] at hagree
    obtain ⟨⟨request', t'⟩, hok, -, hreports⟩ := hagree.exists_right
    exact ⟨_, t', .turn hok, hreports⟩
  | @takeTurn _ deadline shown turns request hturn =>
    have hagree := h.takeTurn deadline shown turns
    rw [hturn] at hagree
    obtain ⟨⟨blocks, request', t'⟩, hok, -, hreports⟩ := hagree.exists_right
    exact ⟨_, t', .takeTurn hok, hreports⟩

/-! ### Properties that last -/

/-- **A lasting property** of threads, by the world that they are in and where their scripts
started. It holds at the start, and nothing that a driver does puts an end to it. -/
structure Lasting (P : World → BlockId × TargetId → InlineThread → Prop) : Prop where
  /-- The thread follows the stack machine. -/
  rests : ∀ {w : World} {hat : BlockId × TargetId} {t : InlineThread}, P w hat t →
    ∃ lot stack, Rests w hat.2 lot stack t
  /-- At the start. -/
  started : ∀ (w : World) (hat : BlockId × TargetId) (compilation : Compilation),
    P w hat (InlineThread.started hat compilation)
  /-- After a step. -/
  stepBlock : ∀ {w : World} {hat : BlockId × TargetId} {t t' : InlineThread} {now : Moment}
    {request : Option StopRequest}, P w hat t → t.stepBlock w now = .ok (request, t') → P w hat t'
  /-- After the script is stopped. -/
  stopScript : ∀ {w : World} {hat : BlockId × TargetId} {t t' : InlineThread}, P w hat t →
    t.stopScript w = .ok t' → P w hat t'
  /-- After the thread is unwound. -/
  kill : ∀ {w : World} {hat : BlockId × TargetId} {t t' : InlineThread}, P w hat t →
    t.kill w = .ok t' → P w hat t'
  /-- After the thread has yielded or runs again, and has looked at the clock. -/
  pace : ∀ {w : World} {hat : BlockId × TargetId} {t : InlineThread} {status : Status}
    (timer : Option Time), P w hat t → t.status ≠ .done → status = .running ∨ status = .yield →
    P w hat ((t.withWarpTimer timer).withStatus status)
  /-- After the thread is marked. -/
  mark : ∀ {w : World} {hat : BlockId × TargetId} {t : InlineThread} (killed : Bool), P w hat t →
    P w hat { t with killed }
  /-- Under other settings. -/
  under : ∀ {w : World} {hat : BlockId × TargetId} {t : InlineThread} (settings : Settings),
    P w hat t → P (w.under settings) hat t

namespace Lasting

variable {P : World → BlockId × TargetId → InlineThread → Prop} {w : World}
  {hat : BlockId × TargetId} {t t' : InlineThread}

theorem wake (hP : Lasting P) (h : P w hat t) : P w hat t.wake := by
  rw [InlineThread.wake]
  split
  · rename_i hyield
    refine hP.pace t.warpTimer h ?_ (.inl rfl)
    rcases hyield with hyield | hyield <;> rw [hyield] <;> exact Status.noConfusion
  · exact h

/-- Time is looked at, and the thread runs on or yields. -/
theorem yieldIfLate (hP : Lasting P) (h : P w hat t) (now : Moment) (deadline : Time) :
    P w hat (t.yieldIfLate w now deadline) := by
  rw [InlineThread.yieldIfLate]
  split
  · rename_i hrunning
    have hlive : t.status ≠ .done := by
      rw [hrunning]
      exact Status.noConfusion
    obtain ⟨timer, htimer⟩ :
        ∃ timer, (t.outOfTime w now deadline).2 = t.withWarpTimer timer := by
      rw [InlineThread.outOfTime, InlineThread.shouldYield]
      split
      · exact ⟨_, rfl⟩
      · exact ⟨_, rfl⟩
    dsimp only
    rw [htimer]
    split
    · have hyield := hP.pace none h hlive (.inr rfl)
      exact hyield
    · have hrun := hP.pace timer h hlive (.inl rfl)
      rw [← hrunning] at hrun
      exact hrun
  · exact h

theorem turn (hP : Lasting P) (h : P w hat t) {shown : Reading} {deadline : Time}
    {request : Option StopRequest} (hturn : t.turn w shown deadline = .ok (request, t')) :
    P w hat t' := by
  obtain ⟨⟨request', t₁⟩, hstep, hrest⟩ := exists_of_bind_eq_ok hturn
  obtain ⟨-, rfl⟩ := Prod.mk.inj (Except.ok.inj hrest)
  exact hP.yieldIfLate (hP.stepBlock h hstep) shown.check deadline

theorem slice (hP : Lasting P) {deadline : Time} {shown : Readings} (turns : Nat) :
    ∀ {t : InlineThread} {request last : Option StopRequest} {blocks : List BlockId}, P w hat t →
    InlineThread.slice w deadline shown turns request t = .ok (blocks, last, t') → P w hat t' := by
  induction turns generalizing shown with
  | zero =>
    intro t request last blocks h hslice
    rw [InlineThread.slice] at hslice
    split at hslice
    · cases hslice
    · cases hslice
      exact h
  | succ turns ih =>
    intro t request last blocks h hslice
    rw [InlineThread.slice] at hslice
    split at hslice
    · obtain ⟨⟨latest, t₁⟩, hturn, hslice₁⟩ := exists_of_bind_eq_ok hslice
      obtain ⟨⟨blocks₁, last₁, t₂⟩, hrest, hslice₂⟩ := exists_of_bind_eq_ok hslice₁
      cases hslice₂
      exact ih (hP.turn h hturn) hrest
    · cases hslice
      exact h

theorem takeTurn (hP : Lasting P) (h : P w hat t) {deadline : Time} {shown : Readings}
    {turns : Nat} {blocks : List BlockId} {request : Option StopRequest}
    (hturn : t.takeTurn w deadline shown turns = .ok (blocks, request, t')) : P w hat t' := by
  rw [InlineThread.takeTurn] at hturn
  split at hturn
  · obtain ⟨t₁, hkill, hresult⟩ := exists_of_map_eq_ok hturn
    cases hresult
    exact hP.kill h hkill
  · split at hturn
    · obtain ⟨t₁, hstop, hresult⟩ := exists_of_map_eq_ok hturn
      cases hresult
      exact hP.stopScript (hP.wake h) hstop
    · exact hP.slice turns (hP.wake h) hturn

/-- **Whatever a driver has the thread do**, the property lasts. -/
theorem works (hP : Lasting P) (h : P w hat t) (hworks : t.Works w t') : P w hat t' := by
  cases hworks with
  | step hstep => exact hP.stepBlock h hstep
  | wake => exact hP.wake h
  | turn hturn => exact hP.turn h hturn
  | takeTurn hturn => exact hP.takeTurn h hturn

end Lasting

namespace Schedule

/-! ### Reached schedules -/

/-- The scripts of those threads that are not done. -/
def remaining (scripts : List (BlockId × TargetId)) (threads : List Thread) :
    List (BlockId × TargetId) :=
  ((scripts.zip threads).filter fun entry ↦ entry.2.status != .done).map Prod.fst

/-- **The schedules that a driver reaches**, with the script that each thread started with. -/
inductive Reached (e : Engine) : List (BlockId × TargetId) → Schedule → Prop
  /-- When the scripts are started. -/
  | start {s : Schedule} (h : Schedule.start e = .ok s) : Reached e (hats e) s
  /-- When a frame is prepared: budgets change, and any threads are killed. -/
  | prepare {scripts : List (BlockId × TargetId)} {s : Schedule} (h : Reached e scripts s)
      (tick : Tick) : Reached e scripts (s.prepare tick)
  /-- When a thread does something. -/
  | work {scripts : List (BlockId × TargetId)} {s : Schedule} {position : Nat} {t : Thread}
      {a : Activity} (h : Reached e scripts s) (ht : s.threads[position]? = some t)
      (hworks : Activity.Works ⟨s.engine, t⟩ a) :
      Reached e scripts ⟨a.engine, s.threads.set position a.thread⟩
  /-- When threads are marked at the request of one of them. -/
  | mark {scripts : List (BlockId × TargetId)} {s : Schedule} (h : Reached e scripts s)
      (request : Option StopRequest) (position : Nat) :
      Reached e scripts ⟨s.engine, markOthers request position s.threads⟩
  /-- When the threads that are done are let go. -/
  | sweep {scripts : List (BlockId × TargetId)} {s : Schedule} (h : Reached e scripts s) :
      Reached e (remaining scripts s.threads) s.sweep

/-- Every thread of the schedule has the property, and the pool has lent out exactly the frames of
all threads. -/
structure Upholds (P : World → BlockId × TargetId → InlineThread → Prop) (w : World)
    (scripts : List (BlockId × TargetId)) (s : Schedule) : Prop where
  /-- The settings and the targets. -/
  world : s.engine.world = w
  /-- The pool has lent out the frames of all threads. -/
  lends : s.engine.pool.Lends s.held
  /-- There is a script for every thread. -/
  length_eq : scripts.length = s.threads.length
  /-- Every thread has the property. -/
  holds : ∀ {position : Nat} {hat : BlockId × TargetId} {t : Thread},
    scripts[position]? = some hat → s.threads[position]? = some t →
      P w hat (t.inline s.engine.pool)

/-- Where a thread and its script stood before the threads that are done were let go. -/
theorem exists_of_remaining {scripts : List (BlockId × TargetId)} {threads : List Thread}
    {position : Nat} {hat : BlockId × TargetId} {t : Thread}
    (hlength : scripts.length = threads.length)
    (hhat : (remaining scripts threads)[position]? = some hat)
    (ht : (threads.filter fun t ↦ t.status != .done)[position]? = some t) :
    ∃ before : Nat, scripts[before]? = some hat ∧ threads[before]? = some t := by
  have hsnd : threads.filter (fun t ↦ t.status != .done) =
      ((scripts.zip threads).filter fun entry ↦ entry.2.status != .done).map Prod.snd := by
    have hthreads : threads = (scripts.zip threads).map Prod.snd :=
      (List.map_snd_zip (Nat.le_of_eq hlength.symm)).symm
    nth_rewrite 1 [hthreads]
    rw [List.filter_map]
    rfl
  rw [hsnd, List.getElem?_map] at ht
  rw [remaining, List.getElem?_map] at hhat
  obtain ⟨⟨hat', t'⟩, hentry, rfl⟩ := Option.map_eq_some_iff.1 ht
  rw [hentry] at hhat
  obtain rfl : hat' = hat := Option.some.inj hhat
  obtain ⟨before, hbefore⟩ := List.mem_iff_getElem?.1 (List.mem_filter.1
    (List.mem_of_getElem? hentry)).1
  obtain ⟨h₁, h₂⟩ := List.getElem?_zip_eq_some.1 hbefore
  exact ⟨before, h₁, h₂⟩

theorem length_remaining {scripts : List (BlockId × TargetId)} {threads : List Thread}
    (hlength : scripts.length = threads.length) :
    (remaining scripts threads).length = (threads.filter fun t ↦ t.status != .done).length := by
  have hthreads : threads = (scripts.zip threads).map Prod.snd :=
    (List.map_snd_zip (Nat.le_of_eq hlength.symm)).symm
  nth_rewrite 2 [hthreads]
  rw [remaining, List.length_map, List.filter_map, List.length_map]
  rfl

namespace Upholds

variable {P : World → BlockId × TargetId → InlineThread → Prop} {w : World}
  {scripts : List (BlockId × TargetId)} {s : Schedule} {position : Nat} {t : Thread}

theorem exists_script (h : Upholds P w scripts s) (ht : s.threads[position]? = some t) :
    ∃ hat, scripts[position]? = some hat ∧ P w hat (t.inline s.engine.pool) := by
  have hlt : position < scripts.length := h.length_eq ▸ (List.getElem?_eq_some_iff.1 ht).1
  have hhat : scripts[position]? = some scripts[position] := List.getElem?_eq_getElem hlt
  exact ⟨_, hhat, h.holds hhat ht⟩

/-- Threads with a lasting property make a driven schedule. -/
theorem driven (h : Upholds P w scripts s) (hP : Lasting P) : Driven w s where
  world := h.world
  lends := h.lends
  rests := by
    intro t hmem
    obtain ⟨position, ht⟩ := List.mem_iff_getElem?.1 hmem
    obtain ⟨hat, -, hthread⟩ := h.exists_script ht
    obtain ⟨lot, stack, hrests⟩ := hP.rests hthread
    exact ⟨hat.2, lot, stack, hrests⟩

/-- **What one thread does** concerns no other thread. -/
theorem work {a : Activity} (h : Upholds P w scripts s) (hP : Lasting P)
    (ht : s.threads[position]? = some t) (hworks : Activity.Works ⟨s.engine, t⟩ a) :
    Upholds P w scripts ⟨a.engine, s.threads.set position a.thread⟩ := by
  have hmirrored := (h.driven hP).mirrored
  obtain ⟨blocks, t', hinline, hreports⟩ := (hmirrored.activity ht).works hworks
  rw [h.world] at hinline
  have hlt := (List.getElem?_eq_some_iff.1 ht).1
  have hset := hmirrored.set hlt hreports
  refine ⟨hset.world, hset.lends, h.length_eq.trans List.length_set.symm, ?_⟩
  intro i hat u hhat hu
  have hseen := hset.getElem? i
  rw [hu, Option.map_some] at hseen
  by_cases hi : i = position
  · subst hi
    rw [List.getElem?_set_self (by rw [List.length_map]; exact hlt)] at hseen
    obtain rfl := Option.some.inj hseen
    exact hP.works (h.holds hhat ht) hinline
  · rw [List.getElem?_set_ne (Ne.symm hi), List.getElem?_map] at hseen
    obtain ⟨u', hu', hsame⟩ := Option.map_eq_some_iff.1 hseen
    rw [← hsame]
    exact h.holds hhat hu'

/-- **Marks do not matter.** -/
theorem remark (h : Upholds P w scripts s) (hP : Lasting P) {threads : List Thread}
    (hmark : ∀ i : Nat, ∃ mark : Thread → Bool,
      threads[i]? = (s.threads[i]?).map fun t ↦ { t with killed := mark t }) :
    Upholds P w scripts ⟨s.engine, threads⟩ := by
  have hdriven := (h.driven hP).remark hmark
  refine ⟨h.world, hdriven.lends, ?_, ?_⟩
  · refine h.length_eq.trans (Nat.le_antisymm ?_ ?_)
    · by_contra hlt
      obtain ⟨mark, hi⟩ := hmark threads.length
      rw [List.getElem?_eq_none (Nat.le_refl _),
        List.getElem?_eq_getElem (Nat.lt_of_not_le hlt)] at hi
      cases hi
    · by_contra hlt
      obtain ⟨mark, hi⟩ := hmark s.threads.length
      have hnone : s.threads[s.threads.length]? = none := List.getElem?_eq_none (Nat.le_refl _)
      rw [hnone, List.getElem?_eq_getElem (Nat.lt_of_not_le hlt)] at hi
      cases hi
  · intro i hat u hhat hu
    obtain ⟨mark, hi⟩ := hmark i
    obtain ⟨t₀, ht₀, rfl⟩ := Option.map_eq_some_iff.1 (hi.symm.trans hu)
    exact hP.mark (mark t₀) (h.holds hhat ht₀)

theorem prepare (h : Upholds P w scripts s) (hP : Lasting P) (tick : Tick) :
    Upholds P (w.during tick) scripts (s.prepare tick) := by
  have hdriven := (h.driven hP).prepare tick
  refine ⟨hdriven.world, hdriven.lends, h.length_eq.trans List.length_mapIdx.symm, ?_⟩
  intro i hat u hhat hu
  rw [getElem?_prepare] at hu
  obtain ⟨t₀, ht₀, rfl⟩ := Option.map_eq_some_iff.1 hu
  exact hP.under _ (hP.mark _ (h.holds hhat ht₀))

theorem sweep (h : Upholds P w scripts s) (hP : Lasting P) :
    Upholds P w (remaining scripts s.threads) s.sweep := by
  have hdriven := (h.driven hP).sweep
  refine ⟨h.world, hdriven.lends, length_remaining h.length_eq, ?_⟩
  intro i hat u hhat hu
  obtain ⟨before, hhat', hu'⟩ := exists_of_remaining h.length_eq hhat hu
  exact h.holds hhat' hu'

end Upholds

namespace Reached

variable {e : Engine} {scripts : List (BlockId × TargetId)} {s s' mid mid' : Schedule}
  {clock : Clock} {turns position : Nat}

/-- **A lasting property holds of every thread of every reached schedule**, by induction from one
thing that a driver does. -/
theorem upholds {P : World → BlockId × TargetId → InlineThread → Prop} (hP : Lasting P)
    (hpool : e.pool = Pool.empty) (h : Reached e scripts s) :
    ∃ settings, Upholds P (e.world.under settings) scripts s := by
  induction h with
  | start hstart =>
    obtain ⟨hdriven, hlength, hthreads⟩ := driven_start hpool hstart
    refine ⟨e.settings, hdriven.world, hdriven.lends, hlength.symm, ?_⟩
    intro position hat t hhat ht
    obtain ⟨compilation, -, hinline⟩ := hthreads position hat t hhat ht
    rw [hinline]
    exact hP.started _ hat compilation
  | prepare _ tick ih =>
    obtain ⟨settings, hs⟩ := ih
    exact ⟨_, hs.prepare hP tick⟩
  | work _ ht hworks ih =>
    obtain ⟨settings, hs⟩ := ih
    exact ⟨settings, hs.work hP ht hworks⟩
  | mark _ request position ih =>
    obtain ⟨settings, hs⟩ := ih
    refine ⟨settings, hs.remark hP fun i ↦ ?_⟩
    obtain ⟨mark, -, hmark⟩ := getElem?_markOthers request position _ i
    exact ⟨mark, hmark⟩
  | sweep _ ih =>
    obtain ⟨settings, hs⟩ := ih
    exact ⟨settings, hs.sweep hP⟩

/-! ### Runs -/

theorem turnAt (h : Reached e scripts mid) (hturn : s.turnAt clock turns mid position = .ok mid') :
    Reached e scripts mid' := by
  rw [Schedule.turnAt] at hturn
  rcases ht : mid.threads[position]? with - | t
  · rw [stepAt, ht] at hturn
    cases hturn
    exact h
  · obtain ⟨request, a, hstep, rfl⟩ := exists_of_stepAt ht hturn
    exact (h.work ht (.takeTurn hstep)).mark request position

/-- **Every moment of a frame is reached.** -/
theorem upTo (h : Reached e scripts s) (position : Nat) : ∀ {mid : Schedule},
    s.upTo clock turns position = .ok mid → Reached e scripts mid := by
  induction position with
  | zero =>
    intro mid hup
    cases hup
    exact h
  | succ position ih =>
    intro mid hup
    obtain ⟨mid₁, hup₁, hturn⟩ := exists_of_upTo_succ hup
    exact (ih hup₁).turnAt hturn

/-- **Every frame of a run is reached.** -/
theorem drive (ticks : List Tick) : ∀ {scripts : List (BlockId × TargetId)} {s s' : Schedule},
    Reached e scripts s → s.drive ticks = .ok s' → ∃ scripts', Reached e scripts' s' := by
  induction ticks with
  | nil =>
    intro scripts s s' h hdrive
    cases hdrive
    exact ⟨_, h⟩
  | cons tick ticks ih =>
    intro scripts s s' h hdrive
    obtain ⟨s₁, hframe, hrest⟩ := exists_of_bind_eq_ok hdrive
    obtain ⟨mid, hup, rfl⟩ := exists_of_frame hframe
    exact ih ((h.prepare tick).upTo _ hup).sweep hrest

end Reached

end Schedule

end BlockScript
