import BlockScript.Proofs.Schedule.Ticks
import BlockScript.Proofs.Thread.Requests

/-!
# What becomes of stop requests

The marks that a frame sets are exactly those that were asked for at any of its steps
(`Driven.marked_iff`): a turn passes one request on, and with it all that came up
(`Rests.isStopped_iff`).

A mark is final: at its next turn a marked thread executes nothing and is unwound
(`Driven.unwound`). The threads behind the one that asked have that turn in the same frame and the
threads before it in the next one, which is why a request to end everything has emptied the list by
the end of the next frame (`Driven.frame_of_killed`). A thread that nobody asked to end leaves the
list by its own end only (`Driven.leaves`).
-/

namespace BlockScript

namespace Schedule

/-! ### What is asked for in a frame -/

/-- The thread at a position executes a block in the frame: one of its steps comes to it, and it
exists. -/
def Executes (s : Schedule) (clock : Clock) (turns position : Nat) (b : Block) : Prop :=
  ∃ a, s.atTurn clock turns position = some a ∧ ∃ step ∈ s.stepsAt clock turns position, ∃ id,
    step.block = some id ∧ a.engine.resolve? a.thread.target id = some b

/-- In the frame the thread at a position executes a block that ends the thread at another
position. -/
def Ends (s : Schedule) (clock : Clock) (turns position other : Nat) : Prop :=
  other ≠ position ∧ ∃ b, s.Executes clock turns position b ∧ (b.EndsAll ∨ b.EndsOthers ∧
    (s.threads[other]?).map Thread.target = (s.threads[position]?).map Thread.target)

/-- What marking does to the thread at a position. -/
theorem getElem?_markOthers_eq (request : Option StopRequest) (position : Nat)
    (threads : List Thread) (i : Nat) :
    (markOthers request position threads)[i]? = (threads[i]?).map fun t ↦
      { t with killed := t.killed ||
        (decide (i ≠ position) && request.any fun r ↦ isStopped r t) } := by
  cases request with
  | none =>
    rw [markOthers]
    cases threads[i]? <;> simp
  | some request =>
    rw [markOthers, List.getElem?_mapIdx]
    cases threads[i]? with
    | none => rfl
    | some t =>
      by_cases hstopped : i ≠ position ∧ isStopped request t
      · simp [hstopped]
      · simp only [Option.map_some, if_neg hstopped]
        rw [not_and_or] at hstopped
        rcases hstopped with hstopped | hstopped <;> simp [hstopped]

namespace Driven

variable {w : World} {s mid mid' : Schedule} {clock : Clock} {turns position : Nat} {t : Thread}

/-- **One turn**: it marks those threads that one of its steps asks to end, and no thread leaves its
target. -/
theorem getElem?_turnAt {other : Nat} {u : Thread} (h : Driven w mid)
    (ht : mid.threads[position]? = some t) (hturn : s.turnAt clock turns mid position = .ok mid')
    (hu : mid.threads[other]? = some u) :
    ∃ u', mid'.threads[other]? = some u' ∧ u'.target = u.target ∧
      (u'.killed = true ↔ u.killed = true ∨ other ≠ position ∧
        ∃ step ∈ Activity.turnSteps ⟨mid.engine, t⟩ (clock.began + s.engine.settings.workTime)
          (clock.shown position) turns, ∃ r, step.request = some r ∧ isStopped r u = true) := by
  obtain ⟨request, a, hstep, rfl⟩ := exists_of_stepAt ht hturn
  obtain ⟨blocks, hinline, -⟩ := h.reports ht hstep
  obtain ⟨target, lot, stack, hrests⟩ := h.rests t (List.mem_of_getElem? ht)
  by_cases hother : other = position
  · subst hother
    obtain rfl : t = u := Option.some.inj (ht.symm.trans hu)
    obtain ⟨stack', hrests'⟩ := hrests.exists_of_takeTurn hinline
    have htarget : a.thread.target = t.target := hrests'.target_eq.trans hrests.target_eq.symm
    have hkilled : a.thread.killed = t.killed :=
      congrArg Lot.killed (hrests.lot_of_takeTurn hinline)
    refine ⟨a.thread, getElem?_afterTurn ht, htarget, ?_⟩
    rw [hkilled]
    simp
  · have hmark := getElem?_markOthers_eq request position (mid.threads.set position a.thread) other
    rw [List.getElem?_set_ne (Ne.symm hother), hu, Option.map_some] at hmark
    refine ⟨_, hmark, rfl, ?_⟩
    rw [(h.mirrored.activity ht).turnSteps, h.world, ← hrests.isStopped_iff hinline u]
    simp [hother, Option.any_eq_true]

/-- The blocks that a thread executes are those of its steps that its world has. -/
theorem executes_iff {a : Activity} {b : Block} (h : Driven w s)
    (hatTurn : s.atTurn clock turns position = some a) :
    s.Executes clock turns position b ↔ ∃ step ∈ s.stepsAt clock turns position, ∃ id,
      step.block = some id ∧ w.resolve? a.thread.target id = some b := by
  have hresolve : a.engine.resolve? = w.resolve? := by
    obtain ⟨mid, hmid, hengine, -⟩ := Schedule.exists_of_atTurn hatTurn
    rw [← Engine.resolve?_world, ← hengine, (h.of_upTo hmid).1.world]
  rw [← hresolve]
  constructor
  · rintro ⟨a', hatTurn', hsteps⟩
    obtain rfl : a = a' := Option.some.inj (hatTurn.symm.trans hatTurn')
    exact hsteps
  · exact fun hsteps ↦ ⟨a, hatTurn, hsteps⟩

/-- What a turn asks of another thread, by the blocks that it executes. -/
theorem ends_iff {other : Nat} {t₀ u₀ u : Thread} (h : Driven w s)
    (hup : s.upTo clock turns position = .ok mid) (ht : mid.threads[position]? = some t)
    (ht₀ : s.threads[position]? = some t₀) (htarget : t.target = t₀.target)
    (hu₀ : s.threads[other]? = some u₀) (hu : u.target = u₀.target) :
    s.Ends clock turns position other ↔ other ≠ position ∧
      ∃ step ∈ Activity.turnSteps ⟨mid.engine, t⟩ (clock.began + s.engine.settings.workTime)
        (clock.shown position) turns, ∃ r, step.request = some r ∧ isStopped r u = true := by
  have hmid := (h.of_upTo hup).1
  obtain ⟨target, lot, stack, hrests⟩ := hmid.rests t (List.mem_of_getElem? ht)
  obtain rfl : t.target = target := hrests.target_eq
  have hatTurn : s.atTurn clock turns position = some ⟨mid.engine, t⟩ := by
    rw [atTurn_of_upTo hup, ht]
    rfl
  have hsteps : s.stepsAt clock turns position =
      Activity.turnSteps ⟨mid.engine, t⟩ (clock.began + s.engine.settings.workTime)
        (clock.shown position) turns := by
    rw [stepsAt, hatTurn]
  have hrequest : ∀ step ∈ Activity.turnSteps ⟨mid.engine, t⟩
      (clock.began + s.engine.settings.workTime) (clock.shown position) turns, ∀ r,
        step.request = some r ↔ ∃ id b, step.block = some id ∧ w.resolve? t.target id = some b ∧ b.Asks t.target r := by
    intro step hmem
    rw [(hmid.mirrored.activity ht).turnSteps, hmid.world] at hmem
    exact (hrests.request_of_mem_turnSteps hmem).2
  rw [Ends, ht₀, hu₀, Option.map_some, Option.map_some, Option.some_inj, ← htarget, ← hu]
  simp only [h.executes_iff hatTurn, hsteps]
  refine and_congr_right fun _ ↦ ?_
  constructor
  · rintro ⟨b, ⟨step, hmem, id, hid, hb⟩, hall | ⟨hothers, hsame⟩⟩
    · exact ⟨step, hmem, .all, (hrequest step hmem _).2 ⟨id, b, hid, hb, .inl ⟨rfl, hall⟩⟩, rfl⟩
    · exact ⟨step, hmem, .others t.target,
        (hrequest step hmem _).2 ⟨id, b, hid, hb, .inr ⟨rfl, hothers⟩⟩, decide_eq_true hsame⟩
  · rintro ⟨step, hmem, r, hr, hstopped⟩
    obtain ⟨id, b, hid, hb, ⟨rfl, hall⟩ | ⟨rfl, hothers⟩⟩ := (hrequest step hmem r).1 hr
    · exact ⟨b, ⟨step, hmem, id, hid, hb⟩, .inl hall⟩
    · exact ⟨b, ⟨step, hmem, id, hid, hb⟩, .inr ⟨hothers, of_decide_eq_true hstopped⟩⟩

/-- **The marks of a frame**, by induction from one turn: a thread is marked just when it was before
or a thread that had its turn has asked for its end. -/
theorem marked_iff (h : Driven w s) (position : Nat) :
    ∀ {mid : Schedule} {other : Nat} {t : Thread},
    s.upTo clock turns position = .ok mid → s.threads[other]? = some t →
      ∃ t', mid.threads[other]? = some t' ∧ t'.target = t.target ∧
        (t'.killed = true ↔ t.killed = true ∨
          ∃ earlier < position, s.Ends clock turns earlier other) := by
  induction position with
  | zero =>
    intro mid other t hup ht
    cases hup
    exact ⟨t, ht, rfl, by simp⟩
  | succ position ih =>
    intro mid' other t hup ht
    obtain ⟨mid, hmid, hturn⟩ := exists_of_upTo_succ hup
    obtain ⟨t₁, ht₁, htarget₁, hkilled₁⟩ := ih hmid ht
    have hsplit : (∃ earlier < position + 1, s.Ends clock turns earlier other) ↔
        (∃ earlier < position, s.Ends clock turns earlier other) ∨
          s.Ends clock turns position other := by
      simp only [Nat.lt_succ_iff_lt_or_eq, or_and_right, exists_or, exists_eq_left]
    rw [hsplit, ← or_assoc, ← hkilled₁]
    have hlength := (h.of_upTo hmid).2
    rcases hu : mid.threads[position]? with - | u
    · -- There is no thread at that position, and nobody asks for anything.
      have hnobody : ¬s.Ends clock turns position other := by
        rintro ⟨-, b, ⟨a, ha, -⟩, -⟩
        rw [atTurn_of_upTo hmid, hu] at ha
        cases ha
      rw [Schedule.turnAt, stepAt, hu] at hturn
      cases hturn
      exact ⟨t₁, ht₁, htarget₁, by simp [hnobody]⟩
    · have hlt : position < s.threads.length := hlength ▸ (List.getElem?_eq_some_iff.1 hu).1
      have hu₀ := List.getElem?_eq_getElem hlt
      obtain ⟨u₁, hu₁, htarget, -⟩ := ih hmid hu₀
      obtain rfl : u = u₁ := Option.some.inj (hu.symm.trans hu₁)
      obtain ⟨t', ht', htarget', hkilled'⟩ :=
        (h.of_upTo hmid).1.getElem?_turnAt hu hturn ht₁
      refine ⟨t', ht', htarget'.trans htarget₁, ?_⟩
      rw [hkilled', h.ends_iff hmid hu hu₀ htarget ht htarget₁]

/-! ### Threads that are marked -/

/-- **The turn of a marked thread.** It is unwound, its frames go back to the pool, and nothing else
happens. -/
theorem unwound (h : Driven w mid) (ht : mid.threads[position]? = some t)
    (hkilled : t.killed = true) (s : Schedule) (clock : Clock) (turns : Nat) :
    Activity.turnSteps ⟨mid.engine, t⟩ (clock.began + s.engine.settings.workTime)
      (clock.shown position) turns = [] ∧
    ∃ mid' t', s.turnAt clock turns mid position = .ok mid' ∧
      mid'.threads = mid.threads.set position t' ∧ t'.levels = [] ∧ t'.status = .done ∧
      (∀ id ∈ t.frames, mid'.engine.pool.isInUse id = false) ∧
      mid'.engine.pool.inUseCount + t.depth = mid.engine.pool.inUseCount := by
  have hmirrors := h.mirrored.activity ht
  have hkilled' : (t.inline mid.engine.pool).killed = true := hkilled
  obtain ⟨target, lot, stack, hrests⟩ := h.rests t (List.mem_of_getElem? ht)
  obtain ⟨t₁, hkill, hrests₁⟩ := hrests.kill
  have hinline : (t.inline mid.engine.pool).takeTurn w
      (clock.began + s.engine.settings.workTime) (clock.shown position) turns =
        .ok ([], none, t₁) := by
    rw [InlineThread.takeTurn, if_pos hkilled', hkill]
    rfl
  obtain ⟨⟨request, a⟩, hturn⟩ := h.takeTurn_of_inline ht hinline
  obtain ⟨blocks, hinline', hreports⟩ := h.reports ht hturn
  obtain ⟨rfl, rfl⟩ : request = none ∧ a.inline = t₁ := by
    have heq := Except.ok.inj (hinline'.symm.trans hinline)
    exact ⟨congrArg (fun r ↦ r.2.1) heq, congrArg (fun r ↦ r.2.2) heq⟩
  have hlevels : a.thread.levels = [] := List.map_eq_nil_iff.1 hrests₁.levels_eq_nil
  have hframes : a.thread.frames = [] := by rw [Thread.frames, hlevels, List.map_nil]
  have hlends := hmirrors.lends
  have hlends' := hreports.lends
  rw [hframes, List.nil_append] at hlends'
  refine ⟨?_, afterTurn mid position none a, a.thread, ?_, rfl, hlevels,
    hrests₁.status_eq_done_iff.2 rfl, ?_, ?_⟩
  · rw [hmirrors.turnSteps]
    exact InlineThread.turnSteps_of_killed hkilled'
  · exact stepAt_eq_ok ht hturn
  · -- No frame of the thread is one of the others', which are all that is held now.
    intro id hmem
    refine Bool.eq_false_iff.2 fun hinUse ↦ ?_
    obtain ⟨f, hcell⟩ := Pool.exists_of_isInUse hinUse
    have hother : id ∈ mid.heldBut position := hlends'.mem_held_iff.2 ⟨f, hcell⟩
    exact (List.nodup_append.1 hlends.held_nodup).2.2 id hmem id hother rfl
  · have hdepth : t.frames.length = t.depth := List.length_map _
    have hbefore : mid.engine.pool.inUseCount = (t.frames ++ mid.heldBut position).length :=
      hlends.inUseCount_eq
    have hafter : (afterTurn mid position none a).engine.pool.inUseCount =
      (mid.heldBut position).length := hlends'.inUseCount_eq
    rw [hbefore, hafter, List.length_append, hdepth, Nat.add_comm]

/-- **A frame in which all threads are marked** comes to an end and leaves none of them. -/
theorem frame_of_killed (h : Driven w s) (hkilled : ∀ t ∈ s.threads, t.killed = true)
    (clock : Clock) (turns : Nat) : ∃ s', s.frame clock turns = .ok s' ∧ s'.threads = [] := by
  have hturns : ∀ position, position ≤ s.threads.length → ∃ mid,
      s.upTo clock turns position = .ok mid ∧
        ∀ earlier < position, ∀ t, mid.threads[earlier]? = some t → t.status = .done := by
    intro position
    induction position with
    | zero => exact fun _ ↦ ⟨s, rfl, fun earlier hlt ↦ absurd hlt (Nat.not_lt_zero _)⟩
    | succ position ih =>
      intro hle
      obtain ⟨mid, hup, hdone⟩ := ih (Nat.le_of_succ_le hle)
      have ht₀ : s.threads[position]? = some s.threads[position] := List.getElem?_eq_getElem hle
      obtain ⟨t, ht, -, hmark⟩ := h.marked_iff position hup ht₀
      have htKilled := hmark.2 (.inl (hkilled _ (List.mem_of_getElem? ht₀)))
      obtain ⟨-, mid', t', hturn, hset, -, hdone', -⟩ :=
        (h.of_upTo hup).1.unwound ht htKilled s clock turns
      refine ⟨mid', ?_, fun earlier hlt u hu ↦ ?_⟩
      · rw [upTo_succ, hup]
        exact hturn
      · rw [hset] at hu
        rcases Nat.lt_succ_iff_lt_or_eq.1 hlt with hlt | rfl
        · rw [List.getElem?_set_ne (Nat.ne_of_gt hlt)] at hu
          exact hdone earlier hlt u hu
        · rw [List.getElem?_set_self (List.getElem?_eq_some_iff.1 ht).1] at hu
          obtain rfl := Option.some.inj hu
          exact hdone'
  obtain ⟨mid, hup, hdone⟩ := hturns s.threads.length (Nat.le_refl _)
  refine ⟨mid.sweep, ?_, ?_⟩
  · rw [frame_eq, hup]
    rfl
  · refine List.filter_eq_nil_iff.2 fun t hmem ↦ ?_
    obtain ⟨position, ht⟩ := List.mem_iff_getElem?.1 hmem
    have hlt := (List.getElem?_eq_some_iff.1 ht).1
    rw [(h.of_upTo hup).2] at hlt
    rw [hdone position hlt t ht]
    decide

/-! ### Threads that leave -/

/-- A thread that is done at the end of a frame was marked, or was compiled, or came to the end of
its stack by a step of its own; and a marked thread is done. -/
theorem leaves {after : Schedule} {a : Activity} {t' : Thread} (h : Driven w s)
    (hlive : ∀ t ∈ s.threads, t.status ≠ .done)
    (hup : s.upTo clock turns s.threads.length = .ok after)
    (hatTurn : s.atTurn clock turns position = some a)
    (ht' : after.threads[position]? = some t') :
    (a.thread.killed = true → t'.status = .done) ∧
      (t'.status = .done → a.thread.killed = true ∨ a.thread.program?.isSome = true ∨
        ∃ step, (s.stepsAt clock turns position).getLast? = some step ∧
          step.after.levels = []) := by
  obtain ⟨t₀, ht₀, hsame₀, ⟨target, lot, stack, hrests⟩, hsteps⟩ := h.of_atTurn hatTurn
  obtain ⟨blocks, request, t₁, t'', hturn, ht'', hsame⟩ := h.exists_after_of_atTurn hup hatTurn
  obtain rfl : t' = t'' := Option.some.inj (ht'.symm.trans ht'')
  have hstatus : t'.status = t₁.status := congrArg InlineThread.status hsame
  rw [hstatus, hsteps]
  constructor
  · intro hkilled
    obtain ⟨t₂, hkill, hrests₂⟩ := hrests.kill
    have hkilled' : a.inline.killed = true := hkilled
    rw [InlineThread.takeTurn, if_pos hkilled', hkill] at hturn
    cases hturn
    exact hrests₂.status_eq_done_iff.2 rfl
  · intro hdone
    by_contra hnone
    rw [not_or, not_or] at hnone
    obtain ⟨hkilled, hprogram, hlast⟩ := hnone
    have hkilled' : a.inline.killed = false := Bool.eq_false_iff.2 hkilled
    have hprogram' : a.inline.program? = none := Option.not_isSome_iff_eq_none.1 hprogram
    have hafter := InlineThread.eq_afterSteps_of_takeTurn hkilled' hprogram' hturn
    obtain ⟨stack', hrests'⟩ := hrests.exists_of_takeTurn hturn
    have hlevels : t₁.levels = [] :=
      (hrests'.status_eq_done_iff.1 hdone ▸ hrests').levels_eq_nil
    rw [InlineThread.afterSteps] at hafter
    rcases hgetLast : (a.inline.turnSteps w (clock.began + w.settings.workTime)
      (clock.shown position) turns).getLast? with - | step
    · -- A thread that makes no step would have been done before the frame.
      rw [hgetLast] at hafter
      have hwake : a.inline.wake.status = .done := by
        rw [hafter] at hdone
        exact hdone
      have hstack := hrests.wake.status_eq_done_iff.1 hwake
      have hdone₀ : t₀.status = .done :=
        (congrArg InlineThread.status hsame₀).symm.trans (hrests.status_eq_done_iff.2 hstack)
      exact hlive t₀ (List.mem_of_getElem? ht₀) hdone₀
    · rw [hgetLast] at hafter
      refine hlast ⟨step, hgetLast, ?_⟩
      rw [hafter] at hlevels
      exact hlevels

/-- After a frame in which a thread executed a block that ends all scripts, every thread that is
left is marked. -/
theorem killed_of_endsAll {after : Schedule} {b : Block} (h : Driven w s)
    (hup : s.upTo clock turns s.threads.length = .ok after)
    (hexecutes : s.Executes clock turns position b) (hall : b.EndsAll) :
    ∀ t ∈ after.sweep.threads, t.killed = true := by
  intro t hmem
  obtain ⟨hmem, hlive⟩ := List.mem_filter.1 hmem
  obtain ⟨other, ht⟩ := List.mem_iff_getElem?.1 hmem
  have hexecutes' := hexecutes
  obtain ⟨a, hatTurn, -⟩ := hexecutes'
  obtain ⟨t₀, ht₀, -, ⟨target, lot, stack, hrests⟩, hsteps⟩ := h.of_atTurn hatTurn
  by_cases hother : other = position
  · -- The thread that executed the block is done.
    subst hother
    obtain ⟨blocks, request, t₁, t', hturn, ht', hsame⟩ := h.exists_after_of_atTurn hup hatTurn
    obtain rfl : t = t' := Option.some.inj (ht.symm.trans ht')
    obtain ⟨step, hstep, id, hid, hb⟩ := (h.executes_iff hatTurn).1 hexecutes
    obtain rfl : a.thread.target = target := hrests.target_eq
    rw [hsteps] at hstep
    have hrequest : step.request = some .all :=
      ((hrests.request_of_mem_turnSteps hstep).2 .all).2
        ⟨id, b, hid, hb, .inl ⟨rfl, hall⟩⟩
    have hstatus : t.status = t₁.status := congrArg InlineThread.status hsame
    rw [hstatus, hrests.status_eq_done_of_all hturn hstep hrequest] at hlive
    cases hlive
  · have hlt : other < s.threads.length :=
      (h.of_upTo hup).2 ▸ (List.getElem?_eq_some_iff.1 ht).1
    obtain ⟨t', ht', -, hmark⟩ := h.marked_iff _ hup (List.getElem?_eq_getElem hlt)
    obtain rfl : t = t' := Option.some.inj (ht.symm.trans ht')
    exact hmark.2
      (.inr ⟨position, (List.getElem?_eq_some_iff.1 ht₀).1, hother, b, hexecutes, .inl hall⟩)

end Driven

/-! ### Threads in the list are not done -/

theorem ne_done_of_start {e : Engine} {s : Schedule} (hpool : e.pool = Pool.empty)
    (hstart : start e = .ok s) : ∀ t ∈ s.threads, t.status ≠ .done := by
  intro t hmem hdone
  obtain ⟨-, hlength, hthreads⟩ := driven_start hpool hstart
  obtain ⟨position, ht⟩ := List.mem_iff_getElem?.1 hmem
  have hlt : position < (hats e).length := hlength ▸ (List.getElem?_eq_some_iff.1 ht).1
  obtain ⟨compilation, -, hinline⟩ := hthreads position _ t (List.getElem?_eq_getElem hlt) ht
  have hrunning : t.status = .running := congrArg InlineThread.status hinline
  rw [hrunning] at hdone
  cases hdone

theorem ne_done_of_drive (ticks : List Tick) : ∀ {s s' : Schedule},
    (∀ t ∈ s.threads, t.status ≠ .done) → s.drive ticks = .ok s' →
      ∀ t ∈ s'.threads, t.status ≠ .done := by
  induction ticks with
  | nil =>
    intro s s' hlive hdrive
    cases hdrive
    exact hlive
  | cons tick ticks ih =>
    intro s s' hlive hdrive
    obtain ⟨s₁, hframe, hrest⟩ := exists_of_bind_eq_ok hdrive
    obtain ⟨mid, -, rfl⟩ := exists_of_frame hframe
    refine ih (fun t hmem ↦ ?_) hrest
    simpa using (List.mem_filter.1 hmem).2

theorem ne_done_prepare {s : Schedule} (hlive : ∀ t ∈ s.threads, t.status ≠ .done) (tick : Tick) :
    ∀ t ∈ (s.prepare tick).threads, t.status ≠ .done := by
  intro t hmem
  obtain ⟨position, ht⟩ := List.mem_iff_getElem?.1 hmem
  rw [getElem?_prepare] at ht
  obtain ⟨t₀, ht₀, rfl⟩ := Option.map_eq_some_iff.1 ht
  exact hlive t₀ (List.mem_of_getElem? ht₀)

/-! ### A frame of a run -/

/-- **Stop requests are exact and final** in a frame that leads from one schedule to another. -/
structure StopsExactly (s : Schedule) (clock : Clock) (turns : Nat) (s' : Schedule) : Prop where
  /-- A thread stays on its target throughout its turn. -/
  target_eq : ∀ position a step, s.atTurn clock turns position = some a →
    step ∈ s.stepsAt clock turns position → step.after.target = a.thread.target
  /-- When so many threads have had their turn, a thread is marked just when it was marked before or
  one of them executed a block that ends it. -/
  marked_iff : ∀ position ≤ s.threads.length, ∃ mid, s.upTo clock turns position = .ok mid ∧
    mid.threads.length = s.threads.length ∧ ∀ other t t', s.threads[other]? = some t →
      mid.threads[other]? = some t' → t'.target = t.target ∧
        (t'.killed = true ↔ t.killed = true ∨
          ∃ earlier < position, s.Ends clock turns earlier other)
  /-- A thread that is marked at its turn makes no step and is unwound, with all levels; its frames
  go back to the pool, and the other threads stay as they are. -/
  unwound : ∀ position mid mid' t, s.upTo clock turns position = .ok mid →
    s.upTo clock turns (position + 1) = .ok mid' → mid.threads[position]? = some t →
    t.killed = true → s.stepsAt clock turns position = [] ∧
      (∃ t', mid'.threads = mid.threads.set position t' ∧ t'.levels = [] ∧ t'.status = .done) ∧
      (∀ id ∈ t.frames, mid'.engine.pool.isInUse id = false) ∧
      mid'.engine.pool.inUseCount + t.depth = mid.engine.pool.inUseCount
  /-- Those threads leave the list that are done at the end. A thread that was marked at its turn
  is, and any other only if it was compiled or its own last step left it without levels. -/
  leaves : ∃ after, s.upTo clock turns s.threads.length = .ok after ∧
    s'.threads = (after.threads.filter fun t ↦ t.status != .done) ∧
    ∀ position a t', s.atTurn clock turns position = some a → after.threads[position]? = some t' →
      (a.thread.killed = true → t'.status = .done) ∧
      (t'.status = .done → a.thread.killed = true ∨ a.thread.program?.isSome = true ∨
        ∃ step, (s.stepsAt clock turns position).getLast? = some step ∧ step.after.levels = [])
  /-- After a block that ends all scripts was executed, the next frame comes to an end, whatever it
  brings, and leaves no thread. -/
  emptied : (∃ position b, s.Executes clock turns position b ∧ b.EndsAll) →
    ∀ tick, ∃ s'', (s'.prepare tick).frame tick.clock tick.turns = .ok s'' ∧ s''.threads = []

/-- **Stop requests are exact and final** in every frame of a run, whatever the clock shows in the
course of its frames and wherever it cuts the slices. -/
theorem stopsExactly_of_drive {settings : Settings} {project : Project} {s₀ s s' : Schedule}
    {ticks : List Tick} {tick : Tick}
    (hstart : start (Engine.ofProject settings project) = .ok s₀)
    (hdrive : s₀.drive ticks = .ok s)
    (hframe : (s.prepare tick).frame tick.clock tick.turns = .ok s') :
    StopsExactly (s.prepare tick) tick.clock tick.turns s' := by
  have hpool := Engine.pool_ofProject settings project
  obtain ⟨settings', hdriven⟩ := (driven_start hpool hstart).1.of_drive hdrive
  have h := hdriven.prepare tick
  have hlive := ne_done_prepare (ne_done_of_drive ticks (ne_done_of_start hpool hstart) hdrive) tick
  obtain ⟨after, hup, rfl⟩ := exists_of_frame hframe
  refine ⟨?_, ?_, ?_, ⟨after, hup, rfl, ?_⟩, ?_⟩
  · intro position a step hatTurn hmem
    obtain ⟨-, -, -, ⟨target, lot, stack, hrests⟩, hsteps⟩ := h.of_atTurn hatTurn
    rw [hsteps] at hmem
    exact (hrests.request_of_mem_turnSteps hmem).1.trans hrests.target_eq.symm
  · intro position hle
    obtain ⟨mid, hmid⟩ := exists_upTo_of_le hup hle
    refine ⟨mid, hmid, (h.of_upTo hmid).2, fun other t t' ht ht' ↦ ?_⟩
    obtain ⟨t'', ht'', hmark⟩ := h.marked_iff position hmid ht
    obtain rfl : t' = t'' := Option.some.inj (ht'.symm.trans ht'')
    exact hmark
  · intro position mid mid' t hmid hmid' ht hkilled
    obtain ⟨hnone, mid'', t', hturn, hset, hlevels, hdone, hframes, hcount⟩ :=
      (h.of_upTo hmid).1.unwound ht hkilled (s.prepare tick) tick.clock tick.turns
    obtain rfl : mid' = mid'' := by
      rw [upTo_succ, hmid] at hmid'
      exact Except.ok.inj (hmid'.symm.trans hturn)
    refine ⟨?_, ⟨t', hset, hlevels, hdone⟩, hframes, hcount⟩
    rw [stepsAt, atTurn_of_upTo hmid, ht]
    exact hnone
  · exact fun position a t' hatTurn ht' ↦ h.leaves hlive hup hatTurn ht'
  · rintro ⟨position, b, hexecutes, hall⟩ tick'
    have hkilled := h.killed_of_endsAll hup hexecutes hall
    have hnext := ((h.of_upTo hup).1.sweep).prepare tick'
    refine hnext.frame_of_killed (fun t hmem ↦ ?_) tick'.clock tick'.turns
    obtain ⟨other, ht⟩ := List.mem_iff_getElem?.1 hmem
    rw [getElem?_prepare] at ht
    obtain ⟨t₀, ht₀, rfl⟩ := Option.map_eq_some_iff.1 ht
    show (_ || t₀.killed) = true
    rw [hkilled t₀ (List.mem_of_getElem? ht₀), Bool.or_true]

/-! ### A script that ends all others -/

/-- A block that ends all scripts. -/
def stopAllBlock : Block where
  opcode := "control_stop"
  fields := ⟨[("STOP_OPTION", ⟨.text "all", none⟩)], by decide⟩

/-- Three scripts: an endless loop on the stage, an endless loop on a sprite, and a script that ends
the others of the sprite and then all. -/
def halting : Project where
  targets := [{
    name := "stage"
    blocks := ⟨[
      ("hat", { opcode := "event_whenflagclicked", next := some "loop" }),
      ("loop", { opcode := "control_forever" })], (by decide : ["hat", "loop"].Nodup)⟩ }, {
    name := "sprite"
    blocks := ⟨[
      ("hat", { opcode := "event_whenflagclicked", next := some "loop" }),
      ("loop", { opcode := "control_forever" }),
      ("other hat", { opcode := "event_whenflagclicked", next := some "others" }),
      ("others", { opcode := "control_stop", next := some "all",
                   fields := ⟨[("STOP_OPTION", ⟨.text "other scripts in sprite", none⟩)],
                     by decide⟩ }),
      ("all", stopAllBlock)],
      (by decide : ["hat", "loop", "other hat", "others", "all"].Nodup)⟩ }]

/-- A frame in which time runs out within the turn of the third thread. -/
def shortTick : Tick :=
  ⟨.steady 0 3, 9, 9, 9, []⟩

/-- A frame in which it does not. -/
def longTick : Tick :=
  ⟨.steady 20 1, 9, 9, 9, []⟩

/-- In the first frame time is up when the script has ended the loop of the sprite, which stays
in the list for one more frame. In the second it ends everything, and in the third the stage follows. -/
theorem stopsExactly_halting :
    ∃ s₀ s₁ s₂ s₃, start (Engine.ofProject ⟨30, 9, 9, false⟩ halting) = .ok s₀ ∧
      (s₀.prepare shortTick).frame shortTick.clock shortTick.turns = .ok s₁ ∧
      s₁.threads.map (fun t ↦ (t.topBlock, t.killed)) =
        [("hat", false), ("hat", true), ("other hat", false)] ∧
      (s₁.prepare longTick).frame longTick.clock longTick.turns = .ok s₂ ∧
      StopsExactly (s₁.prepare longTick) longTick.clock longTick.turns s₂ ∧
      s₂.threads.map (fun t ↦ (t.topBlock, t.killed)) = [("hat", true)] ∧
      (s₂.prepare shortTick).frame shortTick.clock shortTick.turns = .ok s₃ ∧
      s₃.threads = [] := by
  have hrun : (do
      let s₀ ← start (Engine.ofProject ⟨30, 9, 9, false⟩ halting)
      let s₁ ← (s₀.prepare shortTick).frame shortTick.clock shortTick.turns
      let s₂ ← (s₁.prepare longTick).frame longTick.clock longTick.turns
      return (s₁.threads.map fun (t : Thread) ↦ (t.topBlock, t.killed),
        s₂.threads.map fun (t : Thread) ↦ (t.topBlock, t.killed),
        ((s₁.prepare longTick).stepsAt longTick.clock longTick.turns 2).filterMap Step.block,
        ((s₁.prepare longTick).atTurn longTick.clock longTick.turns 2).bind fun a ↦
          a.engine.resolve? a.thread.target "all")) =
      .ok ([("hat", false), ("hat", true), ("other hat", false)], [("hat", true)], ["all"],
        some stopAllBlock) := by
    decide +kernel
  obtain ⟨s₀, hstart, hrun₁⟩ := exists_of_bind_eq_ok hrun
  obtain ⟨s₁, hfirst, hrun₂⟩ := exists_of_bind_eq_ok hrun₁
  obtain ⟨s₂, hsecond, hrun₃⟩ := exists_of_bind_eq_ok hrun₂
  obtain ⟨hmarked, hrun₄⟩ := Prod.mk.inj (Except.ok.inj hrun₃)
  obtain ⟨hleft, hrun₅⟩ := Prod.mk.inj hrun₄
  obtain ⟨hblocks, hb⟩ := Prod.mk.inj hrun₅
  have hdrive : s₀.drive [shortTick] = .ok s₁ := drive_cons hfirst
  have hexact := stopsExactly_of_drive hstart hdrive hsecond
  have hexecutes : (s₁.prepare longTick).Executes longTick.clock longTick.turns 2
      stopAllBlock := by
    obtain ⟨a, hatTurn, hb⟩ := Option.bind_eq_some_iff.1 hb
    obtain ⟨step, hstep, hid⟩ := List.mem_filterMap.1 (hblocks ▸ List.mem_singleton_self "all")
    exact ⟨a, hatTurn, step, hstep, "all", hid, hb⟩
  obtain ⟨s₃, hthird, hempty⟩ :=
    hexact.emptied ⟨2, stopAllBlock, hexecutes, rfl, by decide +kernel⟩ shortTick
  exact ⟨s₀, s₁, s₂, s₃, hstart, hfirst, hmarked, hsecond, hexact, hleft, hthird, hempty⟩

end Schedule

end BlockScript
