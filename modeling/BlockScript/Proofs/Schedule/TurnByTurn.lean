import BlockScript.Proofs.Activity.Steps
import BlockScript.Proofs.Schedule.Watching
import Mathlib.Data.Nat.Init

/-!
# A frame, turn by turn

A frame gives every thread its turn, in order, and lets those that are done go at its end. Here the
frame is taken apart: `Schedule.upTo` is the schedule when so many threads have had their turn, and
`Schedule.upTo_succ` is the turn of the next one. What can be said of a frame is said of one turn
first and then, by induction on the number of turns, of all of them.

A turn of a thread that rests at a stack can fail in one way only, which is that the steps granted
to it did not suffice (`Safely`); and then it has made all of them.
-/

namespace BlockScript

/-! ### Computations that may be cut short -/

/-- The computation does not fail, unless the steps that were granted did not suffice, and what
comes of it has the property. -/
inductive Safely {α : Type} (P : α → Prop) : Except Halt α → Prop
  /-- It comes to a result. -/
  | ok {a : α} (h : P a) : Safely P (.ok a)
  /-- It is cut short. -/
  | unfinished : Safely P (.error .unfinished)

namespace Safely

variable {α β : Type} {P : α → Prop} {Q : β → Prop} {x : Except Halt α}

/-- What may be cut short can be gone on with. -/
theorem bind {f : α → Except Halt β} (h : Safely P x) (hstep : ∀ a, P a → Safely Q (f a)) :
    Safely Q (x >>= f) := by
  cases h with
  | ok ha => exact hstep _ ha
  | unfinished => exact .unfinished

/-- What is known of the result may be weakened. -/
theorem mono {P' : α → Prop} (h : Safely P x) (himp : ∀ a, P a → P' a) : Safely P' x := by
  cases h with
  | ok ha => exact .ok (himp _ ha)
  | unfinished => exact .unfinished

/-- A result was not cut short. -/
theorem of_ok {a : α} (h : Safely P (.ok a)) : P a := by
  cases h with
  | ok ha => exact ha

theorem of_eq_ok {a : α} (h : Safely P x) (hx : x = .ok a) : P a :=
  of_ok (hx ▸ h)

/-- A failure was. -/
theorem eq_unfinished {cause : Halt} (h : Safely P (.error cause)) : cause = .unfinished := by
  cases h with
  | unfinished => rfl

theorem of_error {cause : Halt} (h : cause = .unfinished) : Safely P (.error cause) := by
  rw [h]
  exact .unfinished

end Safely

/-! ### One turn of an inline thread -/

namespace Rests

variable {w : World} {target : TargetId} {lot : Lot} {deadline : Time} {shown : Readings}

/-- A slice that fails was cut short: the thread made as many steps as were granted and still
runs. -/
theorem slice_error (turns : Nat) : ∀ {stack : Stack} {t : InlineThread}
    {request : Option StopRequest} {cause : Halt}, Rests w target lot stack t →
    InlineThread.slice w deadline shown turns request t = .error cause →
      cause = .unfinished ∧ (InlineThread.steps w deadline shown turns t).length = turns ∧
        (t.afterSteps (InlineThread.steps w deadline shown turns t)).status = .running := by
  induction turns generalizing shown with
  | zero =>
    intro stack t request cause h hslice
    rw [InlineThread.slice] at hslice
    split at hslice
    · rename_i hrunning
      cases hslice
      exact ⟨rfl, rfl, hrunning⟩
    · cases hslice
  | succ turns ih =>
    intro stack t request cause h hslice
    rw [InlineThread.slice] at hslice
    split at hslice
    · have hne := h.ne_nil_of_running ‹_›
      obtain ⟨t₁, ht₁, h₁⟩ := (h.stands hne).turn hne (shown 0) deadline
      rw [ht₁] at hslice
      rcases hrest : InlineThread.slice w deadline shown.later turns
        ((Stack.request? w target stack).or request) t₁ with cause' | result
      · obtain ⟨rfl, hlength, hrunning⟩ := ih h₁ hrest
        simp only [bind, Except.bind, hrest] at hslice
        cases hslice
        rw [InlineThread.steps_of_turn ‹_› ht₁, List.length_cons, hlength,
          InlineThread.afterSteps_cons]
        exact ⟨rfl, rfl, hrunning⟩
      · simp only [bind, Except.bind, hrest] at hslice
        cases hslice
    · cases hslice

/-- So does a turn, and only an interpreted thread's turn can be cut short. -/
theorem takeTurn_error {stack : Stack} {t : InlineThread} {turns : Nat} {cause : Halt}
    (h : Rests w target lot stack t)
    (hturn : t.takeTurn w deadline shown turns = .error cause) :
    cause = .unfinished ∧ t.killed = false ∧ t.program? = none ∧
      (t.turnSteps w deadline shown turns).length = turns ∧
      (t.wake.afterSteps (t.turnSteps w deadline shown turns)).status = .running := by
  rw [InlineThread.takeTurn] at hturn
  rw [InlineThread.turnSteps]
  cases hkilled : t.killed with
  | true =>
    obtain ⟨t', hkill, -⟩ := h.kill
    rw [hkilled, if_pos rfl, hkill] at hturn
    cases hturn
  | false =>
    rw [hkilled, if_neg Bool.false_ne_true] at hturn
    cases hprogram : t.program? with
    | some program =>
      obtain ⟨t', hstop, -⟩ := h.wake.stopScript
      simp only [hprogram, hstop] at hturn
      cases hturn
    | none =>
      simp only [hprogram] at hturn
      obtain ⟨hcause, hlength, hrunning⟩ := slice_error turns h.wake hturn
      exact ⟨hcause, rfl, rfl, hlength, hrunning⟩

end Rests

namespace Schedule

/-! ### The turns of a frame -/

/-- The schedule after the turn of the thread at a position, in a frame. -/
def turnAt (s : Schedule) (clock : Clock) (turns : Nat) (mid : Schedule) (position : Nat) :
    Except Halt Schedule :=
  stepAt (s.turnIn clock turns) mid position

variable {s mid mid' : Schedule} {clock : Clock} {turns position : Nat}

/-- **The next turn.** -/
theorem upTo_succ (s : Schedule) (clock : Clock) (turns position : Nat) :
    s.upTo clock turns (position + 1) =
      s.upTo clock turns position >>= fun mid ↦ s.turnAt clock turns mid position := by
  rw [upTo, List.range_succ, List.foldlM_append]
  simp only [List.foldlM_cons, List.foldlM_nil, bind_pure]
  rfl

/-- A frame is the turns of all threads, and the sweep. -/
theorem frame_eq (s : Schedule) (clock : Clock) (turns : Nat) :
    s.frame clock turns = (s.upTo clock turns s.threads.length).map sweep := by
  show (s.upTo clock turns s.threads.length >>= fun mid ↦ .ok mid.sweep) = _
  cases s.upTo clock turns s.threads.length <;> rfl

/-- A frame that ends has come through all turns. -/
theorem exists_of_frame {s' : Schedule} (hframe : s.frame clock turns = .ok s') :
    ∃ mid, s.upTo clock turns s.threads.length = .ok mid ∧ s' = mid.sweep := by
  rw [frame_eq] at hframe
  rcases hup : s.upTo clock turns s.threads.length with cause | mid
  · rw [hup] at hframe
    cases hframe
  · rw [hup] at hframe
    cases hframe
    exact ⟨mid, rfl, rfl⟩

/-- A frame that has come through a turn had come to it. -/
theorem exists_of_upTo_succ (hup : s.upTo clock turns (position + 1) = .ok mid') :
    ∃ mid, s.upTo clock turns position = .ok mid ∧
      s.turnAt clock turns mid position = .ok mid' := by
  rw [upTo_succ] at hup
  exact exists_of_bind_eq_ok hup

/-- A frame that has come so far has come through all turns before. -/
theorem exists_upTo_of_le {other : Nat} (hup : s.upTo clock turns position = .ok mid)
    (hle : other ≤ position) : ∃ mid', s.upTo clock turns other = .ok mid' := by
  induction position generalizing mid with
  | zero =>
    obtain rfl := Nat.le_zero.1 hle
    exact ⟨mid, hup⟩
  | succ position ih =>
    rcases Nat.le_succ_iff.1 hle with hle | rfl
    · obtain ⟨mid', hup', -⟩ := exists_of_upTo_succ hup
      exact ih hup' hle
    · exact ⟨mid, hup⟩

/-- A frame that fails does so at one of its turns. -/
theorem exists_of_upTo_error {cause : Halt} (hup : s.upTo clock turns position = .error cause) :
    ∃ other < position, ∃ mid, s.upTo clock turns other = .ok mid ∧
      s.turnAt clock turns mid other = .error cause := by
  induction position with
  | zero => cases hup
  | succ position ih =>
    rw [upTo_succ] at hup
    rcases hmid : s.upTo clock turns position with cause' | mid
    · rw [hmid] at hup
      cases hup
      obtain ⟨other, hlt, found⟩ := ih hmid
      exact ⟨other, Nat.lt_succ_of_lt hlt, found⟩
    · rw [hmid] at hup
      exact ⟨position, Nat.lt_succ_self position, mid, hmid, hup⟩

/-! ### What the frame looks like to a thread -/

/-- The thread at a position as its turn comes, with the engine as it is then. -/
def atTurn (s : Schedule) (clock : Clock) (turns position : Nat) : Option Activity :=
  match s.upTo clock turns position with
  | .ok mid => (mid.threads[position]?).map (Activity.mk mid.engine)
  | .error _ => none

/-- The steps that the thread at a position makes in a frame. -/
def stepsAt (s : Schedule) (clock : Clock) (turns position : Nat) : List Step :=
  match s.atTurn clock turns position with
  | some a =>
    a.turnSteps (clock.began + s.engine.settings.workTime) (clock.shown position) turns
  | none => []

theorem atTurn_of_upTo (hup : s.upTo clock turns position = .ok mid) :
    s.atTurn clock turns position = (mid.threads[position]?).map (Activity.mk mid.engine) := by
  rw [atTurn, hup]

/-- What a thread finds at its turn is what the turns before it left. -/
theorem exists_of_atTurn {a : Activity} (h : s.atTurn clock turns position = some a) :
    ∃ mid, s.upTo clock turns position = .ok mid ∧ mid.engine = a.engine ∧
      mid.threads[position]? = some a.thread := by
  rw [atTurn] at h
  split at h
  · next mid hup =>
    obtain ⟨t, ht, rfl⟩ := Option.map_eq_some_iff.1 h
    exact ⟨mid, hup, rfl, ht⟩
  · cases h

namespace Driven

variable {w : World} {t : Thread}

/-- **A turn that fails was cut short.** -/
theorem takeTurn_error {deadline : Time} {cause : Halt} (h : Driven w s)
    (ht : s.threads[position]? = some t)
    (hturn : Activity.takeTurn ⟨s.engine, t⟩ deadline shown turns = .error cause) :
    cause = .unfinished ∧ t.killed = false ∧ t.program? = none ∧
      (Activity.turnSteps ⟨s.engine, t⟩ deadline shown turns).length = turns ∧
      ((t.inline s.engine.pool).wake.afterSteps
        (Activity.turnSteps ⟨s.engine, t⟩ deadline shown turns)).status = .running := by
  have hmirrors := h.mirrored.activity ht
  have hagree := hmirrors.takeTurn deadline shown turns
  obtain ⟨target, lot, stack, hrests⟩ := h.rests t (List.mem_of_getElem? ht)
  rw [hturn, h.world] at hagree
  rw [hmirrors.turnSteps, h.world]
  exact hrests.takeTurn_error hagree.eq_error

/-- **One turn** in a frame, which may be cut short. -/
theorem turnAt (h : Driven w mid) (s : Schedule) (clock : Clock) (turns position : Nat) :
    Safely (fun mid' ↦ Driven w mid' ∧ mid'.threads.length = mid.threads.length)
      (s.turnAt clock turns mid position) := by
  rw [Schedule.turnAt, stepAt]
  rcases ht : mid.threads[position]? with - | t
  · exact .ok ⟨h, rfl⟩
  · dsimp only
    rcases hturn : s.turnIn clock turns position ⟨mid.engine, t⟩ with cause | ⟨request, a⟩
    · exact .of_error (h.takeTurn_error ht hturn).1
    · exact .ok ⟨h.turn ht hturn, length_afterTurn mid position request a⟩

/-- **The turns of a frame**, by induction from one turn. -/
theorem upTo_safely (h : Driven w s) (clock : Clock) (turns position : Nat) :
    Safely (fun mid ↦ Driven w mid ∧ mid.threads.length = s.threads.length)
      (s.upTo clock turns position) := by
  induction position with
  | zero => exact .ok ⟨h, rfl⟩
  | succ position ih =>
    rw [upTo_succ]
    refine ih.bind fun mid hmid ↦ (hmid.1.turnAt s clock turns position).mono fun mid' hmid' ↦ ?_
    exact ⟨hmid'.1, hmid'.2.trans hmid.2⟩

/-- **The turns of a frame**, by induction on their number. -/
theorem of_upTo (h : Driven w s) (hup : s.upTo clock turns position = .ok mid) :
    Driven w mid ∧ mid.threads.length = s.threads.length := by
  have hsafely := h.upTo_safely clock turns position
  rw [hup] at hsafely
  exact hsafely.of_ok

/-- **The turns of others.** Between two moments of a frame a thread that has no turn of its own
stays as it is, its mark apart. -/
theorem unmarked_upTo {first last other : Nat} (h : Driven w s) (hle : first ≤ last)
    (hother : other < first ∨ last ≤ other) (hfirst : s.upTo clock turns first = .ok mid)
    (hlast : s.upTo clock turns last = .ok mid') (ht : mid.threads[other]? = some t) :
    ∃ t', mid'.threads[other]? = some t' ∧
      (t'.inline mid'.engine.pool).unmarked = (t.inline mid.engine.pool).unmarked := by
  induction last, hle using Nat.le_induction generalizing mid' with
  | base =>
    obtain rfl : mid = mid' := Except.ok.inj (hfirst.symm.trans hlast)
    exact ⟨t, ht, rfl⟩
  | succ last hle ih =>
    have hne : other ≠ last := by omega
    obtain ⟨mid₁, hup₁, hturn⟩ := exists_of_upTo_succ hlast
    obtain ⟨t₁, ht₁, hsame₁⟩ := ih (by omega) hup₁
    rcases hthread : mid₁.threads[last]? with - | u
    · rw [Schedule.turnAt, stepAt, hthread] at hturn
      cases hturn
      exact ⟨t₁, ht₁, hsame₁⟩
    · obtain ⟨request, a, hstep, rfl⟩ := exists_of_stepAt hthread hturn
      obtain ⟨t₂, ht₂, hsame₂⟩ :=
        (h.of_upTo hup₁).1.getElem?_afterTurn_of_ne hthread hstep hne ht₁
      exact ⟨t₂, ht₂, hsame₂.trans hsame₁⟩

/-- In a frame that comes through all turns every thread has its turn. -/
theorem exists_atTurn (h : Driven w s) (hup : s.upTo clock turns s.threads.length = .ok mid')
    (hlt : position < s.threads.length) : ∃ a, s.atTurn clock turns position = some a := by
  obtain ⟨mid, hmid⟩ := exists_upTo_of_le hup (Nat.le_of_lt hlt)
  have hlt' : position < mid.threads.length := (h.of_upTo hmid).2 ▸ hlt
  rw [atTurn_of_upTo hmid, List.getElem?_eq_getElem hlt']
  exact ⟨_, rfl⟩

/-- What a thread is when its turn comes: what it was when the frame began, its mark apart. Its
steps are those of the inline thread. -/
theorem of_atTurn {a : Activity} (h : Driven w s)
    (hatTurn : s.atTurn clock turns position = some a) :
    ∃ t, s.threads[position]? = some t ∧
      a.inline.unmarked = (t.inline s.engine.pool).unmarked ∧
      (∃ target lot stack, Rests w target lot stack a.inline) ∧
      s.stepsAt clock turns position =
        a.inline.turnSteps w (clock.began + w.settings.workTime) (clock.shown position)
          turns := by
  obtain ⟨mid, hmid, hengine, ht⟩ := exists_of_atTurn hatTurn
  obtain ⟨hdriven, hlength⟩ := h.of_upTo hmid
  have hlt : position < s.threads.length := hlength ▸ (List.getElem?_eq_some_iff.1 ht).1
  have ht₀ : s.threads[position]? = some s.threads[position] := List.getElem?_eq_getElem hlt
  obtain ⟨t', ht', hsame⟩ :=
    h.unmarked_upTo (Nat.zero_le position) (.inr (Nat.le_refl position)) rfl hmid ht₀
  obtain rfl : a.thread = t' := Option.some.inj (ht.symm.trans ht')
  have hinline : a.inline = a.thread.inline mid.engine.pool := by rw [hengine]; rfl
  have hsettings : s.engine.settings = w.settings := congrArg World.settings h.world
  refine ⟨_, ht₀, hinline ▸ hsame, hinline ▸ hdriven.rests _ (List.mem_of_getElem? ht), ?_⟩
  have hsteps := (hdriven.mirrored.activity ht).turnSteps
    (clock.began + w.settings.workTime) (clock.shown position) turns
  rw [hdriven.world, ← hinline, hengine] at hsteps
  rw [stepsAt, hatTurn, hsettings]
  exact hsteps

/-- **What a frame makes of a thread.** At the end of the frame the thread is where its own turn
left it, its mark apart. -/
theorem exists_after_of_atTurn {a : Activity} (h : Driven w s)
    (hup : s.upTo clock turns s.threads.length = .ok mid')
    (hatTurn : s.atTurn clock turns position = some a) :
    ∃ blocks request t₁ t',
      a.inline.takeTurn w (clock.began + w.settings.workTime) (clock.shown position) turns =
        .ok (blocks, request, t₁) ∧
      mid'.threads[position]? = some t' ∧
      (t'.inline mid'.engine.pool).unmarked = t₁.unmarked := by
  obtain ⟨mid, hmid, hengine, ht⟩ := exists_of_atTurn hatTurn
  obtain ⟨hdriven, hlength⟩ := h.of_upTo hmid
  have hlt : position < s.threads.length := hlength ▸ (List.getElem?_eq_some_iff.1 ht).1
  obtain ⟨mid₁, hmid₁⟩ := exists_upTo_of_le hup hlt
  obtain ⟨mid₀, hmid₀, hturn⟩ := exists_of_upTo_succ hmid₁
  obtain rfl : mid = mid₀ := Except.ok.inj (hmid.symm.trans hmid₀)
  obtain ⟨request, a', hstep, rfl⟩ := exists_of_stepAt ht hturn
  obtain ⟨t', ht', hsame⟩ := h.unmarked_upTo hlt (.inl (Nat.lt_succ_self position)) hmid₁ hup
    (getElem?_afterTurn ht)
  obtain ⟨blocks, hinline, -⟩ := hdriven.reports ht hstep
  have hsettings : s.engine.settings = w.settings := congrArg World.settings h.world
  rw [hengine, hsettings] at hinline
  exact ⟨blocks, request, _, t', hinline, ht', hsame⟩

/-- **A frame** can fail in no way but by being cut short. -/
theorem frame_safely (h : Driven w s) (clock : Clock) (turns : Nat) :
    Safely (Driven w) (s.frame clock turns) := by
  have hsafely := h.upTo_safely clock turns s.threads.length
  rw [frame_eq]
  rcases hup : s.upTo clock turns s.threads.length with cause | mid
  · rw [hup] at hsafely
    exact .of_error hsafely.eq_unfinished
  · rw [hup] at hsafely
    exact .ok hsafely.of_ok.1.sweep

end Driven

end Schedule

end BlockScript
