import BlockScript.Proofs.Schedule.Ticks

/-!
# Following a thread through a run

From frame to frame a thread moves up in the list as others leave it. `Schedule.moved` says where it
is after a frame, and `Schedule.follow` gathers whatever one looks at in each frame, until the
thread is done or a frame does not end. A frame that is cut short is looked at too, so that what is
gathered of a script that goes round for ever is not lost; it is a list, and there for every run.

`Driven.of_moved` is what a frame means to the thread that is followed: its own turn, with its
frames inline, and marks that the others may have set.
-/

namespace BlockScript

namespace Schedule

/-- Where the thread at a position is after a frame, and the schedule then. There is nothing to
follow any more once the thread is done, or if the frame does not end. -/
def moved (s : Schedule) (clock : Clock) (turns position : Nat) : Option (Nat × Schedule) :=
  match s.upTo clock turns s.threads.length with
  | .error _ => none
  | .ok mid =>
    (mid.threads[position]?).bind fun t ↦
      if t.status = .done then none
      else some ((mid.threads.take position).countP fun t ↦ t.status != .done, mid.sweep)

/-- What is seen of the thread at a position, frame by frame. -/
def follow {α : Type} (look : Schedule → Tick → Nat → List α) :
    List Tick → Nat → Schedule → List α
  | [], _, _ => []
  | tick :: ticks, position, s =>
    look (s.prepare tick) tick position ++
      match (s.prepare tick).moved tick.clock tick.turns position with
      | none => []
      | some (position', s') => follow look ticks position' s'

/-- The steps that the thread at a position makes in a run. -/
def stepsOf (s : Schedule) (ticks : List Tick) (position : Nat) : List Step :=
  follow (fun s tick position ↦ s.stepsAt tick.clock tick.turns position) ticks position s

theorem follow_cons_of_moved {α : Type} {look : Schedule → Tick → Nat → List α} {s s' : Schedule}
    {tick : Tick} {position position' : Nat}
    (hmoved : (s.prepare tick).moved tick.clock tick.turns position = some (position', s'))
    (ticks : List Tick) :
    follow look (tick :: ticks) position s =
      look (s.prepare tick) tick position ++ follow look ticks position' s' := by
  rw [follow, hmoved]

theorem follow_cons_of_gone {α : Type} {look : Schedule → Tick → Nat → List α} {s : Schedule}
    {tick : Tick} {position : Nat}
    (hmoved : (s.prepare tick).moved tick.clock tick.turns position = none) (ticks : List Tick) :
    follow look (tick :: ticks) position s = look (s.prepare tick) tick position := by
  rw [follow, hmoved]
  exact List.append_nil _

namespace Driven

variable {w : World} {s s' : Schedule} {clock : Clock} {turns position position' : Nat}

/-- **One frame** of a thread that is followed and is not done: it had its turn, and is found at its
new place as the turn left it, its mark apart. -/
theorem of_moved (h : Driven w s)
    (hmoved : s.moved clock turns position = some (position', s')) :
    Driven w s' ∧ s.frame clock turns = .ok s' ∧ ∃ a blocks request t₁ t',
      s.atTurn clock turns position = some a ∧
      a.inline.takeTurn w (clock.began + w.settings.workTime) (clock.shown position) turns =
        .ok (blocks, request, t₁) ∧
      t₁.status ≠ .done ∧ s'.threads[position']? = some t' ∧
      (t'.inline s'.engine.pool).unmarked = t₁.unmarked := by
  rw [moved] at hmoved
  rcases hup : s.upTo clock turns s.threads.length with cause | mid
  · rw [hup] at hmoved
    cases hmoved
  · rw [hup] at hmoved
    obtain ⟨t, ht, hlive⟩ := Option.bind_eq_some_iff.1 hmoved
    split at hlive
    · cases hlive
    · rename_i hdone
      cases hlive
      obtain ⟨hdriven, hlength⟩ := h.of_upTo hup
      have hlt : position < s.threads.length := hlength ▸ (List.getElem?_eq_some_iff.1 ht).1
      obtain ⟨a, hatTurn⟩ := h.exists_atTurn hup hlt
      obtain ⟨blocks, request, t₁, t', hturn, ht', hsame⟩ := h.exists_after_of_atTurn hup hatTurn
      obtain rfl : t = t' := Option.some.inj (ht.symm.trans ht')
      have hstatus : t.status = t₁.status := congrArg InlineThread.status hsame
      refine ⟨hdriven.sweep, ?_, a, blocks, request, t₁, t, hatTurn, hturn, hstatus ▸ hdone, ?_,
        hsame⟩
      · rw [frame_eq, hup]
        rfl
      · exact Watch.getElem?_filter (by simpa using hdone) ht

/-- The thread that is followed, as the frame of a tick finds it. -/
theorem unmarked_prepare {t : Thread} (tick : Tick) (ht : s.threads[position]? = some t) :
    ∃ t', (s.prepare tick).threads[position]? = some t' ∧
      (t'.inline (s.prepare tick).engine.pool).unmarked = (t.inline s.engine.pool).unmarked := by
  rw [getElem?_prepare, ht]
  exact ⟨_, rfl, rfl⟩

end Driven

end Schedule

end BlockScript
