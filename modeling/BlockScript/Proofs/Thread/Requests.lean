import BlockScript.Proofs.Activity.Steps
import BlockScript.Proofs.Thread.Structured
import BlockScript.Schedule

/-!
# The requests of a turn

A block can ask that other scripts end: all of them, or those on its own target. A thread may come
to several such blocks at one turn, of which only the last request leaves the turn. Nothing is lost
by that (`Rests.isStopped_iff`). A thread stays on its target, so that all of its requests to end
the others on it are the same; and a request to end everything ends the thread too, so that it is
the last one anyway (`Rests.requests_steps`).
-/

namespace BlockScript

/-! ### Blocks that end scripts -/

namespace Block

/-- The block ends all scripts. -/
def EndsAll (b : Block) : Prop :=
  b.opcode = stopOpcode ∧ b.stopOption? = some "all"

/-- The block ends the other scripts of its target. -/
def EndsOthers (b : Block) : Prop :=
  b.opcode = stopOpcode ∧ b.StopsOthers

variable {b : Block}

/-- Only a stop block has a command to end other scripts. -/
theorem opcode_eq_stop (h : b.command = .stopAll ∨ b.command = .stopOthers) :
    b.opcode = stopOpcode := by
  by_contra hop
  rw [command, if_neg hop] at h
  split at h
  · rcases h with h | h <;> cases h
  · split at h <;> rcases h with h | h <;> cases h

theorem command_eq_stopAll_iff : b.command = .stopAll ↔ b.EndsAll := by
  refine ⟨fun h ↦ ?_, fun h ↦ command_stopAll h.1 h.2⟩
  have hop := opcode_eq_stop (.inl h)
  by_contra hall
  by_cases hothers : b.StopsOthers
  · rw [command_stopOthers hop hothers] at h
    cases h
  · rw [command_stopThis hop (fun hoption ↦ hall ⟨hop, hoption⟩) hothers] at h
    cases h

theorem command_eq_stopOthers_iff : b.command = .stopOthers ↔ b.EndsOthers := by
  refine ⟨fun h ↦ ?_, fun h ↦ command_stopOthers h.1 h.2⟩
  have hop := opcode_eq_stop (.inr h)
  by_contra hothers
  by_cases hall : b.stopOption? = some "all"
  · rw [command_stopAll hop hall] at h
    cases h
  · rw [command_stopThis hop hall fun hoption ↦ hothers ⟨hop, hoption⟩] at h
    cases h

end Block

/-! ### The requests of a turn -/

/-- What a block that is executed on a target asks of the other threads. -/
def Block.Asks (b : Block) (target : TargetId) (request : StopRequest) : Prop :=
  request = .all ∧ b.EndsAll ∨ request = .others target ∧ b.EndsOthers

theorem Stack.request?_eq_some_iff {w : World} {target : TargetId} {stack : Stack}
    {request : StopRequest} :
    Stack.request? w target stack = some request ↔
      ∃ id b, stack.head?.join = some id ∧ w.resolve? target id = some b ∧
        b.Asks target request := by
  rcases stack with - | ⟨- | id, rest⟩
  · simp [request?]
  · simp [request?]
  · rw [request?]
    rcases hb : w.resolve? target id with - | b
    · simp [hb]
    · have hexists : (∃ id' b', (some id :: rest : Stack).head?.join = some id' ∧
          w.resolve? target id' = some b' ∧ b'.Asks target request) ↔ b.Asks target request := by
        simp [hb]
      rw [hexists, Block.Asks, ← Block.command_eq_stopAll_iff, ← Block.command_eq_stopOthers_iff,
        Option.map_some]
      cases b.command <;> simp [eq_comm]

namespace Rests

variable {w : World} {target : TargetId} {lot : Lot}

/-- **Every step of a slice** asks what its block asks, and leaves the thread on its target. -/
theorem request_of_mem_steps (deadline : Time) (shown : Readings) (turns : Nat) :
    ∀ {stack : Stack} {t : InlineThread} {step : Step}, Rests w target lot stack t →
      step ∈ InlineThread.steps w deadline shown turns t →
      step.after.target = target ∧ ∀ request, step.request = some request ↔
        ∃ id b, step.block = some id ∧ w.resolve? target id = some b ∧ b.Asks target request := by
  induction turns generalizing shown with
  | zero =>
    intro stack t step h hmem
    cases hmem
  | succ turns ih =>
    intro stack t step h hmem
    by_cases hrunning : t.status = .running
    · have hne := h.ne_nil_of_running hrunning
      obtain ⟨t₁, ht₁, h₁⟩ := (h.stands hne).turn hne (shown 0) deadline
      rw [InlineThread.steps_of_turn hrunning ht₁] at hmem
      rcases List.mem_cons.1 hmem with rfl | hmem
      · refine ⟨h₁.target_eq, fun request ↦ ?_⟩
        rw [h.peek?_eq hne]
        exact Stack.request?_eq_some_iff
      · exact ih shown.later h₁ hmem
    · rw [InlineThread.steps_of_not_running hrunning] at hmem
      cases hmem

/-- **The requests of a slice**: any number of times that the others on the target end, and perhaps
that all end after that, which is the end of the thread itself. -/
theorem requests_steps (deadline : Time) (shown : Readings) (turns : Nat) :
    ∀ {stack : Stack} {t : InlineThread}, Rests w target lot stack t → ∃ n,
      (InlineThread.steps w deadline shown turns t).filterMap Step.request =
        List.replicate n (.others target) ∨
      (InlineThread.steps w deadline shown turns t).filterMap Step.request =
          List.replicate n (.others target) ++ [.all] ∧
        (t.afterSteps (InlineThread.steps w deadline shown turns t)).status = .done := by
  induction turns generalizing shown with
  | zero => exact fun h ↦ ⟨0, .inl rfl⟩
  | succ turns ih =>
    intro stack t h
    by_cases hrunning : t.status = .running
    · have hne := h.ne_nil_of_running hrunning
      obtain ⟨t₁, ht₁, h₁⟩ := (h.stands hne).turn hne (shown 0) deadline
      obtain ⟨n, hn⟩ := ih shown.later h₁
      rw [InlineThread.steps_of_turn hrunning ht₁, InlineThread.afterSteps_cons,
        List.filterMap_cons]
      rcases hrequest : Stack.request? w target stack with - | request
      · exact ⟨n, hn⟩
      · obtain ⟨id, b, hhead, hb, ⟨rfl, hall⟩ | ⟨rfl, -⟩⟩ := Stack.request?_eq_some_iff.1 hrequest
        · -- The thread is unwound by its own block, and there is no further step.
          have hstep : Stack.step w target stack = [] := by
            obtain ⟨rest, rfl⟩ : ∃ rest, stack = some id :: rest := by
              rcases stack with - | ⟨block, rest⟩
              · cases hhead
              · exact ⟨rest, by rw [show block = some id from hhead]⟩
            rw [Stack.step, hb]
            dsimp only
            rw [Stack.perform, Block.command_eq_stopAll_iff.2 hall]
          have hdone : t₁.status = .done := h₁.status_eq_done_iff.2 hstep
          have hnone : InlineThread.steps w deadline shown.later turns t₁ = [] :=
            InlineThread.steps_of_not_running (by rw [hdone]; exact Status.noConfusion) turns
          rw [hnone]
          exact ⟨0, .inr ⟨rfl, hdone⟩⟩
        · refine ⟨n + 1, ?_⟩
          dsimp only
          rw [List.replicate_succ, List.cons_append]
          exact hn.imp (congrArg _) fun h ↦ ⟨congrArg _ h.1, h.2⟩
    · rw [InlineThread.steps_of_not_running hrunning]
      exact ⟨0, .inl rfl⟩

variable {deadline : Time} {shown : Readings} {turns : Nat} {stack : Stack} {t t' : InlineThread}
  {request : Option StopRequest} {blocks : List BlockId} {step : Step}

theorem request_of_mem_turnSteps (h : Rests w target lot stack t)
    (hmem : step ∈ t.turnSteps w deadline shown turns) :
    step.after.target = target ∧ ∀ request, step.request = some request ↔
      ∃ id b, step.block = some id ∧ w.resolve? target id = some b ∧ b.Asks target request := by
  rcases t.turnSteps_eq_or w deadline shown turns with hsteps | hsteps
  · rw [hsteps] at hmem
    cases hmem
  · rw [hsteps] at hmem
    exact request_of_mem_steps deadline shown turns h.wake hmem

/-- **No request is lost.** The one that leaves the turn is directed at a thread just when one of
those that came up is. -/
theorem isStopped_iff (h : Rests w target lot stack t)
    (hturn : t.takeTurn w deadline shown turns = .ok (blocks, request, t')) (u : Thread) :
    (∃ r, request = some r ∧ Schedule.isStopped r u = true) ↔
      ∃ step ∈ t.turnSteps w deadline shown turns, ∃ r, step.request = some r ∧
        Schedule.isStopped r u = true := by
  have hmem : (∃ step ∈ t.turnSteps w deadline shown turns, ∃ r, step.request = some r ∧
      Schedule.isStopped r u = true) ↔
      ∃ r ∈ (t.turnSteps w deadline shown turns).filterMap Step.request,
        Schedule.isStopped r u = true := by
    simp only [List.mem_filterMap]
    constructor
    · rintro ⟨step, hstep, r, hr, hstopped⟩
      exact ⟨r, ⟨step, hstep, hr⟩, hstopped⟩
    · rintro ⟨r, ⟨step, hstep, hr⟩, hstopped⟩
      exact ⟨step, hstep, r, hr, hstopped⟩
  rw [hmem, InlineThread.request_eq_of_takeTurn hturn]
  refine ⟨fun ⟨r, hr, hstopped⟩ ↦ ⟨r, List.mem_of_getLast? hr, hstopped⟩, ?_⟩
  rintro ⟨r, hr, hstopped⟩
  rcases t.turnSteps_eq_or w deadline shown turns with hsteps | hsteps
  · rw [hsteps] at hr
    cases hr
  · rw [hsteps] at hr ⊢
    obtain ⟨n, hn | ⟨hn, -⟩⟩ := requests_steps deadline shown turns h.wake
    · -- All requests are the same one.
      rw [hn] at hr ⊢
      obtain ⟨hpos, rfl⟩ := List.mem_replicate.1 hr
      exact ⟨_, by rw [List.getLast?_replicate, if_neg hpos], hstopped⟩
    · rw [hn]
      exact ⟨.all, List.getLast?_concat, rfl⟩

/-- A request that all end ends the thread that makes it. -/
theorem status_eq_done_of_all (h : Rests w target lot stack t)
    (hturn : t.takeTurn w deadline shown turns = .ok (blocks, request, t'))
    (hmem : step ∈ t.turnSteps w deadline shown turns) (hall : step.request = some .all) :
    t'.status = .done := by
  obtain ⟨hkilled, hprogram⟩ := InlineThread.interpreted_of_mem_turnSteps hmem
  rw [InlineThread.eq_afterSteps_of_takeTurn hkilled hprogram hturn]
  have hrequest : StopRequest.all ∈ (t.turnSteps w deadline shown turns).filterMap Step.request :=
    List.mem_filterMap.2 ⟨step, hmem, hall⟩
  rcases t.turnSteps_eq_or w deadline shown turns with hsteps | hsteps
  · rw [hsteps] at hrequest
    cases hrequest
  · rw [hsteps] at hrequest ⊢
    obtain ⟨n, hn | ⟨-, hdone⟩⟩ := requests_steps deadline shown turns h.wake
    · rw [hn] at hrequest
      cases (List.mem_replicate.1 hrequest).2
    · exact hdone

end Rests

end BlockScript
