import BlockScript.Proofs.Schedule.Interleaving
import BlockScript.Proofs.Schedule.PathRuns

/-!
# No frame is left behind

At the end of a frame threads leave the list by their status, and nobody looks whether they still
hold frames of the pool. Nothing is lost because being done and having no levels are the same thing
after every turn, whether the thread was interpreted, compiled or unwound, however its stack got
empty and wherever the clock cut its slices (`Schedule.inUseCount_of_drive`).
-/

namespace BlockScript

/-- A thread on track is done just when it has no levels. -/
theorem OnTrack.status_eq_done_iff {w : World} {hat : BlockId × TargetId} {t : InlineThread}
    (h : OnTrack w hat t) : t.status = .done ↔ t.levels = [] := by
  obtain ⟨lot, stack, hrests, -⟩ := h.path
  rw [hrests.status_eq_done_iff, ← hrests.blocks_eq, List.map_eq_nil_iff]

namespace Schedule

/-- After a turn at any moment of a run, the thread is done just when it has no levels, and then its
script is not highlighted. -/
theorem Reached.settled {e : Engine} {scripts : List (BlockId × TargetId)} {s : Schedule}
    {position : Nat} {a a' : Activity} (h : Reached e scripts s) (hpool : e.pool = Pool.empty)
    (hengine : s.engine = a.engine) (ht : s.threads[position]? = some a.thread)
    (hworks : a.Works a') :
    (a'.thread.status = .done ↔ a'.thread.levels = []) ∧
      (a'.thread.status = .done → a'.thread.scriptGlow = false) := by
  have hworks' : Activity.Works ⟨s.engine, a.thread⟩ a' := by
    rw [hengine]
    exact hworks
  obtain ⟨settings, hs⟩ := (h.work ht hworks').upholds lasting_onTrack hpool
  have hlt := (List.getElem?_eq_some_iff.1 ht).1
  obtain ⟨hat, -, htrack⟩ := hs.exists_script (List.getElem?_set_self hlt)
  refine ⟨htrack.status_eq_done_iff.trans ?_, htrack.dimmed⟩
  exact List.map_eq_nil_iff

/-- **No frame is left behind.** Let the scripts of a project be started and driven through any
number of frames, whatever the clock shows in the course of each of them, and with any threads
killed before. Then the pool has lent out as many frames as the threads that are left have levels,
and so none if there is no thread left. In the frame that comes next, after every turn that returns,
the thread is done just when it has no levels, and then its script is not highlighted any more. -/
theorem inUseCount_of_drive {settings : Settings} {project : Project} {s₀ s : Schedule}
    {ticks : List Tick} (hstart : start (Engine.ofProject settings project) = .ok s₀)
    (hdrive : s₀.drive ticks = .ok s) :
    s.engine.pool.inUseCount = s.levelCount ∧
      (s.threads = [] → s.engine.pool.inUseCount = 0) ∧
      ∀ (tick : Tick) (position : Nat) {a a' : Activity} {request : Option StopRequest},
        (s.prepare tick).atTurn tick.clock tick.turns position = some a →
        (s.prepare tick).turnIn tick.clock tick.turns position a = .ok (request, a') →
        (a'.thread.status = .done ↔ a'.thread.levels = []) ∧
          (a'.thread.status = .done → a'.thread.scriptGlow = false) := by
  have hpool := Engine.pool_ofProject settings project
  obtain ⟨scripts, hreached⟩ := (Reached.start hstart).drive ticks hdrive
  obtain ⟨settings', hs⟩ := hreached.upholds lasting_onTrack hpool
  have hcount := (owned_of_lends hs.lends).inUseCount_eq
  refine ⟨hcount, fun hnone ↦ ?_, ?_⟩
  · rw [hcount, levelCount, hnone]
    rfl
  · intro tick position a a' request hturn hstep
    obtain ⟨mid, hup, hengine, ht⟩ := exists_of_atTurn hturn
    exact ((hreached.prepare tick).upTo position hup).settled hpool hengine ht (.takeTurn hstep)

/-- A frame in which time is up after three steps. -/
def threeSteps (kills : List Nat) : Tick :=
  ⟨.steady 0 1, 9, 2, 0, kills⟩

/-- The turn of the thread is cut short inside the procedure, where it has three levels and three
frames of the pool are lent out. Killed at its next turn it is done and has none. -/
theorem inUseCount_winding :
    ∃ s₀ s a a', start (Engine.ofProject ⟨30, 0, 0, false⟩ winding) = .ok s₀ ∧
      s₀.drive [threeSteps []] = .ok s ∧ s.engine.pool.inUseCount = 3 ∧ s.levelCount = 3 ∧
      (s.prepare (threeSteps [0])).atTurn (.steady 0 1) 9 0 = some a ∧
      (s.prepare (threeSteps [0])).turnIn (.steady 0 1) 9 0 a = .ok (none, a') ∧
      a'.thread.status = .done ∧ a'.thread.levels = [] ∧ a'.thread.scriptGlow = false := by
  have hrun : (start (Engine.ofProject ⟨30, 0, 0, false⟩ winding) >>= drive [threeSteps []]).map
      (fun s ↦ (s.engine.pool.inUseCount,
        ((s.prepare (threeSteps [0])).atTurn (.steady 0 1) 9 0).bind fun a ↦
          ((s.prepare (threeSteps [0])).turnIn (.steady 0 1) 9 0 a).toOption.map fun result ↦
            (result.1, result.2.thread.status))) =
      .ok (3, some (none, .done)) := by
    decide +kernel
  obtain ⟨s, hrun, hfacts⟩ := exists_of_map_eq_ok hrun
  obtain ⟨s₀, hstart, hdrive⟩ := exists_of_bind_eq_ok hrun
  obtain ⟨hcount, hturn⟩ := Prod.mk.inj hfacts
  obtain ⟨a, hatTurn, hstep⟩ := Option.bind_eq_some_iff.1 hturn
  obtain ⟨⟨request, a'⟩, hsome, hresult⟩ := Option.map_eq_some_iff.1 hstep
  have hok : (s.prepare (threeSteps [0])).turnIn (.steady 0 1) 9 0 a = .ok (request, a') := by
    rcases hturned : (s.prepare (threeSteps [0])).turnIn (.steady 0 1) 9 0 a with cause | result
    · rw [hturned] at hsome
      cases hsome
    · rw [hturned] at hsome
      rw [Option.some.inj hsome]
  obtain ⟨rfl, hdone⟩ := Prod.mk.inj hresult
  obtain ⟨hlevels, -, hsettled⟩ := inUseCount_of_drive hstart hdrive
  obtain ⟨hiff, hglow⟩ := hsettled (threeSteps [0]) 0 hatTurn hok
  exact ⟨s₀, s, a, a', hstart, hdrive, hcount, hlevels.symm.trans hcount, hatTurn, hok, hdone,
    hiff.1 hdone, hglow hdone⟩

end Schedule

end BlockScript
