import BlockScript.Proofs.Activity.Turns
import BlockScript.Schedule
import Mathlib.Data.List.Perm.Basic

/-!
# Threads that share a pool

`Schedule.Mirrored w s ts` is `Mirrors` for all threads of a schedule at once: the pool has lent out
exactly the frames of all levels of all threads, and the threads look like the inline threads `ts`,
position by position.

A schedule changes by one thread's work at a time. `Mirrored.activity` takes the thread at a
position out of the schedule, with the frames of all others as what it must spare, and
`Mirrored.set` puts it back after its work: since the others were spared they look as before. These
two are all that later modules use of the sharing.
-/

namespace BlockScript

namespace Schedule

/-- The positions of the frames of all threads. -/
def held (s : Schedule) : List FrameId :=
  s.threads.flatMap Thread.frames

/-- The positions of the frames of all threads but one. -/
def heldBut (s : Schedule) (position : Nat) : List FrameId :=
  (s.threads.eraseIdx position).flatMap Thread.frames

theorem perm_held_set {s : Schedule} {position : Nat} (h : position < s.threads.length)
    (e : Engine) (t : Thread) :
    (held ⟨e, s.threads.set position t⟩).Perm (t.frames ++ s.heldBut position) :=
  (List.set_perm_cons_eraseIdx h t).flatMap_right _

theorem perm_held {s : Schedule} {position : Nat} {t : Thread}
    (h : s.threads[position]? = some t) : s.held.Perm (t.frames ++ s.heldBut position) := by
  obtain ⟨hlt, rfl⟩ := List.getElem?_eq_some_iff.1 h
  exact (List.getElem_cons_eraseIdx_perm hlt).symm.flatMap_right _

/-- The frames of a thread at another position are among those of all threads but one. -/
theorem mem_heldBut {s : Schedule} {position other : Nat} {t : Thread} (hne : other ≠ position)
    (h : s.threads[other]? = some t) {id : FrameId} (hmem : id ∈ t.frames) :
    id ∈ s.heldBut position := by
  refine List.mem_flatMap.2 ⟨t, List.mem_eraseIdx_iff_getElem?.2 ⟨other, hne, h⟩, hmem⟩

/-- The threads look like the inline threads, and the pool has lent out exactly their frames. -/
structure Mirrored (w : World) (s : Schedule) (ts : List InlineThread) : Prop where
  /-- The settings and the targets. -/
  world : s.engine.world = w
  /-- The pool has lent out the frames of all threads. -/
  lends : s.engine.pool.Lends s.held
  /-- What each thread looks like. -/
  inline : s.threads.map (Thread.inline s.engine.pool) = ts

namespace Mirrored

variable {w : World} {s : Schedule} {ts : List InlineThread} {position : Nat} {t : Thread}

theorem getElem? (h : Mirrored w s ts) (position : Nat) :
    ts[position]? = (s.threads[position]?).map (Thread.inline s.engine.pool) := by
  rw [← h.inline, List.getElem?_map]

theorem length_eq (h : Mirrored w s ts) : ts.length = s.threads.length := by
  rw [← h.inline, List.length_map]

/-- **Taking a thread out.** The thread at a position works beside the frames of the others. -/
theorem activity (h : Mirrored w s ts) (ht : s.threads[position]? = some t) :
    Mirrors s.engine (s.heldBut position) ⟨s.engine, t⟩ (t.inline s.engine.pool) where
  world := rfl
  chronicle := rfl
  lends := h.lends.perm (perm_held ht)
  kept := fun _ _ ↦ rfl
  inline := rfl

/-- **Putting it back.** What spares the frames of the others changes nothing that they look
like. -/
theorem set {a : Activity} {t' : InlineThread} {blocks : List BlockId} (h : Mirrored w s ts)
    (hlt : position < s.threads.length) (ha : Reports s.engine (s.heldBut position) blocks a t') :
    Mirrored w ⟨a.engine, s.threads.set position a.thread⟩ (ts.set position t') where
  world := ha.world.trans h.world
  lends := ha.lends.perm (perm_held_set hlt a.engine a.thread).symm
  inline := by
    rw [← h.inline, ← ha.inline, List.map_set]
    refine List.ext_getElem? fun other ↦ ?_
    by_cases hother : other = position
    · subst hother
      simp only [List.getElem?_set, List.length_map, if_true, hlt, Activity.inline]
    · simp only [List.getElem?_set, Ne.symm hother, if_false, List.getElem?_map]
      rcases hthread : s.threads[other]? with - | t
      · rfl
      · have hcongr : t.inline a.engine.pool = t.inline s.engine.pool :=
          Thread.inline_congr fun id hmem ↦ ha.kept id (mem_heldBut hother hthread hmem)
        simp only [Option.map_some, hcongr]

end Mirrored

end Schedule

end BlockScript
