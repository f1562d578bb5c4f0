import BlockScript.Proofs.Frame.Lending
import Mathlib.Order.MinMax

/-!
# How a pool recycles its cells

A pool is changed in three ways: a frame is taken, one is given back, one is written to
(`Pool.Change`). Its user keeps one rule, which is to give back and to write only frames that are in
use (`Pool.Admits`); nothing else is asked about the order of the changes or about what is written.

`Pool.recycles_of_admitted` follows a pool through any such sequence of changes, from the empty pool
on, and says of every pool on the way (`Pool.Recycles`) that

* a frame that is taken next is one that nobody has, as good as new, and takes nothing from anybody;
* a frame that is given back next is the only one that changes;
* there are exactly as many cells as frames were ever in use at one time.

The last of these is about the whole past and not about one pool, and it is why the induction is on
the sequence. Its step is `Lends.exists_apply`: a change leaves as many cells as there were, or as
there are frames in use afterwards, whichever is more. A cell is added just when no free one is
left, and then all cells are in use.
-/

namespace BlockScript

namespace Pool

/-! ### Sequences of changes -/

/-- What changes a pool. -/
inductive Change where
  /-- A frame with the given mode is taken. -/
  | create (warpMode : Bool)
  /-- A frame is given back. -/
  | release (id : FrameId)
  /-- A frame is written to. -/
  | modify (id : FrameId) (change : Frame → Frame)

/-- The pool after a change. -/
def apply (p : Pool) : Change → Except Halt Pool
  | .create warpMode => (p.create warpMode).map Prod.snd
  | .release id => p.release id
  | .modify id change => p.modify id change

/-- **The rule for users.** What is given back or written to is in use. -/
def Admits (p : Pool) : Change → Prop
  | .create _ => True
  | .release id => p.isInUse id = true
  | .modify id _ => p.isInUse id = true

/-- A sequence of changes each of which keeps the rule when its turn comes. -/
def Admitted (p : Pool) : List Change → Prop
  | [] => True
  | change :: changes => p.Admits change ∧ ∀ p', p.apply change = .ok p' → p'.Admitted changes

instance (p : Pool) : (change : Change) → Decidable (p.Admits change)
  | .create _ => .isTrue trivial
  | .release id => inferInstanceAs (Decidable (p.isInUse id = true))
  | .modify id _ => inferInstanceAs (Decidable (p.isInUse id = true))

/-- Whether a sequence keeps the rule can be found out by making its changes. -/
instance decidableAdmitted : (changes : List Change) → (p : Pool) → Decidable (p.Admitted changes)
  | [], _ => .isTrue trivial
  | change :: changes, p =>
    match h : p.apply change with
    | .ok p' =>
      have := decidableAdmitted changes p'
      decidable_of_iff (p.Admits change ∧ p'.Admitted changes) (by simp [Admitted, h])
    | .error _ => decidable_of_iff (p.Admits change) (by simp [Admitted, h])

/-- All pools that a sequence of changes leads through, from the first one to the last. -/
def trail (p : Pool) : List Change → Except Halt (List Pool)
  | [] => .ok [p]
  | change :: changes => do
    let p' ← p.apply change
    let later ← p'.trail changes
    return p :: later

/-- The number of cells that are flagged as in use. -/
def flagCount (p : Pool) : Nat :=
  (List.range p.capacity).countP fun k ↦ p.isInUse ⟨k⟩

/-- The largest number of frames that were in use at one time. -/
def peak (past : List Pool) : Nat :=
  (past.map flagCount).foldr max 0

/-- **Recycling.** What holds of a pool that has a past of pools, itself the last of them. -/
structure Recycles (past : List Pool) (p : Pool) : Prop where
  /-- Every cell was needed: all of them were once in use at one time. -/
  capacity_eq : p.capacity = peak past
  /-- The count of frames in use is that of the flags. -/
  inUseCount_eq : p.inUseCount = p.flagCount
  /-- A frame that is taken was not in use, and is as good as new. Those in use stay so, and as they
  are. A cell is added just when none is free. -/
  takes : ∀ warpMode, ∃ id p', p.create warpMode = .ok (id, p') ∧ p.isInUse id = false ∧
    p'.isInUse id = true ∧ p'.get id = .ok (Frame.ofMode warpMode) ∧
    (∀ other, p.isInUse other = true → p'.cell other = p.cell other) ∧
    p'.capacity = if p.freeCount = 0 then p.capacity + 1 else p.capacity
  /-- A frame in use can be given back, which changes no other cell. -/
  gives : ∀ id, p.isInUse id = true → ∃ p', p.release id = .ok p' ∧ p'.isInUse id = false ∧
    p'.capacity = p.capacity ∧ ∀ other, other ≠ id → p'.cell other = p.cell other

/-! ### What each change does to the cells -/

section Cells

variable {p p' : Pool} {id : FrameId}

@[simp]
theorem capacity_setCell (p : Pool) (id : FrameId) (c : Cell) :
    (p.setCell id c).capacity = p.capacity := by
  simp [capacity, setCell]

theorem exists_cell_of_release (h : p.release id = .ok p') :
    ∃ c, p.cell id = .ok c ∧
      p' = { p.setCell id ⟨Frame.blank, false⟩ with free := id :: p.free } := by
  rw [release] at h
  rcases hcell : p.cell id with cause | c
  · rw [hcell] at h
    cases h
  · rw [hcell] at h
    dsimp only [bind, Except.bind] at h
    split at h
    · exact ⟨c, rfl, (Except.ok.inj h).symm⟩
    · cases h

theorem capacity_of_release (h : p.release id = .ok p') : p'.capacity = p.capacity := by
  obtain ⟨c, -, rfl⟩ := exists_cell_of_release h
  exact capacity_setCell p id _

theorem isInUse_of_release (h : p.release id = .ok p') : p'.isInUse id = false := by
  obtain ⟨c, hc, rfl⟩ := exists_cell_of_release h
  have hlt : id.cell < p.cells.size := cell_eq_ok_iff.1 ⟨c, hc⟩
  simp [isInUse, setCell, hlt]

theorem cell_of_release {other : FrameId} (h : p.release id = .ok p') (hne : other ≠ id) :
    p'.cell other = p.cell other := by
  obtain ⟨c, -, rfl⟩ := exists_cell_of_release h
  exact cell_setCell_of_ne _ hne

theorem capacity_of_modify {change : Frame → Frame} (h : p.modify id change = .ok p') :
    p'.capacity = p.capacity := by
  rw [modify] at h
  rcases hcell : p.cell id with cause | c
  · rw [hcell] at h
    cases h
  · rw [hcell] at h
    obtain rfl := Except.ok.inj h
    exact capacity_setCell p id _

theorem capacity_of_create {warpMode : Bool} (h : p.create warpMode = .ok (id, p')) :
    p'.capacity = if p.freeCount = 0 then p.capacity + 1 else p.capacity := by
  rw [create] at h
  split at h
  · obtain ⟨-, rfl⟩ := Prod.mk.inj (Except.ok.inj h)
    simp [capacity, freeCount, *]
  · next first rest hfree =>
    rcases hcell : p.cell first with cause | c
    · rw [hcell] at h
      cases h
    · rw [hcell] at h
      obtain ⟨-, rfl⟩ := Prod.mk.inj (Except.ok.inj h)
      rw [freeCount, hfree]
      exact capacity_setCell p first _

end Cells

namespace Lends

variable {p : Pool} {held : List FrameId}

/-! ### Frames in use -/

theorem isInUse_iff (h : p.Lends held) {id : FrameId} : p.isInUse id = true ↔ id ∈ held :=
  ⟨fun huse ↦ h.mem_held_iff.2 (exists_of_isInUse huse),
    fun hmem ↦ isInUse_of_cell? (h.cell?_of_mem hmem)⟩

/-- **The flags are counted right**: the free and the held positions together are all positions, and
the held ones are those that are flagged. -/
theorem flagCount_eq (h : p.Lends held) : p.flagCount = held.length := by
  have hfree : p.free.countP (fun id ↦ p.isInUse ⟨id.cell⟩) = 0 :=
    List.countP_eq_zero.2 fun id hmem huse ↦
      h.notMem_of_mem_free hmem (h.isInUse_iff.1 huse)
  have hheld : held.countP (fun id ↦ p.isInUse ⟨id.cell⟩) = held.length :=
    List.countP_eq_length.2 fun id hmem ↦ h.isInUse_iff.2 hmem
  rw [flagCount, capacity, ← h.perm_range.countP_eq, List.countP_map, List.countP_append]
  exact (congrArg₂ (· + ·) hfree hheld).trans (Nat.zero_add _)

theorem flagCount_le (h : p.Lends held) : p.flagCount ≤ p.capacity := by
  have hsum := h.freeCount_add_length
  rw [h.flagCount_eq]
  omega

/-- **A cell is added just when none is free.** A change that the rule admits can be made, and
leaves as many cells as there were, or as there are frames in use afterwards, whichever is more. -/
theorem exists_apply (h : p.Lends held) {change : Change} (hadmits : p.Admits change) :
    ∃ p' held', p.apply change = .ok p' ∧ p'.Lends held' ∧
      p'.capacity = max p.capacity p'.flagCount := by
  have hsum := h.freeCount_add_length
  cases change with
  | create warpMode =>
    obtain ⟨id, p', hcreate, hlends, -, -⟩ := h.create warpMode
    refine ⟨p', _, by rw [apply, hcreate]; rfl, hlends, ?_⟩
    rw [hlends.flagCount_eq, capacity_of_create hcreate, List.length_cons]
    split <;> omega
  | release id =>
    have hmem : id ∈ held := h.isInUse_iff.1 hadmits
    obtain ⟨p', hrelease, hlends, -⟩ := (h.perm (List.perm_cons_erase hmem)).release
    refine ⟨p', _, hrelease, hlends, ?_⟩
    have hle := hlends.flagCount_le
    rw [capacity_of_release hrelease] at hle ⊢
    exact (max_eq_left hle).symm
  | modify id change =>
    obtain ⟨p', hmodify, hlends, -, -⟩ := h.modify (h.isInUse_iff.1 hadmits) change
    refine ⟨p', _, hmodify, hlends, ?_⟩
    have hle := hlends.flagCount_le
    rw [capacity_of_modify hmodify] at hle ⊢
    exact (max_eq_left hle).symm

/-! ### Recycling -/

/-- What the pool has lent out decides everything that recycling asks of the next change. -/
theorem recycles {past : List Pool} (h : p.Lends held) (hcapacity : p.capacity = peak past) :
    Recycles past p where
  capacity_eq := hcapacity
  inUseCount_eq := h.inUseCount_eq.trans h.flagCount_eq.symm
  takes := by
    intro warpMode
    obtain ⟨id, p', hcreate, hlends, hnew, hkept⟩ := h.create warpMode
    have hnotMem : id ∉ held := (List.nodup_cons.1 hlends.held_nodup).1
    refine ⟨id, p', hcreate, ?_, hlends.isInUse_iff.2 List.mem_cons_self, ?_, ?_,
      capacity_of_create hcreate⟩
    · exact Bool.eq_false_iff.2 fun huse ↦ hnotMem (h.isInUse_iff.1 huse)
    · rw [hlends.get_of_mem List.mem_cons_self, hnew]
    · intro other huse
      have hmem := h.isInUse_iff.1 huse
      have hcell := hlends.cell?_of_mem (List.mem_cons_of_mem id hmem)
      rw [hkept other hmem] at hcell
      rw [cell_eq_ok_of_cell? hcell, cell_eq_ok_of_cell? (h.cell?_of_mem hmem)]
  gives := by
    intro id huse
    have hmem := h.isInUse_iff.1 huse
    obtain ⟨p', hrelease, -, -⟩ := (h.perm (List.perm_cons_erase hmem)).release
    exact ⟨p', hrelease, isInUse_of_release hrelease, capacity_of_release hrelease,
      fun other hne ↦ cell_of_release hrelease hne⟩

/-- **A whole sequence of changes**, by induction from one of them. The pool that it starts with may
have more cells than frames were in use since, and that is what the maximum allows for. -/
theorem exists_trail (changes : List Change) : ∀ {p : Pool} {held : List FrameId}, p.Lends held →
    p.Admitted changes → ∃ later, p.trail changes = .ok (p :: later) ∧
      later.length = changes.length ∧ ∀ i q, (p :: later)[i]? = some q →
        (∃ held', q.Lends held') ∧
          q.capacity = max p.capacity (peak ((p :: later).take (i + 1))) := by
  induction changes with
  | nil =>
    intro p held h _
    refine ⟨[], rfl, rfl, fun i q hq ↦ ?_⟩
    have hpeak : peak ([p].take (i + 1)) = p.flagCount := by simp [peak]
    obtain rfl : p = q := by
      cases i with
      | zero => exact Option.some.inj hq
      | succ i => cases hq
    rw [hpeak]
    exact ⟨⟨held, h⟩, (max_eq_left h.flagCount_le).symm⟩
  | cons change changes ih =>
    intro p held h hadmitted
    obtain ⟨p', held', happly, hlends, hcapacity⟩ := h.exists_apply hadmitted.1
    obtain ⟨later, htrail, hlength, hlater⟩ := ih hlends (hadmitted.2 p' happly)
    refine ⟨p' :: later, ?_, congrArg (· + 1) hlength, fun i q hq ↦ ?_⟩
    · rw [trail, happly]
      show (do let later ← p'.trail changes; return p :: later) = _
      rw [htrail]
      rfl
    · cases i with
      | zero =>
        obtain rfl := Option.some.inj hq
        have hpeak : peak ((p :: p' :: later).take 1) = p.flagCount := by simp [peak]
        rw [hpeak]
        exact ⟨⟨held, h⟩, (max_eq_left h.flagCount_le).symm⟩
      | succ i =>
        obtain ⟨hlends', hq'⟩ := hlater i q hq
        refine ⟨hlends', ?_⟩
        -- The first pool had no more frames in use than cells, and the second one counts later.
        have hpast : peak ((p :: p' :: later).take (i + 1 + 1)) =
            max p.flagCount (peak ((p' :: later).take (i + 1))) := rfl
        have hsecond : p'.flagCount ≤ peak ((p' :: later).take (i + 1)) := le_max_left _ _
        have hfirst := h.flagCount_le
        rw [hq', hpast, hcapacity]
        omega

end Lends

/-- **A pool recycles its cells.** Take any sequence of changes to an empty pool, with writes of any
kind, in which only frames in use are given back or written to. All of the changes can be made, and
every pool on the way recycles: what is taken from it is new to its taker, what is given back
concerns nobody else, and it has as many cells as frames were in use at one time so far. -/
theorem recycles_of_admitted {changes : List Change} (h : empty.Admitted changes) :
    ∃ ps, empty.trail changes = .ok ps ∧ ps.length = changes.length + 1 ∧
      ∀ i p, ps[i]? = some p → Recycles (ps.take (i + 1)) p := by
  obtain ⟨later, htrail, hlength, hpools⟩ := lends_empty.exists_trail changes h
  refine ⟨_, htrail, congrArg (· + 1) hlength, fun i p hp ↦ ?_⟩
  obtain ⟨⟨held, hlends⟩, hcapacity⟩ := hpools i p hp
  exact hlends.recycles (hcapacity.trans (Nat.zero_max _))

/-- Two frames are taken. The first is written to all over, given back and taken again. -/
def wearing : List Change :=
  [.create true, .create false,
    .modify ⟨0⟩ fun f ↦ { f with isLoop := true, params := some Table.empty },
    .release ⟨0⟩, .create false, .release ⟨1⟩]

/-- The frame that was worn is as good as new when it is taken again, and two cells are enough. -/
theorem recycles_of_admitted_wearing :
    empty.Admitted wearing ∧ ∃ ps p, empty.trail wearing = .ok ps ∧ ps[5]? = some p ∧
      Recycles (ps.take 6) p ∧ p.get ⟨0⟩ = .ok (Frame.ofMode false) ∧ p.inUseCount = 2 ∧
      p.capacity = 2 := by
  have hadmitted : empty.Admitted wearing := by decide
  obtain ⟨ps, htrail, hlength, hpools⟩ := recycles_of_admitted hadmitted
  have hfacts : (empty.trail wearing).map (fun ps ↦ (ps[5]?).map fun p ↦
      decide (p.get ⟨0⟩ = .ok (Frame.ofMode false) ∧ p.inUseCount = 2 ∧ p.capacity = 2)) =
      .ok (some true) := by
    decide
  rw [htrail] at hfacts
  obtain ⟨p, hp, hfacts⟩ := Option.map_eq_some_iff.1 (Except.ok.inj hfacts)
  exact ⟨hadmitted, ps, p, htrail, hp, hpools 5 p hp, of_decide_eq_true hfacts⟩

end Pool

end BlockScript
