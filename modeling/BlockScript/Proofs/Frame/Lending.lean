import BlockScript.Frame.Pool
import Mathlib.Data.List.Nodup

/-!
# What a pool has lent out

`Pool.Lends p held` says that the frames at the positions `held` are exactly those that the pool `p`
has lent out: every cell is either **free** (listed once in `free`, unflagged and blank) or **held**
(listed once in `held`, and flagged). The list `held` is the ghost of whoever took the frames; the
pool itself only has the flags.

Three operations change a pool, and each has one lemma: `Lends.create` adds a position to `held`,
`Lends.release` takes one away, `Lends.modify` leaves the list alone. Each of them also says what
happens to the frames, which is nothing except at the one position concerned. Under `Lends` none of
the three can fail.

`held` may be rearranged at will (`Lends.perm`), so a thread that wants to use these lemmas brings
its own frame to the front and leaves everybody else's behind it.
-/

namespace BlockScript

namespace Pool

/-- The cell at a position, if the pool has one. -/
def cell? (p : Pool) (id : FrameId) : Option Cell :=
  p.cells[id.cell]?

/-- The frame at a position, blank where the pool has no cell. -/
def frameAt (p : Pool) (id : FrameId) : Frame :=
  (p.cell? id).elim Frame.blank Cell.frame

theorem cell_eq_ok_of_cell? {p : Pool} {id : FrameId} {c : Cell} (h : p.cell? id = some c) :
    p.cell id = .ok c := by
  rw [cell?] at h
  rw [cell, h]

theorem frameAt_of_cell? {p : Pool} {id : FrameId} {c : Cell} (h : p.cell? id = some c) :
    p.frameAt id = c.frame := by
  rw [frameAt, h]
  rfl

theorem frameAt_of_get {p : Pool} {id : FrameId} {f : Frame} (h : p.get id = .ok f) :
    p.frameAt id = f := by
  rw [get, cell] at h
  rw [frameAt, cell?]
  cases hcell : p.cells[id.cell]? with
  | none =>
    rw [hcell] at h
    cases h
  | some c =>
    rw [hcell] at h
    exact Except.ok.inj h

/-- Whether a frame is in use is written in its cell. -/
theorem isInUse_of_cell? {p : Pool} {id : FrameId} {c : Cell} (h : p.cell? id = some c) :
    p.isInUse id = c.inUse := by
  rw [cell?] at h
  rw [isInUse, h]
  rfl

/-- A frame in use has a cell. -/
theorem exists_of_isInUse {p : Pool} {id : FrameId} (h : p.isInUse id = true) :
    ∃ f, p.cell? id = some ⟨f, true⟩ := by
  rcases hcell : p.cell? id with - | ⟨f, flag⟩
  · rw [cell?] at hcell
    rw [isInUse, hcell] at h
    cases h
  · obtain rfl : flag = true := (isInUse_of_cell? hcell).symm.trans h
    exact ⟨f, rfl⟩

theorem exists_cell? {p : Pool} {id : FrameId} (h : id.cell < p.cells.size) :
    ∃ c, p.cell? id = some c :=
  ⟨p.cells[id.cell], by simp [cell?, h]⟩

theorem cell?_eq_none {p : Pool} {id : FrameId} (h : p.cells.size ≤ id.cell) :
    p.cell? id = none := by
  simp [cell?, h]

theorem lt_size_of_cell? {p : Pool} {id : FrameId} {c : Cell} (h : p.cell? id = some c) :
    id.cell < p.cells.size :=
  (Array.getElem?_eq_some_iff.1 h).1

theorem cell?_setCell_self {p : Pool} {id : FrameId} {old : Cell} (new : Cell)
    (h : p.cell? id = some old) : (p.setCell id new).cell? id = some new := by
  simp [cell?, setCell, lt_size_of_cell? h]

/-- Writing one cell leaves the others alone. -/
theorem cell?_setCell_of_ne {p : Pool} {id other : FrameId} (new : Cell) (h : other ≠ id) :
    (p.setCell id new).cell? other = p.cell? other := by
  have hcell : id.cell ≠ other.cell := by
    rintro heq
    exact h (by cases id; cases other; simp_all)
  simp [cell?, setCell, hcell]

/-- **Lending.** The positions in `held` are exactly those that the pool has lent out, and every
other cell is free and blank. -/
structure Lends (p : Pool) (held : List FrameId) : Prop where
  /-- No position is listed twice as free. -/
  free_nodup : p.free.Nodup
  /-- No position is held twice. -/
  held_nodup : held.Nodup
  /-- The free positions are those of the cells that are not flagged. -/
  mem_free_iff : ∀ {id}, id ∈ p.free ↔ ∃ f, p.cell? id = some ⟨f, false⟩
  /-- The held positions are those of the cells that are flagged. -/
  mem_held_iff : ∀ {id}, id ∈ held ↔ ∃ f, p.cell? id = some ⟨f, true⟩
  /-- A cell that is not flagged is blank. -/
  blank_of_unused : ∀ {id f}, p.cell? id = some ⟨f, false⟩ → f = Frame.blank

/-- **An empty pool** has lent out nothing. -/
theorem lends_empty : Pool.empty.Lends [] where
  free_nodup := List.nodup_nil
  held_nodup := List.nodup_nil
  mem_free_iff := by simp [empty, cell?]
  mem_held_iff := by simp [empty, cell?]
  blank_of_unused := by simp [empty, cell?]

namespace Lends

variable {p : Pool} {held : List FrameId}

/-- It does not matter in what order the frames are held. -/
theorem perm {held' : List FrameId} (h : p.Lends held) (hperm : held.Perm held') :
    p.Lends held' where
  free_nodup := h.free_nodup
  held_nodup := hperm.nodup_iff.1 h.held_nodup
  mem_free_iff := h.mem_free_iff
  mem_held_iff := by
    intro id
    rw [← hperm.mem_iff]
    exact h.mem_held_iff
  blank_of_unused := h.blank_of_unused

/-! ### Reading -/

/-- A frame that is held is in use. -/
theorem cell?_of_mem {id : FrameId} (h : p.Lends held) (hmem : id ∈ held) :
    p.cell? id = some ⟨p.frameAt id, true⟩ := by
  obtain ⟨f, hf⟩ := h.mem_held_iff.1 hmem
  rw [hf, frameAt_of_cell? hf]

/-- A free frame is blank. -/
theorem cell?_of_mem_free {id : FrameId} (h : p.Lends held) (hmem : id ∈ p.free) :
    p.cell? id = some ⟨Frame.blank, false⟩ := by
  obtain ⟨f, hf⟩ := h.mem_free_iff.1 hmem
  rw [hf, h.blank_of_unused hf]

/-- **No held position is out of bounds.** -/
theorem get_of_mem {id : FrameId} (h : p.Lends held) (hmem : id ∈ held) :
    p.get id = .ok (p.frameAt id) := by
  rw [get, cell_eq_ok_of_cell? (h.cell?_of_mem hmem)]
  rfl

/-- Nobody holds a free frame. -/
theorem notMem_of_mem_free {id : FrameId} (h : p.Lends held) (hmem : id ∈ p.free) : id ∉ held := by
  intro hheld
  have hfree := h.cell?_of_mem_free hmem
  rw [h.cell?_of_mem hheld] at hfree
  simp at hfree

/-! ### The three operations -/

/-- **One cell at a time.** A pool that differs from `p` at the position `id` alone lends what `p`
lends, up to what it says about `id` itself. -/
private theorem update {p' : Pool} {held' : List FrameId} {id : FrameId} (h : p.Lends held)
    (hcell : ∀ other, other ≠ id → p'.cell? other = p.cell? other)
    (hfree : p'.free.Nodup) (hmemFree : ∀ other, other ≠ id → (other ∈ p'.free ↔ other ∈ p.free))
    (hheld : held'.Nodup) (hmemHeld : ∀ other, other ≠ id → (other ∈ held' ↔ other ∈ held))
    (hself : (id ∈ p'.free ∧ id ∉ held' ∧ p'.cell? id = some ⟨Frame.blank, false⟩) ∨
      (id ∉ p'.free ∧ id ∈ held' ∧ ∃ f, p'.cell? id = some ⟨f, true⟩)) :
    p'.Lends held' := by
  refine ⟨hfree, hheld, ?_, ?_, ?_⟩
  · intro other
    by_cases hother : other = id
    · subst hother
      rcases hself with ⟨hmem, -, hc⟩ | ⟨hmem, -, f, hc⟩ <;> simp [hmem, hc]
    · rw [hcell other hother, hmemFree other hother]
      exact h.mem_free_iff
  · intro other
    by_cases hother : other = id
    · subst hother
      rcases hself with ⟨-, hmem, hc⟩ | ⟨-, hmem, f, hc⟩ <;> simp [hmem, hc]
    · rw [hcell other hother, hmemHeld other hother]
      exact h.mem_held_iff
  · intro other f hf
    by_cases hother : other = id
    · subst hother
      rcases hself with ⟨-, -, hc⟩ | ⟨-, -, g, hc⟩
      · rw [hc] at hf
        simpa using hf.symm
      · rw [hc] at hf
        simp at hf
    · rw [hcell other hother] at hf
      exact h.blank_of_unused hf

/-- **Taking a frame.** The position is one that nobody held, the frame there is as good as new, and
no frame that is held changes. -/
theorem create (h : p.Lends held) (warpMode : Bool) :
    ∃ id p', p.create warpMode = .ok (id, p') ∧ p'.Lends (id :: held) ∧
      p'.frameAt id = Frame.ofMode warpMode ∧
      ∀ other ∈ held, p'.frameAt other = p.frameAt other := by
  cases hfree : p.free with
  | nil =>
    -- The new position lies behind all others, so it is neither free nor held.
    set p' : Pool := { p with cells := p.cells.push ⟨Frame.ofMode warpMode, true⟩ } with hp'
    have hself : p'.cell? ⟨p.cells.size⟩ = some ⟨Frame.ofMode warpMode, true⟩ := by
      simp [cell?, hp']
    have hother : ∀ other : FrameId, other ≠ ⟨p.cells.size⟩ → p'.cell? other = p.cell? other := by
      intro other hne
      have hcell : other.cell ≠ p.cells.size := fun heq ↦ hne (by cases other; simp_all)
      simp [cell?, hp', Array.getElem?_push, hcell]
    have hnew : (⟨p.cells.size⟩ : FrameId) ∉ held := by
      intro hmem
      have hnone : p.cell? ⟨p.cells.size⟩ = none := cell?_eq_none (Nat.le_refl _)
      rw [h.cell?_of_mem hmem] at hnone
      exact Option.some_ne_none _ hnone
    refine ⟨⟨p.cells.size⟩, p', ?_, ?_, frameAt_of_cell? hself, ?_⟩
    · simp [Pool.create, hfree, hp']
    · refine h.update hother h.free_nodup (fun _ _ ↦ Iff.rfl)
        (List.nodup_cons.2 ⟨hnew, h.held_nodup⟩) (fun other hne ↦ by simp [hne])
        (Or.inr ⟨?_, List.mem_cons_self, _, hself⟩)
      show (⟨p.cells.size⟩ : FrameId) ∉ p.free
      simp [hfree]
    · intro other hmem
      rw [frameAt, frameAt, hother other fun heq ↦ hnew (heq ▸ hmem)]
  | cons id rest =>
    -- A free position holds a blank frame, so that nothing of its last holder is left to be seen.
    have hmem : id ∈ p.free := by rw [hfree]; exact List.mem_cons_self
    have hcell := h.cell?_of_mem_free hmem
    have hnodup : (id :: rest).Nodup := hfree ▸ h.free_nodup
    set p' : Pool := { p.setCell id ⟨Frame.ofMode warpMode, true⟩ with free := rest } with hp'
    have hself : p'.cell? id = some ⟨Frame.ofMode warpMode, true⟩ := cell?_setCell_self _ hcell
    have hother : ∀ other, other ≠ id → p'.cell? other = p.cell? other :=
      fun _ hne ↦ cell?_setCell_of_ne _ hne
    refine ⟨id, p', ?_, ?_, frameAt_of_cell? hself, ?_⟩
    · rw [Pool.create, hfree]
      simp only [cell_eq_ok_of_cell? hcell]
      rfl
    · refine h.update hother hnodup.of_cons (fun other hne ↦ ?_)
        (List.nodup_cons.2 ⟨h.notMem_of_mem_free hmem, h.held_nodup⟩)
        (fun other hne ↦ by simp [hne])
        (Or.inr ⟨(List.nodup_cons.1 hnodup).1, List.mem_cons_self, _, hself⟩)
      rw [hfree]
      simp [hp', hne]
    · intro other hmem'
      rw [frameAt, frameAt, hother other fun heq ↦ h.notMem_of_mem_free hmem (heq ▸ hmem')]

/-- **Giving a frame back.** It was held, so it is not released twice. -/
theorem release {id : FrameId} (h : p.Lends (id :: held)) :
    ∃ p', p.release id = .ok p' ∧ p'.Lends held ∧
      ∀ other ∈ held, p'.frameAt other = p.frameAt other := by
  have hcell := h.cell?_of_mem List.mem_cons_self
  obtain ⟨hnotMem, hnodup⟩ := List.nodup_cons.1 h.held_nodup
  -- The frame is wiped now and not when it is taken again: unused frames are blank all along.
  have hnotFree : id ∉ p.free := fun hmem ↦ h.notMem_of_mem_free hmem List.mem_cons_self
  set p' : Pool := { p.setCell id ⟨Frame.blank, false⟩ with free := id :: p.free } with hp'
  have hself : p'.cell? id = some ⟨Frame.blank, false⟩ := cell?_setCell_self _ hcell
  have hother : ∀ other, other ≠ id → p'.cell? other = p.cell? other :=
    fun _ hne ↦ cell?_setCell_of_ne _ hne
  refine ⟨p', ?_, ?_, ?_⟩
  · rw [Pool.release, cell_eq_ok_of_cell? hcell]
    rfl
  · exact h.update hother (List.nodup_cons.2 ⟨hnotFree, h.free_nodup⟩)
      (fun other hne ↦ by simp [hp', hne]) hnodup (fun other hne ↦ by simp [hne])
      (Or.inl ⟨List.mem_cons_self, hnotMem, hself⟩)
  · intro other hmem
    rw [frameAt, frameAt, hother other fun heq ↦ hnotMem (heq ▸ hmem)]

/-- **Writing to a frame** that is held. -/
theorem modify {id : FrameId} (h : p.Lends held) (hmem : id ∈ held) (change : Frame → Frame) :
    ∃ p', p.modify id change = .ok p' ∧ p'.Lends held ∧ p'.frameAt id = change (p.frameAt id) ∧
      ∀ other, other ≠ id → p'.frameAt other = p.frameAt other := by
  have hcell := h.cell?_of_mem hmem
  have hnotFree : id ∉ p.free := fun hfree ↦ h.notMem_of_mem_free hfree hmem
  set p' : Pool := p.setCell id ⟨change (p.frameAt id), true⟩ with hp'
  have hself : p'.cell? id = some ⟨change (p.frameAt id), true⟩ := cell?_setCell_self _ hcell
  have hother : ∀ other, other ≠ id → p'.cell? other = p.cell? other :=
    fun _ hne ↦ cell?_setCell_of_ne _ hne
  refine ⟨p', ?_, ?_, frameAt_of_cell? hself, ?_⟩
  · rw [Pool.modify, cell_eq_ok_of_cell? hcell]
    rfl
  · exact h.update hother h.free_nodup (fun _ _ ↦ Iff.rfl) h.held_nodup (fun _ _ ↦ Iff.rfl)
      (Or.inr ⟨hnotFree, hmem, _, hself⟩)
  · intro other hne
    rw [frameAt, frameAt, hother other hne]

/-! ### Counting -/

/-- The free and the held positions together are all positions, each once. -/
theorem perm_range (h : p.Lends held) :
    ((p.free ++ held).map FrameId.cell).Perm (List.range p.cells.size) := by
  have hdisjoint : (p.free ++ held).Nodup := by
    refine List.nodup_append.2 ⟨h.free_nodup, h.held_nodup, ?_⟩
    rintro a ha b hb rfl
    exact h.notMem_of_mem_free ha hb
  have hinj : Function.Injective FrameId.cell := by
    rintro ⟨a⟩ ⟨b⟩ rfl
    rfl
  refine (List.perm_ext_iff_of_nodup (hdisjoint.map hinj) List.nodup_range).2 fun k ↦ ?_
  simp only [List.mem_map, List.mem_append, List.mem_range]
  constructor
  · rintro ⟨id, hmem | hmem, rfl⟩
    · exact lt_size_of_cell? (h.cell?_of_mem_free hmem)
    · exact lt_size_of_cell? (h.cell?_of_mem hmem)
  · intro hk
    have hcell : p.cell? ⟨k⟩ = some p.cells[k] := by simp [cell?, hk]
    refine ⟨⟨k⟩, ?_, rfl⟩
    rcases hc : p.cells[k] with ⟨f, _ | _⟩
    · exact Or.inl (h.mem_free_iff.2 ⟨f, hcell.trans (congrArg some hc)⟩)
    · exact Or.inr (h.mem_held_iff.2 ⟨f, hcell.trans (congrArg some hc)⟩)

/-- Each frame of the pool is free or held. -/
theorem freeCount_add_length (h : p.Lends held) : p.freeCount + held.length = p.capacity := by
  have hlength := h.perm_range.length_eq
  simpa [freeCount, capacity] using hlength

/-- **The count of frames held** is right, and its subtraction takes nothing below zero. -/
theorem inUseCount_eq (h : p.Lends held) : p.inUseCount = held.length := by
  have hsum := h.freeCount_add_length
  rw [inUseCount]
  omega

end Lends

end Pool

end BlockScript
