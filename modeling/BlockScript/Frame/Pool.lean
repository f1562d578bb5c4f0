import BlockScript.Frame.Basic
import BlockScript.Halt

/-!
# The frame pool

Frames live in the cells of a pool and are addressed by position. A released frame's cell goes on
the list of free cells and is the first to be used again; a cell is added only when none is free.
Releasing resets the frame, so taking a free cell only has to set the mode.
-/

namespace BlockScript

/-- A cell of a pool. -/
structure Cell where
  /-- The frame in it. -/
  frame : Frame
  /-- Whether a level holds the frame. -/
  inUse : Bool
deriving DecidableEq

/-- The frames of an engine. -/
structure Pool where
  /-- All cells ever added. -/
  cells : Array Cell := #[]
  /-- The free ones, the last released first. -/
  free : List FrameId := []
deriving DecidableEq, Inhabited

namespace Pool

/-- The pool without cells. -/
def empty : Pool :=
  {}

/-- The cell at a position. -/
def cell (p : Pool) (id : FrameId) : Except Halt Cell :=
  match p.cells[id.cell]? with
  | some c => .ok c
  | none => .error (.noSuchCell id.cell p.cells.size)

/-- The pool with the cell at a position replaced. -/
def setCell (p : Pool) (id : FrameId) (c : Cell) : Pool :=
  { p with cells := p.cells.setIfInBounds id.cell c }

@[simp]
theorem cell_setCell_self {p : Pool} {id : FrameId} (c : Cell) (h : id.cell < p.cells.size) :
    (p.setCell id c).cell id = .ok c := by
  simp [cell, setCell, h]

theorem cell_setCell_of_ne {p : Pool} {id other : FrameId} (c : Cell) (h : other ≠ id) :
    (p.setCell id c).cell other = p.cell other := by
  have hcell : id.cell ≠ other.cell := by
    intro heq
    cases id
    cases other
    simp_all
  simp [cell, setCell, hcell]

/-- A cell is there exactly when its position is below the number of cells. -/
theorem cell_eq_ok_iff {p : Pool} {id : FrameId} :
    (∃ c, p.cell id = .ok c) ↔ id.cell < p.cells.size := by
  unfold cell
  constructor
  · rintro ⟨c, h⟩
    split at h
    · next hc => exact (Array.getElem?_eq_some_iff.1 hc).1
    · simp at h
  · intro h
    exact ⟨p.cells[id.cell], by simp [h]⟩

/-- Takes a frame with the given mode: the free cell released last, or a new one. -/
def create (p : Pool) (warpMode : Bool) : Except Halt (FrameId × Pool) :=
  match p.free with
  | [] => .ok (⟨p.cells.size⟩, { p with cells := p.cells.push ⟨Frame.ofMode warpMode, true⟩ })
  | id :: rest => do
    let c ← p.cell id
    return (id, { p.setCell id ⟨{ c.frame with warpMode }, true⟩ with free := rest })

/-- Gives a frame back. -/
def release (p : Pool) (id : FrameId) : Except Halt Pool := do
  let c ← p.cell id
  if c.inUse then return { p.setCell id ⟨Frame.blank, false⟩ with free := id :: p.free }
  else throw (.releasedTwice id)

/-- Whether the frame at a position is held; a position that the pool does not have is not. -/
def isInUse (p : Pool) (id : FrameId) : Bool :=
  (p.cells[id.cell]?).elim false Cell.inUse

/-- The frame at a position. -/
def get (p : Pool) (id : FrameId) : Except Halt Frame :=
  (p.cell id).map Cell.frame

/-- Changes the frame at a position. -/
def modify (p : Pool) (id : FrameId) (change : Frame → Frame) : Except Halt Pool := do
  let c ← p.cell id
  return p.setCell id { c with frame := change c.frame }

/-- The number of cells, free or not. -/
def capacity (p : Pool) : Nat :=
  p.cells.size

/-- The number of free cells. -/
def freeCount (p : Pool) : Nat :=
  p.free.length

/-- The number of frames held. -/
def inUseCount (p : Pool) : Nat :=
  p.capacity - p.freeCount

end Pool

end BlockScript
