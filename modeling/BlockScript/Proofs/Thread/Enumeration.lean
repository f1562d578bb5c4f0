import BlockScript.Proofs.Activity.Turns
import Mathlib.Data.List.Forall2
import Mathlib.Data.List.Perm.Basic

/-!
# The order of the blocks does not matter

The blocks of a target stand in some order, which threads never look at directly. They look blocks
up by identifier, which finds the same block in any order since identifiers are unique; and they
search for the definition of a procedure, which finds the same one in any order provided that no
procedure is defined twice (`Graph.UniqueDefinitions`).

`World.Agrees` says that two worlds answer these questions in the same way. Everything that an
inline thread does is then the same in both, down to a whole turn (`World.Agrees.takeTurn`).
-/

namespace BlockScript

/-! ### Tables -/

private theorem lookup_eq_some_iff_mem {α : Type} {key : String} {value : α} :
    ∀ {entries : List (String × α)}, (entries.map Prod.fst).Nodup →
      (entries.lookup key = some value ↔ (key, value) ∈ entries) := by
  intro entries
  induction entries with
  | nil => simp
  | cons entry rest ih =>
    obtain ⟨name, value'⟩ := entry
    intro hnodup
    rw [List.map_cons, List.nodup_cons] at hnodup
    rw [List.lookup_cons, List.mem_cons]
    by_cases hkey : key = name
    · subst hkey
      -- The key stands nowhere else.
      have hrest : (key, value) ∉ rest := fun hmem ↦
        hnodup.1 (List.mem_map.2 ⟨(key, value), hmem, rfl⟩)
      simp [hrest, eq_comm]
    · have hbeq : (key == name) = false := by simp [hkey]
      simp [hbeq, hkey, ih hnodup.2]

namespace Table

variable {α : Type} {t t' : Table α}

/-- What a table answers is what stands in it. -/
theorem get?_eq_some_iff {key : String} {value : α} :
    t.get? key = some value ↔ (key, value) ∈ t.toList :=
  lookup_eq_some_iff_mem t.nodup_keys

/-- A table answers the same in any order. -/
theorem get?_of_perm (h : t.toList.Perm t'.toList) : t.get? = t'.get? := by
  funext key
  refine Option.ext fun value ↦ ?_
  rw [get?_eq_some_iff, get?_eq_some_iff, h.mem_iff]

end Table

/-! ### Definitions of procedures -/

/-- Where one element at most fits, a search finds the same in any order. -/
private theorem find?_of_perm {α : Type} {p : α → Bool} {l l' : List α} (h : l.Perm l')
    (hunique : ∀ x ∈ l, ∀ y ∈ l, p x = true → p y = true → x = y) : l.find? p = l'.find? p := by
  have hfind : ∀ {m : List α}, l.Perm m → ∀ x, m.find? p = some x ↔ x ∈ l ∧ p x = true := by
    intro m hm x
    constructor
    · exact fun hx ↦ ⟨hm.mem_iff.2 (List.mem_of_find?_eq_some hx), List.find?_some hx⟩
    · rintro ⟨hmem, hp⟩
      rcases hx : m.find? p with - | y
      · exact absurd hp (List.find?_eq_none.1 hx x (hm.mem_iff.1 hmem))
      · rw [hunique x hmem y (hm.mem_iff.2 (List.mem_of_find?_eq_some hx)) hp (List.find?_some hx)]
  refine Option.ext fun x ↦ ?_
  rw [hfind (List.Perm.refl l), hfind h]

namespace Graph

/-- No procedure is defined twice. -/
def UniqueDefinitions (g : Graph) : Prop :=
  ∀ entry ∈ g.toList, ∀ entry' ∈ g.toList, entry.2.opcode = definitionOpcode →
    entry'.2.opcode = definitionOpcode → (g.definedCode? entry.2).isSome = true →
    g.definedCode? entry.2 = g.definedCode? entry'.2 → entry.1 = entry'.1

instance (g : Graph) : Decidable g.UniqueDefinitions := by
  unfold UniqueDefinitions
  infer_instance

variable {g g' : Graph}

/-- A procedure's definition is found in whatever order the blocks stand. -/
theorem definedCode?_of_perm (h : g.toList.Perm g'.toList) :
    g.definedCode? = g'.definedCode? := by
  funext definition
  rw [definedCode?, definedCode?, Table.get?_of_perm h]

/-- A procedure that is not defined twice has the same body in any order. -/
theorem procedureBody?_of_perm (h : g.toList.Perm g'.toList) (hunique : g.UniqueDefinitions) :
    g.procedureBody? = g'.procedureBody? := by
  funext code
  rw [procedureBody?, procedureBody?, definition?, definition?, ← definedCode?_of_perm h]
  rw [find?_of_perm h]
  intro entry hmem entry' hmem' hfits hfits'
  simp only [Bool.and_eq_true, beq_iff_eq] at hfits hfits'
  have hkey : entry.1 = entry'.1 := by
    refine hunique entry hmem entry' hmem' hfits.1 hfits'.1 ?_ (hfits.2.trans hfits'.2.symm)
    rw [hfits.2]
    rfl
  have hvalue : some entry.2 = some entry'.2 := by
    rw [← Table.get?_eq_some_iff.2 hmem, ← Table.get?_eq_some_iff.2 hmem', hkey]
  exact Prod.ext hkey (Option.some.inj hvalue)

end Graph

/-! ### Projects -/

/-- The same target with its blocks in another order. -/
structure Target.Reordered (t t' : Target) : Prop where
  /-- The name is the same. -/
  name_eq : t.name = t'.name
  /-- Either both are the stage or neither is. -/
  isStage_eq : t.isStage = t'.isStage
  /-- The blocks are the same. -/
  blocks_perm : t.blocks.toList.Perm t'.blocks.toList

/-- The same project with the blocks of each target in another order. -/
def Project.Reordered (project project' : Project) : Prop :=
  List.Forall₂ Target.Reordered project.targets project'.targets

/-- No target of the project defines a procedure twice. -/
def Project.UniqueDefinitions (project : Project) : Prop :=
  ∀ target ∈ project.targets, target.blocks.UniqueDefinitions

instance (project : Project) : Decidable project.UniqueDefinitions :=
  inferInstanceAs (Decidable (∀ target ∈ project.targets, target.blocks.UniqueDefinitions))

/-- Every block that is found stands in a target. -/
theorem World.exists_of_resolve? {w : World} {preferred : TargetId} {id : BlockId} {b : Block}
    (h : w.resolve? preferred id = some b) :
    ∃ target ∈ w.targets, (id, b) ∈ target.blocks.toList := by
  rw [World.resolve?, Option.or_eq_some_iff] at h
  rcases h with h | ⟨-, h⟩
  · obtain ⟨g, hg, hget⟩ := Option.bind_eq_some_iff.1 h
    obtain ⟨target, htarget, rfl⟩ := Option.map_eq_some_iff.1 hg
    exact ⟨target, List.mem_of_getElem? htarget, Table.get?_eq_some_iff.1 hget⟩
  · obtain ⟨target, hmem, hget⟩ := List.exists_of_findSome?_eq_some h
    exact ⟨target, hmem, Table.get?_eq_some_iff.1 hget⟩

/-- The two worlds answer all questions of threads in the same way. -/
structure World.Agrees (w w' : World) : Prop where
  /-- The settings are the same. -/
  settings_eq : w.settings = w'.settings
  /-- Each target has the same blocks. -/
  get?_eq : ∀ target id, ((w.graph? target).bind fun g ↦ g.get? id) =
    (w'.graph? target).bind fun g ↦ g.get? id
  /-- Blocks of any target are found alike. -/
  resolve?_eq : w.resolve? = w'.resolve?
  /-- Procedures have the same bodies. -/
  procedureBody?_eq : w.procedureBody? = w'.procedureBody?

section Pointwise

variable {α : Type} {R : α → α → Prop} {l l' : List α}

/-- What is asked of one entry is the same for lists that are related. -/
private theorem getElem?_of_forall₂ {β : Type} {f : α → Option β} (h : List.Forall₂ R l l')
    (hf : ∀ x ∈ l, ∀ x', R x x' → f x = f x') (i : Nat) :
    (l[i]?).bind f = (l'[i]?).bind f := by
  induction h generalizing i with
  | nil => rfl
  | cons hx _ ih =>
    cases i with
    | zero => exact hf _ List.mem_cons_self _ hx
    | succ i => exact ih (fun x hmem ↦ hf x (List.mem_cons_of_mem _ hmem)) i

private theorem findSome?_of_forall₂ {β : Type} {f : α → Option β} (h : List.Forall₂ R l l')
    (hf : ∀ x ∈ l, ∀ x', R x x' → f x = f x') : l.findSome? f = l'.findSome? f := by
  induction h with
  | nil => rfl
  | cons hx _ ih =>
    rw [List.findSome?_cons, List.findSome?_cons, hf _ List.mem_cons_self _ hx,
      ih fun x hmem ↦ hf x (List.mem_cons_of_mem _ hmem)]

end Pointwise

/-- **The worlds of a project agree**, whatever the order of its blocks. -/
theorem Project.Reordered.agrees {project project' : Project} (h : project.Reordered project')
    (hunique : project.UniqueDefinitions) (settings : Settings) :
    World.Agrees ⟨settings, project.targets⟩ ⟨settings, project'.targets⟩ := by
  have hget : ∀ target id, ((World.graph? ⟨settings, project.targets⟩ target).bind
      fun g ↦ g.get? id) = (World.graph? ⟨settings, project'.targets⟩ target).bind
      fun g ↦ g.get? id := by
    intro target id
    simp only [World.graph?, Option.bind_map]
    refine getElem?_of_forall₂ h (fun x _ x' hx ↦ ?_) target.index
    exact congrFun (Table.get?_of_perm hx.blocks_perm) id
  refine ⟨rfl, hget, ?_, ?_⟩
  · funext target id
    rw [World.resolve?, World.resolve?, hget]
    refine congrArg _ (findSome?_of_forall₂ h fun x _ x' hx ↦ ?_)
    exact congrFun (Table.get?_of_perm hx.blocks_perm) id
  · funext target code
    simp only [World.procedureBody?, World.graph?, Option.bind_map]
    refine getElem?_of_forall₂ h (fun x hmem x' hx ↦ ?_) target.index
    exact congrFun (Graph.procedureBody?_of_perm hx.blocks_perm (hunique x hmem)) code

namespace World.Agrees

variable {w w' : World}

/-- What agrees still does so under other settings. -/
theorem under (h : w.Agrees w') (settings : Settings) :
    (w.under settings).Agrees (w'.under settings) :=
  ⟨rfl, h.get?_eq, h.resolve?_eq, h.procedureBody?_eq⟩

/-! ### What a thread does -/

variable (h : w.Agrees w') (t : InlineThread)

include h

/-- The next block is the same. -/
theorem advance : t.advance w = t.advance w' := by
  have hnext : t.nextBlock? w = t.nextBlock? w' := by
    rw [InlineThread.nextBlock?, InlineThread.nextBlock?]
    congr 1
    funext id
    show ((w.graph? t.target).bind fun g ↦ (g.get? id).bind Block.next) =
      (w'.graph? t.target).bind fun g ↦ (g.get? id).bind Block.next
    rw [← Option.bind_assoc, ← Option.bind_assoc, h.get?_eq]
  rw [InlineThread.advance, InlineThread.advance, hnext]

/-- So is the call that is unwound to. -/
theorem unwind (rounds : Nat) : ∀ t : InlineThread, t.unwind w rounds = t.unwind w' rounds := by
  induction rounds with
  | zero => exact fun t ↦ rfl
  | succ rounds ih =>
    intro t
    have hcall : t.isCall w = t.isCall w' := by
      funext level
      rw [InlineThread.isCall, InlineThread.isCall]
      simp only [h.get?_eq]
    rw [InlineThread.unwind, InlineThread.unwind, hcall, h.advance]
    simp only [ih]

/-- So is what is left of a script that is stopped. -/
theorem stopScript : t.stopScript w = t.stopScript w' := by
  rw [InlineThread.stopScript, InlineThread.stopScript, h.unwind]

theorem kill : t.kill w = t.kill w' := by
  rw [InlineThread.kill, InlineThread.kill]
  simp only [h.stopScript]

theorem shouldYield (now : Moment) : t.shouldYield w now = t.shouldYield w' now := by
  rw [InlineThread.shouldYield, InlineThread.shouldYield, h.settings_eq]

theorem yieldIfDue (now : Moment) : t.yieldIfDue w now = t.yieldIfDue w' now := by
  rw [InlineThread.yieldIfDue, InlineThread.yieldIfDue, h.shouldYield]

/-- A call finds the same procedure. -/
theorem call (now : Moment) (b : Block) : t.call w now b = t.call w' now b := by
  have henter : t.enterProcedure w = t.enterProcedure w' := by
    funext now b code body
    rw [InlineThread.enterProcedure, InlineThread.enterProcedure, InlineThread.isRecursiveCall,
      InlineThread.isRecursiveCall, h.resolve?_eq]
    simp only [h.yieldIfDue]
  rw [InlineThread.call, InlineThread.call, h.advance, h.procedureBody?_eq, henter]

/-- **Performing a block**, with one case for each command. -/
theorem perform (now : Moment) (b : Block) : t.perform w now b = t.perform w' now b := by
  have henter : t.enterOrAdvance w b = t.enterOrAdvance w' b := by
    rw [InlineThread.enterOrAdvance, InlineThread.enterOrAdvance, h.advance]
  rw [InlineThread.perform, InlineThread.perform, h.kill, h.advance, h.stopScript, h.call, henter]

theorem resume (now : Moment) (parent : BlockId) :
    t.resume w now parent = t.resume w' now parent := by
  rw [InlineThread.resume, InlineThread.resume, World.substack?, World.substack?, h.resolve?_eq,
    h.advance]
  simp only [h.yieldIfDue]

/-- **A step** is the same. -/
theorem stepBlock (now : Moment) : t.stepBlock w now = t.stepBlock w' now := by
  have hexecute : t.execute w now = t.execute w' now := by
    funext id
    rw [InlineThread.execute, InlineThread.execute, h.resolve?_eq, h.stopScript]
    simp only [h.perform]
  rw [InlineThread.stepBlock, InlineThread.stepBlock, hexecute]
  simp only [h.stopScript, h.resume]

theorem yieldIfLate (now : Moment) (deadline : Time) :
    t.yieldIfLate w now deadline = t.yieldIfLate w' now deadline := by
  rw [InlineThread.yieldIfLate, InlineThread.yieldIfLate, InlineThread.outOfTime,
    InlineThread.outOfTime, h.shouldYield]

/-- A step, and what time is left after it. -/
theorem turn (shown : Reading) (deadline : Time) :
    t.turn w shown deadline = t.turn w' shown deadline := by
  rw [InlineThread.turn, InlineThread.turn, h.stepBlock]
  simp only [h.yieldIfLate]

/-- **A slice**, by induction on the turns that it may have. -/
theorem slice (deadline : Time) (shown : Readings) (turns : Nat) :
    ∀ (request : Option StopRequest) (t : InlineThread),
      InlineThread.slice w deadline shown turns request t =
        InlineThread.slice w' deadline shown turns request t := by
  induction turns generalizing shown with
  | zero =>
    intro request t
    rw [InlineThread.slice, InlineThread.slice]
  | succ turns ih =>
    intro request t
    rw [InlineThread.slice, InlineThread.slice, h.turn]
    simp only [ih]

/-- **A turn** is the same in both worlds. -/
theorem takeTurn (deadline : Time) (shown : Readings) (turns : Nat) :
    t.takeTurn w deadline shown turns = t.takeTurn w' deadline shown turns := by
  rw [InlineThread.takeTurn, InlineThread.takeTurn, h.kill, h.stopScript, h.resolve?_eq,
    h.slice]

end World.Agrees

end BlockScript
