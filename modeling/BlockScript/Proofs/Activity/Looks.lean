import BlockScript.Proofs.Activity.Refinement
import BlockScript.Proofs.Thread.Guard

/-!
# The search for recursive calls, look by look

`Activity.isRecursiveCall` lists the blocks of the enclosing levels and looks at the first five. A
machine does not make the list. It keeps three counters (`Activity.Search`): the level it is at, the
looks that are left, and whether the reporter that this level waits for was looked at already. Of
the first and the third one moves in each round, so that a level is come to once or twice, while the
second counts looks and not levels.

* `Activity.Search.Sound` is what the counters keep. No round breaches the bounds of the levels or
  takes a counter below zero, and there are no more rounds than looks
  (`Activity.Search.Sound.searchFrom`).
* `Activity.searchFrom_eq` is what the rounds come to: the answer for the looks that are left on the
  levels that are left. The induction is on these levels.
* `Activity.anyCalls_iff` says which lists of looks have a call in sight.

`Activity.isRecursiveCall_iff_inSight` puts them together.
-/

namespace BlockScript

namespace Activity

/-! ### The machine -/

/-- **Where the search stands.** -/
structure Search where
  /-- The number of levels, from the outermost one, that are still to be looked at. -/
  level : Nat
  /-- The number of looks that are left. -/
  remaining : Nat
  /-- Whether the reporter that the innermost of these levels waits for was looked at. -/
  reporterChecked : Bool

/-- What a round of the search comes to. -/
inductive Round where
  /-- The search goes on. -/
  | onward (search : Search)
  /-- The search is over. -/
  | answer (recursive : Bool)
  /-- A position outside the levels, or a counter that would go below zero. -/
  | breach

namespace Search

/-- Spends a look. The last one ends the search. -/
def spend (s : Search) : Round :=
  match s.remaining with
  | 0 => .breach
  | 1 => .answer false
  | remaining + 2 => .onward { s with remaining := remaining + 1 }

/-- Looks at a block, and goes on from `next` if that decides nothing. -/
def look (resolve : BlockId → Option Block) (code : String) (block : Option BlockId)
    (next : Search) : Round :=
  match block.bind resolve with
  | none => .answer false
  | some b => if b.isProcedureCall && b.proccode == some code then .answer true else next.spend

/-- **One round.** Levels are counted from the outermost one. -/
def round (a : Activity) (code : String) (s : Search) : Except Halt Round :=
  match s.level with
  | 0 => .ok (.answer false)
  | index + 1 =>
    match a.thread.levels.reverse[index]? with
    | none => .ok .breach
    | some level => do
      let frame ← a.engine.pool.get level.frame
      let look := look (a.engine.resolve? a.thread.target) code
      if !s.reporterChecked && frame.waitingReporter then
        return look frame.reporting { s with reporterChecked := true }
      else return look level.block { s with level := index, reporterChecked := false }

end Search

/-- Rounds until the search is over, so many at most. -/
def searchFrom (a : Activity) (code : String) : Nat → Search → Except Halt Round
  | 0, s => .ok (.onward s)
  | rounds + 1, s => do
    match ← s.round a code with
    | .onward s => searchFrom a code rounds s
    | result => return result

/-- The search, from the level below the top one. -/
def search (a : Activity) (code : String) (rounds : Nat) : Except Halt Round :=
  searchFrom a code rounds ⟨a.thread.depth - 1, maxEnclosingCalls, false⟩

/-! ### The counters -/

namespace Search

/-- **What the counters keep**: the level is one of the thread's, and a look is left. -/
structure Sound (a : Activity) (s : Search) : Prop where
  /-- The level is one of the thread's. -/
  level_le : s.level ≤ a.thread.depth
  /-- A look is left. -/
  remaining_pos : 0 < s.remaining

variable {a : Activity} {code : String} {s : Search} {r : Round}

/-- A look ends the search, or is spent. -/
theorem Sound.look {resolve : BlockId → Option Block} {block : Option BlockId} (h : s.Sound a) :
    (∃ recursive, look resolve code block s = .answer recursive) ∨
      ∃ s' : Search, look resolve code block s = .onward s' ∧ s'.Sound a ∧
        s.remaining = s'.remaining + 1 := by
  rw [Search.look]
  cases block.bind resolve with
  | none => exact .inl ⟨false, rfl⟩
  | some b =>
    dsimp only
    split
    · exact .inl ⟨true, rfl⟩
    · rw [spend]
      rcases hremaining : s.remaining with - | - | remaining
      · exact absurd hremaining (Nat.ne_of_gt h.remaining_pos)
      · exact .inl ⟨false, rfl⟩
      · exact .inr ⟨_, rfl, ⟨h.level_le, Nat.succ_pos remaining⟩, rfl⟩

/-- **A round breaches nothing.** It ends the search, or spends one look of it. -/
theorem Sound.round (h : s.Sound a) (hround : s.round a code = .ok r) :
    (∃ recursive, r = .answer recursive) ∨
      ∃ s' : Search, r = .onward s' ∧ s'.Sound a ∧ s.remaining = s'.remaining + 1 := by
  obtain ⟨level, remaining, checked⟩ := s
  cases level with
  | zero =>
    cases hround
    exact .inl ⟨false, rfl⟩
  | succ index =>
    rw [Search.round] at hround
    dsimp only at hround
    have hlt : index < a.thread.levels.reverse.length := by
      rw [List.length_reverse]
      exact h.level_le
    rw [List.getElem?_eq_getElem hlt] at hround
    obtain ⟨frame, -, hlook⟩ := exists_of_bind_eq_ok hround
    -- The level stays for its own block after a look at its reporter, and is left otherwise.
    split at hlook
    · cases hlook
      have hnext : Sound a ⟨index + 1, remaining, true⟩ := ⟨h.level_le, h.remaining_pos⟩
      exact hnext.look
    · cases hlook
      have hnext : Sound a ⟨index, remaining, false⟩ :=
        ⟨Nat.le_of_succ_le h.level_le, h.remaining_pos⟩
      exact hnext.look

/-- **No run of rounds breaches anything**, and a run that has not ended has spent a look for every
round. -/
theorem Sound.searchFrom (rounds : Nat) : ∀ {s : Search}, s.Sound a →
    a.searchFrom code rounds s = .ok r → (∃ recursive, r = .answer recursive) ∨
      ∃ s' : Search, r = .onward s' ∧ s'.Sound a ∧ s.remaining = s'.remaining + rounds := by
  induction rounds with
  | zero =>
    intro s h hsearch
    cases hsearch
    exact .inr ⟨s, rfl, h, rfl⟩
  | succ rounds ih =>
    intro s h hsearch
    rw [Activity.searchFrom] at hsearch
    obtain ⟨r₁, hround, hrest⟩ := exists_of_bind_eq_ok hsearch
    rcases h.round hround with ⟨recursive, rfl⟩ | ⟨s₁, rfl, h₁, hremaining⟩
    · cases hrest
      exact .inl ⟨recursive, rfl⟩
    · rcases ih h₁ hrest with hanswer | ⟨s', hr, h', hremaining'⟩
      · exact .inl hanswer
      · exact .inr ⟨s', hr, h', by omega⟩

end Search

variable {a : Activity} {code : String}

theorem search_sound (a : Activity) :
    Search.Sound a ⟨a.thread.depth - 1, maxEnclosingCalls, false⟩ :=
  ⟨Nat.sub_le _ _, Nat.succ_pos _⟩

/-! ### What the rounds come to -/

/-- One look, and then what the rest comes to. -/
private theorem searchFrom_of_look {s : Search} {block : Option BlockId}
    {blocks : List (Option BlockId)} {remaining : Nat} (level : Nat) (checked : Bool)
    (hround : s.round a code = .ok (Search.look (a.engine.resolve? a.thread.target) code block
      ⟨level, remaining + 1, checked⟩))
    (hrest : ∀ fewer, remaining = fewer + 1 →
      a.searchFrom code remaining ⟨level, remaining, checked⟩ = .ok (.answer
        (anyCalls (a.engine.resolve? a.thread.target) code (blocks.take remaining)))) :
    a.searchFrom code (remaining + 1) s = .ok (.answer
      (anyCalls (a.engine.resolve? a.thread.target) code
        ((block :: blocks).take (remaining + 1)))) := by
  rw [searchFrom, hround, List.take_succ_cons, anyCalls, Search.look]
  cases block.bind (a.engine.resolve? a.thread.target) with
  | none => rfl
  | some b =>
    dsimp only
    cases b.isProcedureCall && b.proccode == some code with
    | true => rfl
    | false =>
      cases remaining with
      | zero => rfl
      | succ fewer => exact hrest fewer rfl

/-- **What the search comes to**, from some level on: the answer for the looks on the levels that
are left. -/
theorem searchFrom_eq {levels : List Level} : ∀ {inner : List Level},
    a.thread.levels = inner ++ levels →
    (∀ level ∈ levels, a.engine.pool.get level.frame = .ok (level.inline a.engine.pool).frame) →
    ∀ remaining, a.searchFrom code (remaining + 1) ⟨levels.length, remaining + 1, false⟩ =
      .ok (.answer (anyCalls (a.engine.resolve? a.thread.target) code
        (((levels.map (Level.inline a.engine.pool)).flatMap InlineLevel.looks).take
          (remaining + 1)))) := by
  induction levels with
  | nil => exact fun _ _ remaining ↦ rfl
  | cons level rest ih =>
    intro inner hlevels hget remaining
    obtain ⟨hframe, hrest⟩ := List.forall_mem_cons.1 hget
    have hat : a.thread.levels.reverse[rest.length]? = some level := by
      rw [hlevels]
      simp
    have hinner : a.thread.levels = (inner ++ [level]) ++ rest := by
      rw [hlevels, List.append_assoc]
      rfl
    have hfurther := ih hinner hrest
    -- The level's own block, whether or not a look at a reporter went before it.
    have hown : ∀ (checked : Bool) (remaining : Nat),
        (!checked && (level.inline a.engine.pool).frame.waitingReporter) = false →
        a.searchFrom code (remaining + 1) ⟨rest.length + 1, remaining + 1, checked⟩ =
          .ok (.answer (anyCalls (a.engine.resolve? a.thread.target) code ((level.block ::
            (rest.map (Level.inline a.engine.pool)).flatMap InlineLevel.looks).take
              (remaining + 1)))) := by
      intro checked remaining hskip
      refine searchFrom_of_look rest.length false ?_ ?_
      · rw [Search.round]
        dsimp only
        rw [hat]
        dsimp only
        rw [hframe]
        exact if_neg (by rw [hskip]; exact Bool.false_ne_true)
      · rintro fewer rfl
        exact hfurther fewer
    rw [List.map_cons, List.flatMap_cons, InlineLevel.looks]
    cases hwaiting : (level.inline a.engine.pool).frame.waitingReporter with
    | false => exact hown false remaining (by rw [hwaiting]; rfl)
    | true =>
      refine searchFrom_of_look (rest.length + 1) true ?_ ?_
      · rw [List.length_cons, Search.round]
        dsimp only
        rw [hat]
        dsimp only
        rw [hframe]
        exact if_pos (by rw [hwaiting]; rfl)
      · rintro fewer rfl
        exact hown true fewer rfl

/-! ### What the looks tell -/

/-- A look at a block that some target has. -/
def Finds (w : World) (target : TargetId) (block : Option BlockId) : Prop :=
  ∃ id b, block = some id ∧ w.resolve? target id = some b

/-- **A call is in sight** in a list of looks: one of them is at a call of the procedure, and all
before it find a block. -/
def InSight (w : World) (target : TargetId) (code : String) (looks : List (Option BlockId)) :
    Prop :=
  ∃ before block after, looks = before ++ block :: after ∧ w.Calls target code block ∧
    ∀ earlier ∈ before, Finds w target earlier

variable {w : World} {target : TargetId}

/-- A call is in sight at the first look, or behind it if it finds a block. -/
theorem inSight_cons {first : Option BlockId} {rest : List (Option BlockId)} :
    InSight w target code (first :: rest) ↔
      w.Calls target code first ∨ Finds w target first ∧ InSight w target code rest := by
  constructor
  · rintro ⟨before, block, after, hlooks, hcalls, hfinds⟩
    rcases before with - | ⟨head, before⟩
    · obtain ⟨rfl, -⟩ := List.cons.inj hlooks
      exact .inl hcalls
    · obtain ⟨rfl, hrest⟩ := List.cons.inj hlooks
      obtain ⟨hhead, hbefore⟩ := List.forall_mem_cons.1 hfinds
      exact .inr ⟨hhead, before, block, after, hrest, hcalls, hbefore⟩
  · rintro (hcalls | ⟨hfirst, before, block, after, rfl, hcalls, hfinds⟩)
    · exact ⟨[], first, rest, rfl, hcalls, List.forall_mem_nil _⟩
    · exact ⟨first :: before, block, after, rfl, hcalls, List.forall_mem_cons.2 ⟨hfirst, hfinds⟩⟩

/-- The answer for a list of looks is whether a call is in sight in it. -/
theorem anyCalls_iff {looks : List (Option BlockId)} :
    anyCalls (w.resolve? target) code looks = true ↔ InSight w target code looks := by
  induction looks with
  | nil =>
    refine iff_of_false Bool.false_ne_true ?_
    rintro ⟨before, block, after, hlooks, -⟩
    exact List.append_ne_nil_of_right_ne_nil before (List.cons_ne_nil block after) hlooks.symm
  | cons first rest ih =>
    rw [anyCalls, inSight_cons, ← ih]
    rcases hfirst : first.bind (w.resolve? target) with - | b
    · -- A look that finds nothing ends the search, and it is at no call.
      have hnone : ¬Finds w target first := by
        rintro ⟨id, b, rfl, hb⟩
        exact Option.some_ne_none b (hb.symm.trans hfirst)
      refine iff_of_false Bool.false_ne_true ?_
      rintro (⟨id, b, hid, hb, -⟩ | ⟨hfinds, -⟩)
      · exact hnone ⟨id, b, hid, hb⟩
      · exact hnone hfinds
    · obtain ⟨id, rfl, hb⟩ := Option.bind_eq_some_iff.1 hfirst
      have hfinds : Finds w target (some id) := ⟨id, b, rfl, hb⟩
      rw [Bool.or_eq_true, ← Block.calls_iff, World.calls_some_iff hb, and_iff_right hfinds]

/-! ### The answer -/

/-- The blocks to look at, innermost level first: on each level below the top one, the reporter that
it waits for and then its own block. -/
theorem enclosing_inline (a : Activity) : a.inline.enclosing =
    (a.thread.levels.tail.map (Level.inline a.engine.pool)).flatMap InlineLevel.looks := by
  rw [List.map_tail]
  rfl

/-- **The search for recursive calls, exactly.** Whatever the thread and the procedure:

* no round of the search goes outside the levels or takes a counter below zero, and it has ended
  after as many rounds as there are looks;
* a thread with one level or none makes no recursive call;
* if the enclosing levels have their frames in the pool, the search comes to an answer, and
  `isRecursiveCall` to the same: whether a call of the procedure is in sight in the first five
  looks at the enclosing levels. -/
theorem isRecursiveCall_iff_inSight (a : Activity) (code : String) :
    (∀ rounds, a.search code rounds ≠ .ok .breach) ∧
    (∀ s, a.search code maxEnclosingCalls ≠ .ok (.onward s)) ∧
    (a.thread.depth ≤ 1 → a.isRecursiveCall code = .ok false) ∧
    ((∀ level ∈ a.thread.levels.tail, ∃ frame, a.engine.pool.get level.frame = .ok frame) →
      ∃ recursive, a.search code maxEnclosingCalls = .ok (.answer recursive) ∧
        a.isRecursiveCall code = .ok recursive ∧
        (recursive = true ↔ InSight a.engine.world a.thread.target code
          (a.inline.enclosing.take maxEnclosingCalls))) := by
  refine ⟨fun rounds hbreach ↦ ?_, fun s honward ↦ ?_, fun hdepth ↦ ?_, fun hframes ↦ ?_⟩
  · rcases (search_sound a).searchFrom rounds hbreach with ⟨_, hr⟩ | ⟨_, hr, -⟩
    · cases hr
    · cases hr
  · rcases (search_sound a).searchFrom maxEnclosingCalls honward with ⟨_, hr⟩ | ⟨s', -, h, hspent⟩
    · cases hr
    · -- All looks are spent, and the search would not go on without one.
      have hpos := h.remaining_pos
      dsimp only at hspent
      omega
  · have htail : a.thread.levels.drop 1 = [] := List.drop_eq_nil_of_le hdepth
    rw [isRecursiveCall, htail]
    rfl
  · have hget : ∀ level ∈ a.thread.levels.tail,
        a.engine.pool.get level.frame = .ok (level.inline a.engine.pool).frame := by
      intro level hmem
      obtain ⟨frame, hframe⟩ := hframes level hmem
      rw [hframe, Level.inline, Pool.frameAt_of_get hframe]
    refine ⟨_, ?_, ?_, anyCalls_iff⟩
    · rcases hlevels : a.thread.levels with - | ⟨top, rest⟩
      · rw [search, Thread.depth, enclosing_inline, hlevels]
        rfl
      · rw [hlevels] at hget
        rw [search, Thread.depth, enclosing_inline, hlevels, Engine.resolve?_world]
        have hinner : a.thread.levels = [top] ++ rest := hlevels
        exact searchFrom_eq hinner hget 4
    · rw [isRecursiveCall, List.drop_one, enclosing_eq hget, ← enclosing_inline,
        ← Engine.resolve?_world]
      rfl

/-! ### A level that waits for a reporter -/

/-- A script in the middle of a call: four levels are between the call and the block at work, and
the level of the call may wait for a reporter. -/
def burrow (waiting : Bool) : Activity where
  engine :=
    { settings := ⟨30, 25, 500, false⟩
      pool := { cells :=
        #[⟨{ Frame.blank with waitingReporter := waiting, reporting := some "say" }, true⟩] ++
          Array.replicate 5 ⟨Frame.blank, true⟩ }
      targets := [{
        name := "sprite"
        blocks := ⟨[
          ("call", { opcode := "procedures_call", mutation := some { proccode := some "p" } }),
          ("say", { opcode := "looks_say" }),
          ("if", { opcode := "control_if" })], (by decide : ["call", "say", "if"].Nodup)⟩ }] }
  thread :=
    { topBlock := "call"
      levels := ["if", "if", "if", "if", "if", "call"].mapIdx fun i block ↦
        ⟨some block, ⟨5 - i⟩, false⟩
      target := ⟨0⟩ }

/-- The call is the fifth look, and it is out of sight if its level waits for a reporter: the fifth
look is then at the reporter. -/
theorem isRecursiveCall_burrow :
    (∀ waiting, ∀ level ∈ (burrow waiting).thread.levels.tail, ∃ frame,
      (burrow waiting).engine.pool.get level.frame = .ok frame) ∧
    InSight (burrow false).engine.world ⟨0⟩ "p"
      ((burrow false).inline.enclosing.take maxEnclosingCalls) ∧
    ¬InSight (burrow true).engine.world ⟨0⟩ "p"
      ((burrow true).inline.enclosing.take maxEnclosingCalls) := by
  have hframes : ∀ waiting, ∀ level ∈ (burrow waiting).thread.levels.tail, ∃ frame,
      (burrow waiting).engine.pool.get level.frame = .ok frame := by
    have hall : ∀ waiting, ∀ level ∈ (burrow waiting).thread.levels.tail,
        ((burrow waiting).engine.pool.get level.frame).isOk = true := by decide +kernel
    intro waiting level hmem
    have hok := hall waiting level hmem
    cases hget : (burrow waiting).engine.pool.get level.frame with
    | ok frame => exact ⟨frame, rfl⟩
    | error cause =>
      rw [hget] at hok
      cases hok
  have hnear : (burrow false).isRecursiveCall "p" = .ok true := by decide +kernel
  have hfar : (burrow true).isRecursiveCall "p" = .ok false := by decide +kernel
  refine ⟨hframes, ?_, fun hsight ↦ ?_⟩
  · obtain ⟨-, -, -, hanswer⟩ := isRecursiveCall_iff_inSight (burrow false) "p"
    obtain ⟨recursive, -, hrecursive, hiff⟩ := hanswer (hframes false)
    exact hiff.1 (Except.ok.inj (hrecursive.symm.trans hnear))
  · obtain ⟨-, -, -, hanswer⟩ := isRecursiveCall_iff_inSight (burrow true) "p"
    obtain ⟨recursive, -, hrecursive, hiff⟩ := hanswer (hframes true)
    have htrue : recursive = true := hiff.2 hsight
    rw [htrue, hfar] at hrecursive
    cases hrecursive

end Activity

end BlockScript
