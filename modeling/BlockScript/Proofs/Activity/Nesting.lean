import BlockScript.Proofs.Schedule.Interleaving
import BlockScript.Proofs.Thread.Upkeep
import Mathlib.Algebra.GroupWithZero.Nat

/-!
# Nested activity leaves what is below alone

A thread pushes levels and pops them again, turns to other targets and back, and stops scripts. Some
levels switch targets when they are pushed, which is recorded in the level, and what was switched
away from is recorded in the list of targets to return to. A level may also turn to targets of its
own accord and turn back later, and then nothing is recorded in the level. Here it is shown that the
two records stay in step.

* `Operation.tally` is the rule for the switches that levels make of their own accord: a level turns
  back as often as it turned, before it goes. `Activity.nest` carries operations out under this rule
  while the depth does not fall below a **floor**.
* `InlineThread.Effect` says once what an operation can do to levels and targets. What is below the
  floor is the same after every effect (`Effect.lowest_eq`), and the targets to return to are those
  from before, under one for each switch since then that is still to be undone (`Effect.balanced`).
* `Activity.nest_undisturbed` puts this together.
-/

namespace BlockScript

/-! ### Operations that are properly nested -/

/-- How many switches each level has made of its own accord and not undone, innermost level first
and with an entry below all levels, after an operation at which so many levels go. There is none if
a level goes that has not turned back, or turns back once too often. -/
def Operation.tally (gone : Nat) (pairs : List Nat) : Operation → Option (List Nat)
  | .push _ _ => some (0 :: pairs)
  | .pushTarget _ => pairs.head?.map fun count ↦ (count + 1) :: pairs.tail
  | .popTarget =>
    match pairs with
    | (count + 1) :: rest => some (count :: rest)
    | _ => none
  | _ => if (pairs.take gone).sum = 0 then some (pairs.drop gone) else none

namespace Activity

/-- Carries properly nested operations out in order. There is no result if an operation fails or is
not properly nested, or if the depth falls below the floor. -/
def nest (floor : Nat) (a : Activity) (pairs : List Nat) :
    List Operation → Option (Activity × List Nat)
  | [] => if floor ≤ a.thread.depth then some (a, pairs) else none
  | operation :: rest =>
    if floor ≤ a.thread.depth then
      match a.operate operation with
      | .error _ => none
      | .ok (_, a') =>
        (operation.tally (a.thread.depth - a'.thread.depth) pairs).bind fun pairs' ↦
          nest floor a' pairs' rest
    else none

/-- The lowest levels of the stack with their frames, innermost first. -/
def lowest (a : Activity) (count : Nat) : Except Halt (List InlineLevel) :=
  (a.thread.levels.drop (a.thread.depth - count)).mapM fun level ↦
    (a.engine.pool.get level.frame).map fun frame ↦ ⟨level.block, frame, level.switched⟩

end Activity

namespace InlineThread

/-- The lowest levels of the stack, innermost first. -/
def lowest (t : InlineThread) (count : Nat) : List InlineLevel :=
  t.levels.drop (t.depth - count)

/-- The target at work and those to return to, the next one first. -/
def trail (t : InlineThread) : List TargetId :=
  t.target :: t.targetStack

/-- Which levels switched the target when they were pushed. -/
def switches (t : InlineThread) : List Bool :=
  t.levels.map InlineLevel.switched

theorem length_switches (t : InlineThread) : t.switches.length = t.depth :=
  List.length_map _

/-! ### Levels that go -/

/-- **Some levels are gone**, and their switches are undone one by one. The level that is on top now
may have got another block and another frame; what is below it is as it was. -/
structure Sheds (gone : Nat) (t t' : InlineThread) : Prop where
  /-- Only levels that are there can go. -/
  le : gone ≤ t.depth
  /-- What is below the top level was there before. -/
  tail_eq : t'.levels.tail = (t.levels.drop gone).tail
  /-- The levels that are left have switched or not, as before. -/
  switches_eq : t'.switches = t.switches.drop gone
  /-- The targets are those from before the levels that are gone. -/
  trail_eq : t'.trail = t.trail.drop ((t.switches.take gone).count true)

namespace Sheds

variable {t t₁ t₂ t' : InlineThread} {gone : Nat}

/-- Nothing is gone if only the top level's block or frame is another one. -/
theorem of_eq (htail : t'.levels.tail = t.levels.tail) (hswitches : t'.switches = t.switches)
    (htrail : t'.trail = t.trail) : Sheds 0 t t' :=
  ⟨Nat.zero_le _, htail, hswitches, htrail⟩

/-- So many levels are missing. -/
theorem depth_eq (h : Sheds gone t t') : t'.depth = t.depth - gone := by
  rw [← length_switches, ← length_switches, h.switches_eq, List.length_drop]

/-- Levels may go after others have gone. -/
theorem trans {further : Nat} (h₁ : Sheds gone t t₁) (h₂ : Sheds further t₁ t₂) :
    Sheds (gone + further) t t₂ where
  le := by
    have hle := h₂.le
    have hfirst := h₁.le
    rw [h₁.depth_eq] at hle
    omega
  tail_eq := by
    rw [h₂.tail_eq, List.tail_drop, List.tail_drop, ← List.drop_tail, h₁.tail_eq, List.tail_drop,
      List.drop_drop]
    congr 1
    omega
  switches_eq := by rw [h₂.switches_eq, h₁.switches_eq, List.drop_drop]
  trail_eq := by
    rw [h₂.trail_eq, h₁.trail_eq, List.drop_drop, h₁.switches_eq, List.take_add, List.count_append]

end Sheds

variable {w : World} {t t' : InlineThread} {block given : Option BlockId}

/-- No level goes when one is used again. -/
theorem sheds_of_reuse (h : t.reuse block = .ok t') : Sheds 0 t t' := by
  obtain ⟨level, rest, hlevels, rfl⟩ := exists_of_reuse h
  refine .of_eq ?_ ?_ rfl
  · rw [hlevels]
    rfl
  · rw [switches, switches, hlevels]
    rfl

theorem sheds_modifyTopFrame (t : InlineThread) (change : Frame → Frame) :
    Sheds 0 t (t.modifyTopFrame change) := by
  refine .of_eq ?_ ?_ rfl
  · rw [modifyTopFrame]
    rcases hlevels : t.levels with - | ⟨level, rest⟩
    · rfl
    · rfl
  · rw [switches, switches, modifyTopFrame]
    rcases hlevels : t.levels with - | ⟨level, rest⟩
    · rfl
    · rfl

/-- At most one level goes when one is left. -/
theorem exists_sheds_of_pop (h : t.pop = .ok (block, t')) : ∃ gone, Sheds gone t t' := by
  obtain ⟨-, rfl⟩ | ⟨level, rest, hlevels, hcases⟩ := pop_cases h
  · exact ⟨0, .of_eq rfl rfl rfl⟩
  · have hdepth : 1 ≤ t.depth := by
      rw [depth, hlevels, List.length_cons]
      omega
    have hswitches : t.switches = level.switched :: rest.map InlineLevel.switched := by
      rw [switches, hlevels]
      rfl
    obtain ⟨hswitched, rfl⟩ | ⟨hswitched, target, targetStack, hstack, rfl⟩ := hcases
    · refine ⟨1, hdepth, by rw [hlevels]; rfl, by rw [hswitches]; rfl, ?_⟩
      rw [hswitches, hswitched]
      rfl
    · refine ⟨1, hdepth, by rw [hlevels]; rfl, by rw [hswitches]; rfl, ?_⟩
      have htrail : t.trail = t.target :: target :: targetStack := by rw [trail, hstack]
      rw [hswitches, hswitched, htrail]
      rfl

/-- Unwinding only leaves levels and moves on. -/
theorem exists_sheds_of_unwind (rounds : Nat) : ∀ {t : InlineThread},
    t.unwind w rounds = .ok t' → ∃ gone, Sheds gone t t' := by
  induction rounds with
  | zero =>
    intro t h
    cases h
    exact ⟨0, .of_eq rfl rfl rfl⟩
  | succ rounds ih =>
    intro t h
    rw [unwind] at h
    split at h
    · cases h
      exact ⟨0, .of_eq rfl rfl rfl⟩
    · split at h
      · cases h
        exact ⟨0, .of_eq rfl rfl rfl⟩
      · split at h
        · exact ⟨0, sheds_of_reuse h⟩
        · obtain ⟨⟨block, t₁⟩, hpop, hrest⟩ := exists_of_bind_eq_ok h
          obtain ⟨first, hfirst⟩ := exists_sheds_of_pop hpop
          obtain ⟨further, hfurther⟩ := ih hrest
          exact ⟨first + further, hfirst.trans hfurther⟩

theorem exists_sheds_of_stopScript (h : t.stopScript w = .ok t') : ∃ gone, Sheds gone t t' := by
  obtain ⟨t₁, hunwind, rfl⟩ := exists_of_map_eq_ok h
  obtain ⟨gone, hgone⟩ := exists_sheds_of_unwind t.depth hunwind
  have hsettle : t₁.settle.levels = t₁.levels ∧ t₁.settle.trail = t₁.trail := by
    rw [settle]
    split
    · exact ⟨rfl, rfl⟩
    · exact ⟨rfl, rfl⟩
  refine ⟨gone, hgone.trans (.of_eq ?_ ?_ hsettle.2)⟩
  · rw [hsettle.1]
  · rw [switches, switches, hsettle.1]

/-! ### What an operation can do -/

/-- **The effect of an operation** on levels and targets, and on how many switches of its own each
level has to undo. -/
inductive Effect (t : InlineThread) : List Nat → InlineThread → List Nat → Prop
  /-- There is a new level, and another target if the level says so. -/
  | push {t' : InlineThread} {pairs : List Nat} (level : InlineLevel) (more : List TargetId)
      (hlevels : t'.levels = level :: t.levels) (htrail : t'.trail = more ++ t.trail)
      (hlength : more.length = level.switched.toNat) : Effect t pairs t' (0 :: pairs)
  /-- There is another target. -/
  | turn {t' : InlineThread} {count : Nat} {rest : List Nat} (target : TargetId)
      (hlevels : t'.levels = t.levels) (htrail : t'.trail = target :: t.trail) :
      Effect t (count :: rest) t' ((count + 1) :: rest)
  /-- The target before is back. -/
  | turnBack {t' : InlineThread} {count : Nat} {rest : List Nat} (target : TargetId)
      (hlevels : t'.levels = t.levels) (htrail : t.trail = target :: t'.trail) :
      Effect t ((count + 1) :: rest) t' (count :: rest)
  /-- Some levels are gone, or none, that had nothing to undo. -/
  | shed {t' : InlineThread} {pairs : List Nat} (gone : Nat) (h : Sheds gone t t')
      (hclosed : (pairs.take gone).sum = 0) : Effect t pairs t' (pairs.drop gone)

/-- A push opens a bracket, in which nothing has been switched yet. -/
theorem effect_push (t : InlineThread) (block : BlockId) (target : Option TargetId)
    (pairs : List Nat) : t.Effect pairs (t.push block target) (0 :: pairs) := by
  rcases target with - | target
  · exact .push _ [] rfl rfl rfl
  · by_cases hsame : target = t.target
    · have hpush : t.push block (some target) = t.push block none := by
        rw [push, turnTo, if_pos hsame]
        rfl
      rw [hpush]
      exact .push _ [] rfl rfl rfl
    · have hpush : t.push block (some target) = (t.pushTarget target).withLevels
          (⟨some block, Frame.ofMode t.inWarpMode, true⟩ :: t.levels) := by
        rw [push, turnTo, if_neg hsame]
        rfl
      rw [hpush]
      exact .push _ [target] rfl rfl rfl

/-- Levels that go have undone their switches if the tally says so. -/
theorem effect_of_sheds {gone : Nat} {pairs pairs' : List Nat} (h : Sheds gone t t')
    (htally : (if (pairs.take (t.depth - t'.depth)).sum = 0 then
      some (pairs.drop (t.depth - t'.depth)) else none) = some pairs') :
    t.Effect pairs t' pairs' := by
  have hle := h.le
  have hgone : t.depth - t'.depth = gone := by
    rw [h.depth_eq]
    omega
  rw [hgone] at htally
  split at htally
  · obtain rfl := Option.some.inj htally
    exact .shed gone h ‹_›
  · cases htally

/-- **Every operation** that is properly nested has one of these effects. -/
theorem effect_of_operate {operation : Operation} {pairs pairs' : List Nat}
    (h : t.operate w operation = .ok (given, t'))
    (htally : operation.tally (t.depth - t'.depth) pairs = some pairs') :
    t.Effect pairs t' pairs' := by
  cases operation with
  | push block target =>
    cases h
    cases htally
    exact effect_push t block target pairs
  | pop =>
    obtain ⟨gone, hgone⟩ := exists_sheds_of_pop h
    exact effect_of_sheds hgone htally
  | reuse block =>
    obtain ⟨t₁, hreuse, ⟨⟩⟩ := exists_of_map_eq_ok h
    exact effect_of_sheds (sheds_of_reuse hreuse) htally
  | advance =>
    obtain ⟨t₁, hadvance, ⟨⟩⟩ := exists_of_map_eq_ok h
    exact effect_of_sheds (sheds_of_reuse hadvance) htally
  | stopScript =>
    obtain ⟨t₁, hstop, ⟨⟩⟩ := exists_of_map_eq_ok h
    obtain ⟨gone, hgone⟩ := exists_sheds_of_stopScript hstop
    exact effect_of_sheds hgone htally
  | pushTarget target =>
    cases h
    rcases pairs with - | ⟨count, rest⟩
    · cases htally
    · cases htally
      exact .turn target rfl rfl
  | popTarget =>
    obtain ⟨t₁, hpop, ⟨⟩⟩ := exists_of_map_eq_ok h
    rw [popTarget] at hpop
    split at hpop
    · cases hpop
    · rename_i target targetStack hstack
      cases hpop
      rcases pairs with - | ⟨- | count, rest⟩
      · cases htally
      · cases htally
      · cases htally
        refine .turnBack t.target rfl ?_
        rw [trail, hstack]
        rfl
  | initParams =>
    cases h
    exact effect_of_sheds (sheds_modifyTopFrame t _) htally
  | setParam name value =>
    obtain ⟨t₁, hset, ⟨⟩⟩ := exists_of_map_eq_ok h
    rw [setParam] at hset
    split at hset
    · cases hset
      exact effect_of_sheds (.of_eq rfl rfl rfl) htally
    · split at hset
      · cases hset
      · cases hset
        exact effect_of_sheds (sheds_modifyTopFrame t _) htally
  | modifyTopFrame change =>
    cases h
    exact effect_of_sheds (sheds_modifyTopFrame t change) htally

/-- How targets and switches stand to what they were at some time before: under the targets that
were there are those that were switched away from since then, by levels that are still above the
switches from before and by levels of their own accord. -/
def Balanced (t : InlineThread) (base : List TargetId) (lower : List Bool) (pairs : List Nat) :
    Prop :=
  ∃ more upper, t.trail = more ++ base ∧ t.switches = upper ++ lower ∧
    pairs.length = upper.length + 1 ∧ more.length = pairs.sum + upper.count true

namespace Effect

variable {pairs pairs' : List Nat}

/-- **What is below the top level stays as it is.** -/
theorem lowest_eq {count : Nat} (h : t.Effect pairs t' pairs') (hbefore : count < t.depth)
    (hafter : count < t'.depth) : t'.lowest count = t.lowest count := by
  rw [lowest, lowest]
  cases h with
  | push level more hlevels htrail hlength =>
    have hdepth : t'.depth = t.depth + 1 := by
      rw [depth, hlevels]
      rfl
    rw [hdepth, hlevels, Nat.sub_add_comm (Nat.le_of_lt hbefore), List.drop_succ_cons]
  | turn target hlevels htrail => rw [depth, depth, hlevels]
  | turnBack target hlevels htrail => rw [depth, depth, hlevels]
  | shed gone h hclosed =>
    have hdepth := h.depth_eq
    have hbelow : ∀ n, 0 < n → t'.levels.drop n = t.levels.drop (gone + n) := by
      intro n hn
      obtain ⟨n, rfl⟩ := Nat.exists_eq_add_of_lt hn
      rw [Nat.zero_add, ← List.drop_tail, h.tail_eq, List.drop_tail, List.drop_drop]
    rw [hbelow _ (by omega)]
    congr 1
    omega

/-- **Targets and switches stay balanced** while the depth does not fall below the switches from
before. -/
theorem balanced {base : List TargetId} {lower : List Bool} (h : t.Effect pairs t' pairs')
    (hbalanced : t.Balanced base lower pairs) (hfloor : lower.length ≤ t'.depth) :
    t'.Balanced base lower pairs' := by
  obtain ⟨more, upper, htrail, hswitches, hpairs, hlength⟩ := hbalanced
  cases h with
  | push level more' hlevels htrail' hlength' =>
    refine ⟨more' ++ more, level.switched :: upper, ?_, ?_, ?_, ?_⟩
    · rw [htrail', htrail, List.append_assoc]
    · rw [switches, hlevels, List.map_cons, ← switches, hswitches, List.cons_append]
    · rw [List.length_cons, List.length_cons, hpairs]
    · have hcount : (level.switched :: upper).count true =
          upper.count true + level.switched.toNat := by
        cases level.switched <;> simp
      rw [List.length_append, hlength, hlength', List.sum_cons, hcount]
      omega
  | turn target hlevels htrail' =>
    refine ⟨target :: more, upper, ?_, ?_, hpairs, ?_⟩
    · rw [htrail', htrail, List.cons_append]
    · rw [switches, hlevels, ← switches, hswitches]
    · rw [List.length_cons, hlength, List.sum_cons, List.sum_cons]
      omega
  | turnBack target hlevels htrail' =>
    rw [List.sum_cons] at hlength
    rcases more with - | ⟨target', more⟩
    · rw [List.length_nil] at hlength
      omega
    · refine ⟨more, upper, ?_, ?_, hpairs, ?_⟩
      · exact (List.cons.inj (htrail'.symm.trans htrail)).2
      · rw [switches, hlevels, ← switches, hswitches]
      · rw [List.length_cons] at hlength
        rw [List.sum_cons]
        omega
  | shed gone h hclosed =>
    -- The levels that are gone are all above the switches from before.
    have hgone : gone ≤ upper.length := by
      have hdepth := h.depth_eq
      have hle := h.le
      have htotal : t.depth = upper.length + lower.length := by
        rw [← length_switches, hswitches, List.length_append]
      omega
    have htake : t.switches.take gone = upper.take gone := by
      rw [hswitches, List.take_append_of_le_length hgone]
    have hsum : pairs.sum = (pairs.take gone).sum + (pairs.drop gone).sum := by
      rw [← List.sum_append, List.take_append_drop]
    have hcount : upper.count true =
        (upper.take gone).count true + (upper.drop gone).count true := by
      rw [← List.count_append, List.take_append_drop]
    refine ⟨more.drop ((upper.take gone).count true), upper.drop gone, ?_, ?_, ?_, ?_⟩
    · rw [h.trail_eq, htake, htrail, List.drop_append_of_le_length (by omega)]
    · rw [h.switches_eq, hswitches, List.drop_append_of_le_length hgone]
    · rw [List.length_drop, List.length_drop]
      omega
    · rw [List.length_drop]
      omega

end Effect

/-! ### Operations that do not fail -/

/-- There is a target to return to for every level that switched. -/
def Covered (t : InlineThread) : Prop :=
  t.switches.count true ≤ t.targetStack.length

/-- What an operation asks of its caller: a level to be changed, a switch to be undone, parameters
to be written to. -/
def Allows (t : InlineThread) (pairs : List Nat) : Operation → Prop
  | .reuse _ => t.levels ≠ []
  | .advance => t.levels ≠ []
  | .popTarget => 0 < pairs.headD 0
  | .setParam _ _ => ∀ frame, t.topFrame? = some frame → frame.params.isSome = true
  | _ => True

/-- Where the targets are covered a level can be left. -/
theorem exists_pop (h : t.Covered) : ∃ block t', t.pop = .ok (block, t') ∧ t'.Covered := by
  rw [Covered, switches] at h
  rcases hlevels : t.levels with - | ⟨level, rest⟩
  · refine ⟨none, t, ?_, ?_⟩
    · rw [pop, hlevels]
    · rw [Covered, switches]
      exact h
  · rw [hlevels, List.map_cons] at h
    rw [pop, hlevels]
    dsimp only
    rcases hswitched : level.switched with - | -
    · rw [hswitched, List.count_cons_of_ne Bool.noConfusion] at h
      exact ⟨_, _, rfl, h⟩
    · rw [hswitched, List.count_cons_self] at h
      rcases hstack : t.targetStack with - | ⟨target, targetStack⟩
      · rw [hstack, List.length_nil] at h
        omega
      · rw [hstack, List.length_cons] at h
        refine ⟨level.block, { t.withLevels rest with target, targetStack }, ?_,
          Nat.le_of_succ_le_succ h⟩
        have hpop : (t.withLevels rest).popTarget =
            .ok { t.withLevels rest with target, targetStack } := by
          rw [popTarget, show (t.withLevels rest).targetStack = _ from hstack]
        rw [if_pos rfl, hpop]
        rfl

theorem exists_reuse (h : t.levels ≠ []) (block : Option BlockId) :
    ∃ t', t.reuse block = .ok t' := by
  obtain ⟨level, rest, hlevels⟩ := List.exists_cons_of_ne_nil h
  rw [reuse, hlevels]
  exact ⟨_, rfl⟩

/-- And a script can be unwound. -/
theorem exists_unwind (w : World) (rounds : Nat) : ∀ {t : InlineThread}, t.Covered →
    ∃ t', t.unwind w rounds = .ok t' := by
  induction rounds with
  | zero => exact fun _ ↦ ⟨_, rfl⟩
  | succ rounds ih =>
    intro t h
    rw [unwind]
    split
    · exact ⟨_, rfl⟩
    · rename_i level rest hlevels
      split
      · exact ⟨_, rfl⟩
      · split
        · exact exists_reuse (by rw [hlevels]; exact List.cons_ne_nil _ _) _
        · obtain ⟨block, t₁, hpop, h₁⟩ := exists_pop h
          rw [hpop]
          exact ih h₁

theorem exists_setParam {name : String} {value : Value}
    (h : ∀ frame, t.topFrame? = some frame → frame.params.isSome = true) :
    ∃ t', t.setParam name value = .ok t' := by
  rw [setParam]
  rcases hframe : t.topFrame? with - | frame
  · exact ⟨_, rfl⟩
  · obtain ⟨params, hparams⟩ := Option.isSome_iff_exists.1 (h frame hframe)
    dsimp only
    rw [hparams]
    exact ⟨_, rfl⟩

namespace Balanced

variable {target : TargetId} {pairs : List Nat}

/-- Nothing has happened yet. -/
theorem refl (t : InlineThread) : t.Balanced t.trail t.switches [0] :=
  ⟨[], [], rfl, rfl, rfl, rfl⟩

/-- Once all switches are undone the targets are what they were. -/
theorem eq_of_closed (h : t'.Balanced t.trail t.switches [0]) :
    t'.depth = t.depth ∧ t'.target = t.target ∧ t'.targetStack = t.targetStack := by
  obtain ⟨more, upper, htrail, hswitches, hpairs, hlength⟩ := h
  obtain rfl : upper = [] := List.eq_nil_of_length_eq_zero (Nat.succ.inj hpairs).symm
  obtain rfl : more = [] := List.eq_nil_of_length_eq_zero hlength
  refine ⟨?_, List.cons.inj htrail⟩
  rw [← length_switches, ← length_switches, hswitches, List.nil_append]

/-- A thread that was new has a target to return to for every switch that is not undone. -/
theorem length_targetStack (h : t.Balanced [target] [] pairs) :
    t.targetStack.length = pairs.sum + t.switches.count true := by
  obtain ⟨more, upper, htrail, hswitches, -, hlength⟩ := h
  have htotal := congrArg List.length htrail
  rw [trail, List.length_cons, List.length_append, List.length_singleton] at htotal
  rw [hswitches, List.append_nil]
  omega

/-- Balanced brackets cover the targets. -/
theorem covered (h : t.Balanced [target] [] pairs) : t.Covered := by
  rw [Covered, h.length_targetStack]
  omega

/-- **An operation that the caller has a right to does not fail.** -/
theorem exists_operate (h : t.Balanced [target] [] pairs) {operation : Operation}
    (hallows : t.Allows pairs operation) (w : World) :
    ∃ result, t.operate w operation = .ok result := by
  have hmap : ∀ {x : Except Halt InlineThread}, (∃ t', x = .ok t') →
      ∃ result, (x.map fun t ↦ ((none : Option BlockId), t)) = .ok result := by
    rintro x ⟨t', rfl⟩
    exact ⟨_, rfl⟩
  cases operation with
  | push block target => exact ⟨_, rfl⟩
  | pop =>
    obtain ⟨block, t', hpop, -⟩ := exists_pop h.covered
    exact ⟨_, hpop⟩
  | reuse block => exact hmap (exists_reuse hallows block)
  | advance => exact hmap (exists_reuse hallows _)
  | stopScript =>
    obtain ⟨t', hunwind⟩ := exists_unwind w t.depth h.covered
    refine hmap ⟨t'.settle, ?_⟩
    rw [stopScript, hunwind]
    rfl
  | pushTarget target => exact ⟨_, rfl⟩
  | popTarget =>
    have hlength := h.length_targetStack
    have hopen : 0 < pairs.sum := by
      rcases pairs with - | ⟨count, rest⟩
      · cases hallows
      · have hcount : 0 < count := hallows
        rw [List.sum_cons]
        omega
    refine hmap ?_
    rw [popTarget]
    rcases hstack : t.targetStack with - | ⟨target', targetStack⟩
    · rw [hstack, List.length_nil] at hlength
      omega
    · exact ⟨_, rfl⟩
  | initParams => exact ⟨_, rfl⟩
  | setParam name value => exact hmap (exists_setParam hallows)
  | modifyTopFrame change => exact ⟨_, rfl⟩

end Balanced

end InlineThread

/-! ### Nested activity -/

namespace Mirrors

variable {e : Engine} {others : List FrameId} {a a' : Activity} {t : InlineThread}

/-- A new thread beside the frames of others. -/
theorem fresh (hpool : e.pool.Lends others) (topBlock : BlockId) (target : TargetId) :
    Mirrors e others ⟨e, { topBlock, target }⟩ { topBlock, target } where
  world := rfl
  chronicle := rfl
  lends := hpool
  kept := fun _ _ ↦ rfl
  inline := rfl

/-- The pool and the inline thread show the same lowest levels. -/
theorem lowest (h : Mirrors e others a t) (count : Nat) :
    a.lowest count = .ok (t.lowest count) := by
  have hread : ∀ levels : List Level, (∀ level ∈ levels, level ∈ a.thread.levels) →
      (levels.mapM fun level ↦ (a.engine.pool.get level.frame).map fun frame ↦
        (⟨level.block, frame, level.switched⟩ : InlineLevel)) =
          .ok (levels.map (Level.inline a.engine.pool)) := by
    intro levels hmem
    induction levels with
    | nil => rfl
    | cons level rest ih =>
      rw [List.forall_mem_cons] at hmem
      rw [List.mapM_cons, h.get_of_mem hmem.1, ih hmem.2]
      rfl
  rw [Activity.lowest, hread _ fun level hmem ↦ List.mem_of_mem_drop hmem, InlineThread.lowest,
    h.levels_eq, h.depth_eq, List.map_drop]

/-- **What every effect keeps, nested activity keeps**, by induction over its operations. -/
theorem nest {floor : Nat} {I : InlineThread → List Nat → Prop} {pairs' : List Nat}
    (hstep : ∀ {t t' : InlineThread} {pairs pairs' : List Nat}, I t pairs →
      t.Effect pairs t' pairs' → floor ≤ t'.depth → I t' pairs')
    (operations : List Operation) : ∀ {a : Activity} {t : InlineThread} {pairs : List Nat},
    Mirrors e others a t → (floor ≤ t.depth → I t pairs) →
      a.nest floor pairs operations = some (a', pairs') →
      ∃ t', Mirrors e others a' t' ∧ floor ≤ t'.depth ∧ I t' pairs' := by
  induction operations with
  | nil =>
    intro a t pairs h hI hnest
    rw [Activity.nest] at hnest
    split at hnest
    · rename_i hfloor
      obtain ⟨rfl, rfl⟩ := Prod.mk.inj (Option.some.inj hnest)
      rw [← h.depth_eq] at hfloor
      exact ⟨t, h, hfloor, hI hfloor⟩
    · cases hnest
  | cons operation rest ih =>
    intro a t pairs h hI hnest
    rw [Activity.nest] at hnest
    split at hnest
    · rename_i hfloor
      rw [← h.depth_eq] at hfloor
      split at hnest
      · cases hnest
      · rename_i given a₁ hoperate
        obtain ⟨pairs₁, htally, hrest⟩ := Option.bind_eq_some_iff.1 hnest
        have hagree := h.operate operation
        rw [hoperate] at hagree
        obtain ⟨⟨given', t₁⟩, hok, -, h₁⟩ := hagree.exists_right
        rw [← h.depth_eq, ← h₁.depth_eq] at htally
        have heffect := InlineThread.effect_of_operate hok htally
        exact ih h₁ (hstep (hI hfloor) heffect) hrest
    · cases hnest

end Mirrors

namespace Activity

/-- **Nested activity leaves what is below alone, and targets are restored exactly.** Let a thread
start on an engine whose pool has lent out the frames of others, and carry out any operations that
are properly nested. From where it is then,

* whatever operations follow, the levels below those that stay keep their blocks and all of their
  frames;
* if operations follow that come back to the same depth, and each level that turned to other targets
  has turned back, then the target and the targets to return to are what they were;
* no operation fails that its caller has a right to: there is always a target to restore. -/
theorem nest_undisturbed {e : Engine} {others : List FrameId} (hpool : e.pool.Lends others)
    {topBlock : BlockId} {target : TargetId} {operations : List Operation} {a : Activity}
    {pairs : List Nat}
    (h : nest 0 ⟨e, { topBlock, target }⟩ [0] operations = some (a, pairs)) :
    (∀ {count : Nat} {further : List Operation} {a' : Activity} {pairs' : List Nat},
      a.nest (count + 1) pairs further = some (a', pairs') →
        ∃ levels, levels.length = count ∧ a.lowest count = .ok levels ∧
          a'.lowest count = .ok levels) ∧
      (∀ {further : List Operation} {a' : Activity},
        a.nest a.thread.depth [0] further = some (a', [0]) →
          a'.thread.depth = a.thread.depth ∧ a'.thread.target = a.thread.target ∧
            a'.thread.targetStack = a.thread.targetStack) ∧
      ∀ operation, a.inline.Allows pairs operation →
        ∃ result, a.operate operation = .ok result := by
  obtain ⟨t, hmirrors, -, hbalanced⟩ := Mirrors.nest
    (I := fun t pairs ↦ t.Balanced [target] [] pairs)
    (fun hI heffect hfloor ↦ heffect.balanced hI hfloor) operations
    (Mirrors.fresh hpool topBlock target) (fun _ ↦ InlineThread.Balanced.refl _) h
  refine ⟨?_, ?_, ?_⟩
  · intro count further a' pairs' hfurther
    obtain ⟨t', hmirrors', hlt, hlowest⟩ := Mirrors.nest
      (I := fun t' _ ↦ count < t'.depth ∧ t'.lowest count = t.lowest count)
      (fun hI heffect hfloor ↦ ⟨hfloor, (heffect.lowest_eq hI.1 hfloor).trans hI.2⟩) further
      hmirrors (fun hfloor ↦ ⟨hfloor, rfl⟩) hfurther
    refine ⟨t'.lowest count, ?_, ?_, hmirrors'.lowest count⟩
    · rw [InlineThread.lowest, List.length_drop, ← InlineThread.depth]
      omega
    · rw [hlowest.2]
      exact hmirrors.lowest count
  · intro further a' hfurther
    -- All levels that are there now are below the floor.
    rw [← hmirrors.depth_eq, ← InlineThread.length_switches] at hfurther
    obtain ⟨t', hmirrors', -, hclosed⟩ := Mirrors.nest
      (I := fun t' pairs ↦ t'.Balanced t.trail t.switches pairs)
      (fun hI heffect hfloor ↦ heffect.balanced hI hfloor) further hmirrors
      (fun _ ↦ InlineThread.Balanced.refl t) hfurther
    obtain ⟨hdepth, htarget, hstack⟩ := hclosed.eq_of_closed
    rw [hmirrors.depth_eq, hmirrors'.depth_eq] at hdepth
    rw [hmirrors.target_eq, hmirrors'.target_eq] at htarget
    rw [← hmirrors.inline, ← hmirrors'.inline] at hstack
    exact ⟨hdepth, htarget, hstack⟩
  · intro operation hallows
    rw [hmirrors.inline] at hallows
    obtain ⟨result, hok⟩ := hbalanced.exists_operate hallows e.world
    have hagree := hmirrors.operate operation
    rw [hok] at hagree
    obtain ⟨result', hok', -⟩ := hagree.exists_left
    exact ⟨result', hok'⟩

/-! ### Switches within switches -/

/-- Two targets, the first of which has a call that is followed by another block. -/
def switching : Engine where
  settings := ⟨30, 0, 0, false⟩
  targets := [
    { name := "stage"
      blocks := ⟨[
        ("call", { opcode := "procedures_call", next := some "after" }),
        ("after", { opcode := "looks_say" })], by decide⟩ },
    { name := "sprite", blocks := ⟨[], by decide⟩ }]

/-- A level with a parameter, below one that is on the sprite and has turned to the stage. -/
def approach : List Operation :=
  [.push "hat" none, .initParams, .setParam "x" (.text "1"), .push "call" (some ⟨1⟩),
    .pushTarget ⟨0⟩]

/-- Three more levels, of which the second does not switch, and a stop that unwinds all of them. -/
def excursion : List Operation :=
  [.push "body" (some ⟨1⟩), .push "same" (some ⟨1⟩),
    .modifyTopFrame fun frame ↦ { frame with warpMode := true }, .push "deep" (some ⟨0⟩),
    .stopScript]

/-- The stop comes back to the call, which is a call only on the stage: the targets had to be
restored one by one. The level below still has its parameter, and the call's own switch can still be
undone. -/
theorem nest_undisturbed_switching :
    ∃ a a' a'', nest 0 ⟨switching, { topBlock := "hat", target := ⟨0⟩ }⟩ [0] approach =
        some (a, [1, 0, 0]) ∧
      a.nest 2 [1, 0, 0] excursion = some (a', [1, 0, 0]) ∧ a'.thread.peek? = some "after" ∧
      (∃ levels, levels.length = 1 ∧ a.lowest 1 = .ok levels ∧ a'.lowest 1 = .ok levels) ∧
      a.nest a.thread.depth [0] excursion = some (a'', [0]) ∧ a.thread.target = ⟨0⟩ ∧
      a''.thread.target = ⟨0⟩ ∧ a.thread.targetStack = [⟨1⟩, ⟨0⟩] ∧
      a''.thread.targetStack = [⟨1⟩, ⟨0⟩] ∧ ∃ result, a.operate .popTarget = .ok result := by
  have hstart : (nest 0 ⟨switching, { topBlock := "hat", target := ⟨0⟩ }⟩ [0] approach).map
      (fun reached ↦ (reached.2, reached.1.thread.target :: reached.1.thread.targetStack)) =
      some ([1, 0, 0], [⟨0⟩, ⟨1⟩, ⟨0⟩]) := by
    decide +kernel
  have hrest : (nest 0 ⟨switching, { topBlock := "hat", target := ⟨0⟩ }⟩ [0] approach).map
      (fun reached ↦ ((reached.1.nest 2 [1, 0, 0] excursion).map fun further ↦
        (further.2, further.1.thread.peek?),
        (reached.1.nest reached.1.thread.depth [0] excursion).map Prod.snd)) =
      some (some ([1, 0, 0], some "after"), some [0]) := by
    decide +kernel
  obtain ⟨⟨a, pairs⟩, hnest, hfacts⟩ := Option.map_eq_some_iff.1 hstart
  obtain ⟨hpairs, htrail⟩ := Prod.mk.inj hfacts
  obtain ⟨htarget, hstack⟩ := List.cons.inj htrail
  rw [hnest] at hrest
  obtain ⟨hfurther, hclosed⟩ := Prod.mk.inj (Option.some.inj hrest)
  obtain ⟨⟨a', pairs'⟩, hfurther, hafter⟩ := Option.map_eq_some_iff.1 hfurther
  obtain ⟨hpairs', hpeek⟩ := Prod.mk.inj hafter
  obtain ⟨⟨a'', pairs''⟩, hclosed, hpairs''⟩ := Option.map_eq_some_iff.1 hclosed
  obtain rfl : pairs = [1, 0, 0] := hpairs
  obtain rfl : pairs' = [1, 0, 0] := hpairs'
  obtain rfl : pairs'' = [0] := hpairs''
  obtain ⟨hlowest, hrestored, hallowed⟩ := nest_undisturbed Pool.lends_empty hnest
  obtain ⟨-, htarget'', hstack''⟩ := hrestored hclosed
  exact ⟨a, a', a'', hnest, hfurther, hpeek, hlowest hfurther, hclosed, htarget,
    htarget''.trans htarget, hstack, hstack''.trans hstack, hallowed .popTarget Nat.one_pos⟩

end Activity

end BlockScript
