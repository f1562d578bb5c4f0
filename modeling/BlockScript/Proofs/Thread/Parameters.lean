import BlockScript.Proofs.Schedule.Interleaving
import BlockScript.Proofs.Thread.Upkeep

/-!
# The parameters of every level

What an operation does to the parameters that levels have. Levels are told apart by their
**height**, counted from the outermost level, since it stays the same while a level is there; and a
level that is not there counts as one without parameters, so that a push changes nothing.

A `Deed` is what is remembered of an operation: the depth before it and after it, and whether it
renewed the level that it left on top. An operation wipes out the parameters of the levels that are
gone and of the one that is renewed (`Deed.disturbs`), and otherwise changes those of the top level
alone. `InlineThread.paramsAt_operate` says this once for all operations; what it takes is to know
where a stop of the innermost script ends (`InlineThread.unwind_cases`).
-/

namespace BlockScript

namespace InlineLevel

variable {level : InlineLevel} {levels rest : List InlineLevel} {height : Nat}

/-- The parameters of the level at a height. -/
def paramsAt (levels : List InlineLevel) (height : Nat) : Option (Table Value) :=
  (levels.reverse[height]?).bind fun level ↦ level.frame.params

/-- There is nothing above the top level. -/
theorem paramsAt_of_length_le (hle : levels.length ≤ height) : paramsAt levels height = none := by
  rw [paramsAt, List.getElem?_eq_none (by rw [List.length_reverse]; exact hle), Option.bind_none]

theorem paramsAt_cons (level : InlineLevel) (rest : List InlineLevel) (height : Nat) :
    paramsAt (level :: rest) height =
      if height = rest.length then level.frame.params else paramsAt rest height := by
  rw [paramsAt, List.reverse_cons]
  rcases Nat.lt_trichotomy height rest.length with hlt | rfl | hgt
  · rw [List.getElem?_append_left (by rw [List.length_reverse]; exact hlt),
      if_neg (Nat.ne_of_lt hlt), paramsAt]
  · rw [if_pos rfl, ← List.length_reverse, List.getElem?_concat_length, Option.bind_some]
  · rw [if_neg (Nat.ne_of_gt hgt), paramsAt_of_length_le (Nat.le_of_lt hgt),
      List.getElem?_eq_none, Option.bind_none]
    rw [List.length_append, List.length_reverse]
    exact hgt

/-- The levels that are left when some are gone have the heights they had. -/
theorem paramsAt_drop (count : Nat) (levels : List InlineLevel) (height : Nat) :
    paramsAt (levels.drop count) height =
      if height < levels.length - count then paramsAt levels height else none := by
  rw [paramsAt, List.reverse_drop, List.getElem?_take]
  split
  · rfl
  · rfl

/-- The nearest parameters are those of the highest level that has any. -/
theorem findSome?_params_eq_some_iff {params : Table Value} :
    (levels.findSome? fun level ↦ level.frame.params) = some params ↔
      ∃ height, paramsAt levels height = some params ∧
        ∀ higher, height < higher → paramsAt levels higher = none := by
  induction levels with
  | nil =>
    refine iff_of_false (Option.some_ne_none _).symm ?_
    rintro ⟨height, hsome, -⟩
    cases hsome
  | cons level rest ih =>
    rw [List.findSome?_cons]
    have htop := paramsAt_cons level rest rest.length
    rw [if_pos rfl] at htop
    have habove : ∀ higher, rest.length < higher → paramsAt (level :: rest) higher = none :=
      fun higher hlt ↦ paramsAt_of_length_le hlt
    rcases hparams : level.frame.params with - | own
    · -- The top level has none, and the rest is as it would be without it.
      have hsame : ∀ height, paramsAt (level :: rest) height = paramsAt rest height := by
        intro height
        rw [paramsAt_cons]
        split
        · rename_i heq
          rw [hparams, paramsAt_of_length_le (Nat.le_of_eq heq.symm)]
        · rfl
      simp only [hsame]
      exact ih
    · rw [hparams] at htop
      constructor
      · intro heq
        exact ⟨rest.length, htop.trans heq, habove⟩
      · rintro ⟨height, hheight, hhigher⟩
        obtain rfl : height = rest.length := by
          rcases Nat.lt_trichotomy height rest.length with hlt | heq | hgt
          · rw [hhigher _ hlt] at htop
            cases htop
          · exact heq
          · rw [habove _ hgt] at hheight
            cases hheight
        exact htop.symm.trans hheight

end InlineLevel

/-! ### What is remembered of an operation -/

/-- **What is remembered of an operation** on a thread. -/
structure Deed where
  /-- The operation. -/
  operation : Operation
  /-- The number of levels before it. -/
  before : Nat
  /-- The number of levels after it. -/
  after : Nat
  /-- Whether the level on top after it got another block and a renewed frame. -/
  renews : Bool

/-- The level at a height is gone after the operation, or renewed by it. -/
def Deed.disturbs (d : Deed) (height : Nat) : Prop :=
  d.after ≤ height ∨ d.renews = true ∧ d.after = height + 1

instance (d : Deed) (height : Nat) : Decidable (d.disturbs height) :=
  inferInstanceAs (Decidable (_ ∨ _))

/-- What an operation writes to the parameters of the top level. -/
def Operation.write (params : Option (Table Value)) : Operation → Option (Table Value)
  | .initParams => some (params.getD Table.empty)
  | .setParam name value => params.map fun params ↦ params.insert name value
  | _ => params

/-- What an operation makes of the parameters of the level at a height. -/
def Deed.revise (d : Deed) (height : Nat) (params : Option (Table Value)) : Option (Table Value) :=
  if d.disturbs height then none
  else if d.before = height + 1 then d.operation.write params
  else params

namespace InlineThread

open InlineLevel

/-- The stop that led from `t` to `t'` stepped over a call: the level that it left on top did not
wait for a reporter, and was at a call. -/
def steppedOver (w : World) (t t' : InlineThread) : Bool :=
  (t.levels[t.depth - t'.depth]?).any fun level ↦
    !level.frame.waitingReporter && t'.isCall w level

/-- Whether an operation renews the level that it leaves on top. -/
def renews (w : World) (t t' : InlineThread) : Operation → Bool
  | .reuse _ => true
  | .advance => true
  | .stopScript => t.steppedOver w t'
  | _ => false

/-- What is remembered of an operation that led from `t` to `t'`. -/
def deed (w : World) (t : InlineThread) (operation : Operation) (t' : InlineThread) : Deed :=
  ⟨operation, t.depth, t'.depth, t.renews w t' operation⟩

variable {w : World} {t t' : InlineThread} {given : Option BlockId} {height : Nat}

/-! ### Where a stop ends -/

/-- **Where a stop of the innermost script ends**: with no level, at one that waits for a reporter,
or at one that is at a call and does not wait, which moves on. -/
theorem unwind_cases (rounds : Nat) : ∀ {t : InlineThread}, t.depth ≤ rounds →
    t.unwind w rounds = .ok t' → t'.levels = [] ∨
      ∃ upper level below, t.levels = upper ++ level :: below ∧
        (level.frame.waitingReporter = true ∧ t'.levels = level :: below ∨
          level.frame.waitingReporter = false ∧ t'.isCall w level = true ∧
            ∃ block, t'.levels = ⟨block, level.frame.renewed, level.switched⟩ :: below) := by
  induction rounds with
  | zero =>
    intro t hle hunwind
    cases hunwind
    exact .inl (List.eq_nil_of_length_eq_zero (Nat.le_zero.1 hle))
  | succ rounds ih =>
    intro t hle hunwind
    rw [unwind] at hunwind
    split at hunwind
    · cases hunwind
      exact .inl ‹_›
    · rename_i level below hlevels
      split at hunwind
      · rename_i hwaiting
        cases hunwind
        exact .inr ⟨[], level, below, hlevels, .inl ⟨hwaiting, hlevels⟩⟩
      · rename_i hwaiting
        rw [Bool.not_eq_true] at hwaiting
        split at hunwind
        · rename_i hcall
          obtain ⟨level', below', hlevels', rfl⟩ := exists_of_reuse hunwind
          obtain ⟨rfl, rfl⟩ := List.cons.inj (hlevels.symm.trans hlevels')
          exact .inr ⟨[], level, below, hlevels, .inr ⟨hwaiting, hcall, _, rfl⟩⟩
        · obtain ⟨⟨block, t₁⟩, hpop, hrest⟩ := exists_of_bind_eq_ok hunwind
          have hlevels₁ : t₁.levels = below := by
            rw [levels_of_pop hpop, hlevels, List.tail_cons]
          have hle₁ : t₁.depth ≤ rounds := by
            rw [depth, hlevels, List.length_cons] at hle
            rw [depth, hlevels₁]
            exact Nat.le_of_succ_le_succ hle
          rcases ih hle₁ hrest with hnil | ⟨upper, level', below', hsplit, hcases⟩
          · exact .inl hnil
          · refine .inr ⟨level :: upper, level', below', ?_, hcases⟩
            rw [hlevels, ← hlevels₁, hsplit, List.cons_append]

/-! ### What every operation does -/

/-- A parameter is only set on a level that has any. -/
theorem setParam_cases {name : String} {value : Value} (h : t.setParam name value = .ok t') :
    t.levels = [] ∧ t' = t ∨ ∃ frame params, t.topFrame? = some frame ∧
      frame.params = some params ∧ t' = t.modifyTopFrame fun frame ↦
        { frame with params := some (params.insert name value) } := by
  rw [setParam] at h
  split at h
  · rename_i hframe
    cases h
    rw [topFrame?, Option.map_eq_none_iff, List.head?_eq_none_iff] at hframe
    exact .inl ⟨hframe, rfl⟩
  · rename_i frame hframe
    split at h
    · cases h
    · rename_i params hparams
      exact .inr ⟨frame, params, hframe, hparams, (Except.ok.inj h).symm⟩

/-- An operation that writes nothing leaves the parameters of undisturbed levels alone. -/
theorem revise_of_idle {d : Deed} (hidle : ∀ params, d.operation.write params = params)
    (height : Nat) (params : Option (Table Value)) :
    d.revise height params = if d.disturbs height then none else params := by
  rw [Deed.revise, hidle, ite_self]

/-- A new level has no parameters. -/
theorem exists_levels_push (t : InlineThread) (block : BlockId) (target : Option TargetId) :
    ∃ level : InlineLevel, level.frame.params = none ∧
      (t.push block target).levels = level :: t.levels := by
  have hturn : (t.turnTo target).1.levels = t.levels := by
    rcases target with - | target
    · rfl
    · rw [turnTo]
      split
      · rfl
      · rfl
  exact ⟨⟨some block, Frame.ofMode (t.turnTo target).1.inWarpMode, (t.turnTo target).2⟩, rfl,
    congrArg (List.cons _) hturn⟩

/-- Levels are gone, and nothing else happened to the parameters. -/
theorem paramsAt_of_drop (count : Nat) (hlevels : t'.levels = t.levels.drop count)
    (operation : Operation) (height : Nat) :
    paramsAt t'.levels height =
      if (Deed.mk operation t.depth t'.depth false).disturbs height then none
      else paramsAt t.levels height := by
  have hdepth : t'.depth = t.levels.length - count := by rw [depth, hlevels, List.length_drop]
  have hgone : (Deed.mk operation t.depth t'.depth false).disturbs height ↔
      ¬height < t.levels.length - count := by
    rw [Nat.not_lt, ← hdepth]
    exact or_iff_left fun h ↦ Bool.false_ne_true h.1
  rw [hlevels, paramsAt_drop, if_congr hgone rfl rfl, ite_not]

/-- Levels may be gone, and the one that is on top now was renewed. -/
theorem paramsAt_of_renewed (upper : List InlineLevel) {below : List InlineLevel}
    {level : InlineLevel} {block : Option BlockId} (hbefore : t.levels = upper ++ level :: below)
    (hafter : t'.levels = ⟨block, level.frame.renewed, level.switched⟩ :: below)
    (operation : Operation) (height : Nat) :
    paramsAt t'.levels height =
      if (Deed.mk operation t.depth t'.depth true).disturbs height then none
      else paramsAt t.levels height := by
  have hbelow : below = t.levels.drop (upper.length + 1) := by
    rw [hbefore, List.drop_append, List.drop_eq_nil_of_le (Nat.le_succ _), List.nil_append,
      Nat.add_sub_cancel_left, List.drop_one, List.tail_cons]
  have hlength : t.levels.length - (upper.length + 1) = below.length := by
    rw [hbelow, List.length_drop]
  have hdisturbs : (Deed.mk operation t.depth t'.depth true).disturbs height ↔
      ¬height < below.length := by
    have hdepth : t'.depth = below.length + 1 := by rw [depth, hafter, List.length_cons]
    rw [Deed.disturbs, hdepth]
    dsimp only
    rw [eq_self_iff_true, true_and]
    omega
  rw [hafter, paramsAt_cons, if_congr hdisturbs rfl rfl, ite_not]
  split
  · rename_i htop
    rw [if_neg (Nat.not_lt.2 (Nat.le_of_eq htop.symm))]
    rfl
  · rw [hbelow, paramsAt_drop, hlength, ← hbelow]

/-- Writing to the top frame changes the parameters of the top level alone. -/
theorem paramsAt_modifyTopFrame (t : InlineThread) (change : Frame → Frame) (height : Nat) :
    paramsAt (t.modifyTopFrame change).levels height =
      if t.depth = height + 1 then t.topFrame?.bind fun frame ↦ (change frame).params
      else paramsAt t.levels height := by
  rw [modifyTopFrame, withLevels, depth, topFrame?]
  rcases t.levels with - | ⟨level, rest⟩
  · rfl
  · rw [List.modifyHead_cons, paramsAt_cons, paramsAt_cons, List.length_cons]
    by_cases heq : height = rest.length
    · rw [if_pos heq, if_pos (by rw [heq])]
      rfl
    · rw [if_neg heq, if_neg heq, if_neg fun h ↦ heq (Nat.succ.inj h).symm]

theorem depth_modifyTopFrame (t : InlineThread) (change : Frame → Frame) :
    (t.modifyTopFrame change).depth = t.depth := by
  rw [modifyTopFrame, withLevels, depth, depth, List.length_modifyHead]

/-- Writing to the top frame disturbs no level that is there. -/
theorem not_disturbs_modifyTopFrame {change : Frame → Frame} {operation : Operation}
    (hlt : height < t.depth) :
    ¬(Deed.mk operation t.depth (t.modifyTopFrame change).depth false).disturbs height := by
  rw [depth_modifyTopFrame]
  rintro (hle | ⟨hrenews, -⟩)
  · exact Nat.not_lt.2 hle hlt
  · cases hrenews

/-- The parameters of the top level are those of its frame. -/
theorem paramsAt_top (hdepth : t.depth = height + 1) :
    paramsAt t.levels height = t.topFrame?.bind Frame.params := by
  rw [topFrame?]
  rcases hlevels : t.levels with - | ⟨level, rest⟩
  · rw [depth, hlevels] at hdepth
    cases hdepth
  · rw [depth, hlevels, List.length_cons] at hdepth
    rw [paramsAt_cons, if_pos (Nat.succ.inj hdepth).symm]
    rfl

/-- An operation that writes to the top frame, as it says. -/
theorem paramsAt_of_write {operation : Operation} {change : Frame → Frame}
    (hwrite : ∀ f, t.topFrame? = some f → (change f).params = operation.write f.params)
    (hlt : height < t.depth) :
    paramsAt (t.modifyTopFrame change).levels height =
      (Deed.mk operation t.depth (t.modifyTopFrame change).depth false).revise height
        (paramsAt t.levels height) := by
  rw [paramsAt_modifyTopFrame, Deed.revise, if_neg (not_disturbs_modifyTopFrame hlt)]
  by_cases htop : t.depth = height + 1
  · rw [if_pos htop, if_pos htop, paramsAt_top htop]
    rcases hframe : t.topFrame? with - | f
    · rw [topFrame?, Option.map_eq_none_iff, List.head?_eq_none_iff] at hframe
      rw [depth, hframe] at htop
      cases htop
    · exact hwrite f hframe
  · rw [if_neg htop, if_neg htop]

/-- A stop wipes out the parameters of the levels that it pops and of the call that it steps over,
and no others. -/
theorem paramsAt_stopScript (hstop : t.stopScript w = .ok t') (height : Nat) :
    paramsAt t'.levels height =
      if (t.deed w .stopScript t').disturbs height then none else paramsAt t.levels height := by
  obtain ⟨t₁, hunwind, rfl⟩ := exists_of_map_eq_ok hstop
  have hsettle : t₁.settle.levels = t₁.levels ∧ t₁.settle.target = t₁.target := by
    rw [settle]
    split
    · exact ⟨rfl, rfl⟩
    · exact ⟨rfl, rfl⟩
  rw [deed, renews]
  rcases unwind_cases t.depth (Nat.le_refl _) hunwind with
    hnil | ⟨upper, level, below, hbefore, hcases⟩
  · have hdepth : t₁.settle.depth = 0 := by rw [depth, hsettle.1, hnil, List.length_nil]
    rw [hsettle.1, hnil, if_pos]
    · rfl
    · rw [hdepth]
      exact .inl (Nat.zero_le _)
  · have hindex : ∀ rest : List InlineLevel, t₁.settle.levels = rest →
        rest.length = below.length + 1 → t.levels[t.depth - t₁.settle.depth]? = some level := by
      intro rest hrest hlength
      have hup : t.depth - t₁.settle.depth = upper.length := by
        rw [depth, depth, hrest, hlength, hbefore, List.length_append, List.length_cons,
          Nat.add_sub_cancel]
      rw [hup, hbefore, List.getElem?_append_right (Nat.le_refl _), Nat.sub_self]
      rfl
    rcases hcases with ⟨hwaiting, hafter⟩ | ⟨hwaiting, hcall, block, hafter⟩
    · rw [← hsettle.1] at hafter
      have hstepped : t.steppedOver w t₁.settle = false := by
        rw [steppedOver, hindex _ hafter rfl, Option.any_some, hwaiting]
        rfl
      rw [hstepped]
      refine paramsAt_of_drop upper.length ?_ .stopScript height
      rw [hafter, hbefore, List.drop_left]
    · rw [← hsettle.1] at hafter
      have hstepped : t.steppedOver w t₁.settle = true := by
        rw [steppedOver, hindex _ hafter rfl, Option.any_some, hwaiting, isCall, hsettle.2]
        exact hcall
      rw [hstepped]
      exact paramsAt_of_renewed upper hbefore hafter .stopScript height

/-- **What an operation does to the parameters of every level.** Writing to a frame must not be used
to change its parameters. -/
theorem paramsAt_operate {operation : Operation}
    (hwrites : ∀ change, operation = .modifyTopFrame change → ∀ f, (change f).params = f.params)
    (h : t.operate w operation = .ok (given, t')) (height : Nat) :
    paramsAt t'.levels height =
      (t.deed w operation t').revise height (paramsAt t.levels height) := by
  -- Nothing is there above the top level, before as after.
  by_cases habove : t'.depth ≤ height
  · rw [paramsAt_of_length_le habove, Deed.revise, if_pos (.inl habove)]
  rw [Nat.not_le] at habove
  cases operation with
  | push block target =>
    cases h
    rw [revise_of_idle fun _ ↦ rfl]
    obtain ⟨level, hparams, hlevels⟩ := t.exists_levels_push block target
    have hkept : ¬(t.deed w (.push block target) (t.push block target)).disturbs height := by
      rintro (hle | ⟨hrenews, -⟩)
      · exact Nat.not_lt.2 hle habove
      · cases hrenews
    rw [if_neg hkept, hlevels, paramsAt_cons]
    split
    · -- The new level has none, and there was no level before.
      rename_i htop
      rw [hparams, paramsAt_of_length_le (Nat.le_of_eq htop.symm)]
    · rfl
  | pop =>
    rw [revise_of_idle fun _ ↦ rfl]
    exact paramsAt_of_drop 1 ((levels_of_pop h).trans List.drop_one.symm) .pop height
  | reuse block =>
    obtain ⟨t₁, hreuse, ⟨⟩⟩ := exists_of_map_eq_ok h
    obtain ⟨level, rest, hlevels, rfl⟩ := exists_of_reuse hreuse
    rw [revise_of_idle fun _ ↦ rfl]
    exact paramsAt_of_renewed [] hlevels rfl (.reuse block) height
  | advance =>
    obtain ⟨t₁, hreuse, ⟨⟩⟩ := exists_of_map_eq_ok h
    obtain ⟨level, rest, hlevels, rfl⟩ := exists_of_reuse hreuse
    rw [revise_of_idle fun _ ↦ rfl]
    exact paramsAt_of_renewed [] hlevels rfl .advance height
  | stopScript =>
    obtain ⟨t₁, hstop, ⟨⟩⟩ := exists_of_map_eq_ok h
    rw [revise_of_idle fun _ ↦ rfl]
    exact paramsAt_stopScript hstop height
  | pushTarget target =>
    cases h
    rw [revise_of_idle fun _ ↦ rfl]
    exact paramsAt_of_drop 0 rfl (.pushTarget target) height
  | popTarget =>
    obtain ⟨t₁, hpop, ⟨⟩⟩ := exists_of_map_eq_ok h
    rw [revise_of_idle fun _ ↦ rfl]
    refine paramsAt_of_drop 0 ?_ .popTarget height
    rw [popTarget] at hpop
    split at hpop
    · cases hpop
    · cases hpop
      rfl
  | initParams =>
    cases h
    rw [initParams, depth_modifyTopFrame] at habove
    exact paramsAt_of_write (fun f _ ↦ rfl) habove
  | setParam name value =>
    obtain ⟨t₁, hset, ⟨⟩⟩ := exists_of_map_eq_ok h
    obtain ⟨hnil, rfl⟩ | ⟨frame, params, hframe, hparams, rfl⟩ := setParam_cases hset
    · rw [depth, hnil] at habove
      cases habove
    · rw [depth_modifyTopFrame] at habove
      refine paramsAt_of_write (fun f hf ↦ ?_) habove
      obtain rfl : f = frame := Option.some.inj (hf.symm.trans hframe)
      rw [hparams]
      rfl
  | modifyTopFrame change =>
    cases h
    rw [depth_modifyTopFrame] at habove
    exact paramsAt_of_write (fun f _ ↦ hwrites change rfl f) habove

end InlineThread

end BlockScript
