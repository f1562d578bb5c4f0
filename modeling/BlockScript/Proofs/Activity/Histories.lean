import BlockScript.Proofs.Thread.Parameters

/-!
# Parameters and the history of a thread

Which parameter a thread sees is a matter of its history. `Schedule.deeds` is what is remembered of
the operations on one thread while many threads are operated on. Three questions are asked of it:

* whether a level was given parameters since it was pushed or last renewed (`HasParams`),
* what was last written to one of them (`LastWrote`),
* and which of the levels below the top one is the highest with parameters (`Provides`).

All are of one kind: something happened once, and nothing of another kind has happened since
(`Since`). So they are settled by looking at the last deed (`since_snoc`), and by induction on the
operations the parameters that every level has are those that the deeds tell of
(`Recalls.operate`, `Recalls.play`). Other threads take part in the induction only in that they
leave this thread alone.
-/

namespace BlockScript

/-! ### Since -/

/-- Something happened, and everything after it was of a certain kind. -/
def Since {α : Type} (what kept : α → Prop) (events : List α) : Prop :=
  ∃ earlier event later, events = earlier ++ event :: later ∧ what event ∧ ∀ x ∈ later, kept x

theorem not_since_nil {α : Type} {what kept : α → Prop} : ¬Since what kept [] := by
  rintro ⟨earlier, event, later, hsplit, -⟩
  exact List.append_ne_nil_of_right_ne_nil earlier (List.cons_ne_nil event later) hsplit.symm

/-- It happened just now, or before, and then the last event was of the kind. -/
theorem since_snoc {α : Type} {what kept : α → Prop} {events : List α} {last : α} :
    Since what kept (events ++ [last]) ↔ what last ∨ Since what kept events ∧ kept last := by
  constructor
  · rintro ⟨earlier, event, later, hsplit, hwhat, hkept⟩
    rcases List.eq_nil_or_concat later with rfl | ⟨later, final, rfl⟩
    · obtain ⟨-, hlast⟩ := List.append_inj' hsplit rfl
      obtain rfl := List.singleton_injective hlast
      exact .inl hwhat
    · rw [List.concat_eq_append] at hsplit hkept
      rw [← List.cons_append, ← List.append_assoc] at hsplit
      obtain ⟨rfl, hlast⟩ := List.append_inj' hsplit rfl
      obtain rfl := List.singleton_injective hlast
      obtain ⟨hlater, hfinal⟩ := List.forall_mem_append.1 hkept
      exact .inr ⟨⟨earlier, event, later, rfl, hwhat, hlater⟩, hfinal last List.mem_cons_self⟩
  · rintro (hwhat | ⟨⟨earlier, event, later, rfl, hwhat, hkept⟩, hlast⟩)
    · exact ⟨events, last, [], rfl, hwhat, List.forall_mem_nil _⟩
    · refine ⟨earlier, event, later ++ [last], ?_, hwhat, ?_⟩
      · rw [List.append_assoc, List.cons_append]
      · exact List.forall_mem_append.2 ⟨hkept, List.forall_mem_singleton.2 hlast⟩

/-! ### What the deeds tell of a level -/

namespace Deed

/-- The level at a height, on top, is given parameters. -/
def gives (d : Deed) (height : Nat) : Prop :=
  d.operation = .initParams ∧ d.before = height + 1

/-- A parameter of the level at a height, on top, is written. -/
def writes (d : Deed) (height : Nat) (name : String) (value : Value) : Prop :=
  d.operation = .setParam name value ∧ d.before = height + 1

end Deed

/-- The level at a height was given parameters, and has been there since then without being
renewed. -/
def HasParams (deeds : List Deed) (height : Nat) : Prop :=
  Since (·.gives height) (fun d ↦ ¬d.disturbs height) deeds

/-- The last value that was written to a parameter of the level at a height, which has been there
since then without being renewed. -/
def LastWrote (deeds : List Deed) (height : Nat) (name : String) (value : Value) : Prop :=
  Since (·.writes height name value)
    (fun d ↦ ¬d.disturbs height ∧ ∀ other, ¬d.writes height name other) deeds

/-- **The level whose parameters are seen** from the top one: the highest below it that has any. -/
structure Provides (deeds : List Deed) (depth height : Nat) : Prop where
  /-- The level is below the top one. -/
  below : height + 1 < depth
  /-- It has parameters. -/
  hasParams : HasParams deeds height
  /-- No level between has. -/
  highest : ∀ higher, height < higher → higher + 1 < depth → ¬HasParams deeds higher

/-- **The parameters of the level at a height are those that the deeds tell of.** -/
structure Recalls (deeds : List Deed) (height : Nat) (params : Option (Table Value)) : Prop where
  /-- There are any if the level was given some. -/
  isSome_iff : params.isSome = true ↔ HasParams deeds height
  /-- And each has the value last written. -/
  get?_iff : ∀ name value, (params.bind fun params ↦ params.get? name) = some value ↔
    LastWrote deeds height name value

namespace Recalls

variable {past : List Deed} {height : Nat} {params : Option (Table Value)} {d : Deed}

theorem nil (height : Nat) : Recalls [] height none where
  isSome_iff := iff_of_false Bool.false_ne_true not_since_nil
  get?_iff _ value := iff_of_false (Option.some_ne_none value).symm not_since_nil

/-- A level that is disturbed has no parameters. -/
theorem disturbed (hdisturbs : d.disturbs height) (hgives : ¬d.gives height)
    (hwrites : ∀ name value, ¬d.writes height name value) : Recalls (past ++ [d]) height none where
  isSome_iff := by
    refine iff_of_false Bool.false_ne_true ?_
    rw [HasParams, since_snoc]
    rintro (hnow | ⟨-, hkept⟩)
    · exact hgives hnow
    · exact hkept hdisturbs
  get?_iff name value := by
    refine iff_of_false (Option.some_ne_none value).symm ?_
    rw [LastWrote, since_snoc]
    rintro (hnow | ⟨-, hkept, -⟩)
    · exact hwrites name value hnow
    · exact hkept hdisturbs

/-- A deed that has nothing to do with a level. -/
theorem idle (h : Recalls past height params) (hkept : ¬d.disturbs height)
    (hgives : ¬d.gives height) (hwrites : ∀ name value, ¬d.writes height name value) :
    Recalls (past ++ [d]) height params where
  isSome_iff := by
    rw [h.isSome_iff, HasParams, HasParams, since_snoc, or_iff_right hgives, and_iff_left hkept]
  get?_iff name value := by
    rw [h.get?_iff, LastWrote, LastWrote, since_snoc, or_iff_right (hwrites name value),
      and_iff_left ⟨hkept, hwrites name⟩]

/-- A level is given parameters, unless it has them already. -/
theorem given (h : Recalls past height params) (hkept : ¬d.disturbs height)
    (hgives : d.gives height) (hwrites : ∀ name value, ¬d.writes height name value) :
    Recalls (past ++ [d]) height (some (params.getD Table.empty)) where
  isSome_iff := iff_of_true rfl (since_snoc.2 (.inl hgives))
  get?_iff name value := by
    have hsame : ((some (params.getD Table.empty)).bind fun params ↦ params.get? name) =
        params.bind fun params ↦ params.get? name := by
      cases params with
      | none => exact Table.get?_empty name
      | some params => rfl
    rw [hsame, h.get?_iff, LastWrote, LastWrote, since_snoc, or_iff_right (hwrites name value),
      and_iff_left ⟨hkept, hwrites name⟩]

/-- A parameter of a level is written. -/
theorem written {own : Table Value} {name : String} {value : Value}
    (h : Recalls past height (some own)) (hkept : ¬d.disturbs height)
    (hwrites : d.writes height name value) :
    Recalls (past ++ [d]) height (some (own.insert name value)) where
  isSome_iff := by
    have hhad := h.isSome_iff.1 rfl
    refine iff_of_true rfl ?_
    rw [HasParams, since_snoc]
    exact .inr ⟨hhad, hkept⟩
  get?_iff name' value' := by
    have hhad := h.get?_iff name' value'
    rw [Option.bind_some] at hhad ⊢
    rw [Table.get?_insert, LastWrote, since_snoc]
    -- What this deed writes is one value of one parameter.
    have honly : ∀ name' value', d.writes height name' value' ↔ name' = name ∧ value' = value := by
      intro name' value'
      rw [Deed.writes, hwrites.1, and_iff_left hwrites.2]
      constructor
      · intro heq
        cases heq
        exact ⟨rfl, rfl⟩
      · rintro ⟨rfl, rfl⟩
        rfl
    by_cases hname : name' = name
    · subst hname
      rw [if_pos rfl, or_iff_left, honly, and_iff_right rfl]
      · exact ⟨fun heq ↦ (Option.some.inj heq).symm, fun heq ↦ congrArg some heq.symm⟩
      · rintro ⟨-, -, hnone⟩
        exact hnone value hwrites
    · rw [if_neg hname, hhad, or_iff_right, and_iff_left]
      · rfl
      · exact ⟨hkept, fun other hother ↦ hname ((honly name' other).1 hother).1⟩
      · exact fun hnow ↦ hname ((honly name' value').1 hnow).1

/-- A deed that gives and writes nothing on a level may have disturbed it. -/
theorem revised (h : Recalls past height params) (hgives : ¬d.gives height)
    (hwrites : ∀ name value, ¬d.writes height name value) :
    Recalls (past ++ [d]) height (if d.disturbs height then none else params) := by
  split
  · exact disturbed ‹_› hgives hwrites
  · exact h.idle ‹_› hgives hwrites

/-! ### Every operation -/

variable {w : World} {t t' : InlineThread} {operation : Operation} {block : Option BlockId}

/-- **One operation.** What a thread's deeds tell of a level is so again after one more. -/
theorem operate (h : Recalls past height (InlineLevel.paramsAt t.levels height))
    (hdirect : ∀ change, operation = .modifyTopFrame change → ∀ f, (change f).params = f.params)
    (hoperate : t.operate w operation = .ok (block, t')) :
    Recalls (past ++ [t.deed w operation t']) height (InlineLevel.paramsAt t'.levels height) := by
  rw [InlineThread.paramsAt_operate hdirect hoperate height, Deed.revise]
  by_cases htop : t.depth = height + 1
  · have hlt : height < t.depth := htop ▸ Nat.lt_succ_self height
    rw [if_pos (show (t.deed w operation t').before = height + 1 from htop)]
    cases operation with
    | initParams =>
      cases hoperate
      have hkept : ¬(t.deed w .initParams t.initParams).disturbs height :=
        InlineThread.not_disturbs_modifyTopFrame hlt
      rw [if_neg hkept]
      exact h.given hkept ⟨rfl, htop⟩ fun _ _ hwrites ↦ Operation.noConfusion hwrites.1
    | setParam name value =>
      obtain ⟨t₁, hset, ⟨⟩⟩ := exists_of_map_eq_ok hoperate
      obtain ⟨hnil, -⟩ | ⟨frame, own, hframe, hown, rfl⟩ := InlineThread.setParam_cases hset
      · rw [InlineThread.depth, hnil] at htop
        cases htop
      · -- The level has parameters, or setting one of them would have failed.
        rw [InlineThread.paramsAt_top htop, hframe, Option.bind_some, hown] at h ⊢
        have hkept : ¬(t.deed w (.setParam name value) (t.modifyTopFrame fun frame ↦
            { frame with params := some (own.insert name value) })).disturbs height :=
          InlineThread.not_disturbs_modifyTopFrame hlt
        rw [if_neg hkept]
        exact h.written hkept ⟨rfl, htop⟩
    | _ =>
      exact h.revised (fun hgives ↦ Operation.noConfusion hgives.1)
        fun _ _ hwrites ↦ Operation.noConfusion hwrites.1
  · have hidle : ¬(t.deed w operation t').before = height + 1 := htop
    rw [if_neg hidle]
    exact h.revised (fun hgives ↦ hidle hgives.2) fun _ _ hwrites ↦ hidle hwrites.2

end Recalls

/-! ### The deeds of one thread among many -/

namespace Schedule

/-- **The deeds of the thread at a position** while moves are made, in order, until one of them
fails. -/
def deeds (position : Nat) : Schedule → List (Nat × Operation) → List Deed
  | _, [] => []
  | s, (moved, operation) :: rest =>
    match s.move moved operation with
    | .error _ => []
    | .ok (_, s') =>
      match s.threads[position]?, s'.threads[position]? with
      | some t, some t' =>
        if moved = position then
          (t.inline s.engine.pool).deed s.engine.world operation (t'.inline s'.engine.pool) ::
            deeds position s' rest
        else deeds position s' rest
      | _, _ => deeds position s' rest

/-- **A whole play.** What a thread's deeds tell of a level is so at the end, whatever other threads
do. -/
theorem recalls_deeds {position height : Nat} (moves : List (Nat × Operation)) :
    ∀ {w : World} {s s' : Schedule} {ts : List InlineThread} {t t' : Thread} {past : List Deed}
      {answers : List (Nat × Option BlockId)}, Mirrored w s ts →
      s.threads[position]? = some t →
      Recalls past height (InlineLevel.paramsAt (t.inline s.engine.pool).levels height) →
      (∀ change, (position, .modifyTopFrame change) ∈ moves → ∀ f, (change f).params = f.params) →
      s.play moves = .ok (answers, s') → s'.threads[position]? = some t' →
        Recalls (past ++ s.deeds position moves) height
          (InlineLevel.paramsAt (t'.inline s'.engine.pool).levels height) := by
  induction moves with
  | nil =>
    intro w s s' ts t t' past answers hs ht h hdirect hplay ht'
    cases hplay
    obtain rfl := Option.some.inj (ht.symm.trans ht')
    rw [deeds, List.append_nil]
    exact h
  | cons move rest ih =>
    obtain ⟨moved, operation⟩ := move
    intro w s s' ts t t' past answers hs ht h hdirect hplay ht'
    obtain ⟨⟨given, s₁⟩, hmove, hplay⟩ := exists_of_bind_eq_ok hplay
    obtain ⟨⟨further, s₂⟩, hrest, ⟨⟩⟩ := exists_of_bind_eq_ok hplay
    have hagree := hs.move moved operation
    rw [hmove] at hagree
    obtain ⟨⟨given', ts₁⟩, hmoveAt, -, hs₁⟩ := hagree.exists_right
    have hinline : ts[position]? = some (t.inline s.engine.pool) := by
      rw [hs.getElem?, ht, Option.map_some]
    have hdirect' : ∀ change, (position, .modifyTopFrame change) ∈ rest →
        ∀ f, (change f).params = f.params :=
      fun change hmem ↦ hdirect change (List.mem_cons_of_mem _ hmem)
    rw [deeds, hmove]
    dsimp only
    by_cases hposition : moved = position
    · subst hposition
      obtain ⟨t₁', hoperate, ht₁'⟩ := InlineThread.operate_of_moveAt hinline hmoveAt
      rw [hs₁.getElem?] at ht₁'
      obtain ⟨t₁, ht₁, rfl⟩ := Option.map_eq_some_iff.1 ht₁'
      have h₁ := h.operate (fun change heq ↦ hdirect change (heq ▸ List.mem_cons_self)) hoperate
      rw [ht, ht₁]
      dsimp only
      rw [if_pos rfl, hs.world, List.append_cons]
      exact ih hs₁ ht₁ h₁ hdirect' hrest ht'
    · -- The move may have changed the pool, but not what this thread looks like.
      have hsame := InlineThread.getElem?_moveAt_of_ne hposition hmoveAt
      rw [hinline, hs₁.getElem?] at hsame
      obtain ⟨t₁, ht₁, hlooks⟩ := Option.map_eq_some_iff.1 hsame
      rw [ht, ht₁]
      dsimp only
      rw [if_neg hposition]
      refine ih hs₁ ht₁ ?_ hdirect' hrest ht'
      rw [hlooks]
      exact h

end Schedule

/-- What a thread sees, if every level has the parameters that the deeds tell of. -/
theorem InlineThread.param?_eq_some_iff {t : InlineThread} {deeds : List Deed}
    (h : ∀ height, Recalls deeds height (InlineLevel.paramsAt t.levels height)) (name : String)
    (value : Value) : t.param? name = some value ↔
      ∃ height, Provides deeds t.depth height ∧ LastWrote deeds height name value := by
  have htail : ∀ height, InlineLevel.paramsAt t.levels.tail height =
      if height + 1 < t.depth then InlineLevel.paramsAt t.levels height else none := by
    intro height
    rw [← List.drop_one, InlineLevel.paramsAt_drop]
    exact if_congr Nat.lt_sub_iff_add_lt rfl rfl
  have hnone : ∀ height, ¬HasParams deeds height ↔
      InlineLevel.paramsAt t.levels height = none := by
    intro height
    rw [← (h height).isSome_iff, Bool.not_eq_true, Option.isSome_eq_false_iff,
      Option.isNone_iff_eq_none]
  rw [InlineThread.param?, Option.bind_eq_some_iff]
  constructor
  · rintro ⟨params, hnearest, hget⟩
    obtain ⟨height, hparams, hhigher⟩ := InlineLevel.findSome?_params_eq_some_iff.1 hnearest
    rw [htail] at hparams
    split at hparams
    · rename_i hbelow
      have hrecalls := h height
      rw [hparams] at hrecalls
      refine ⟨height, ⟨hbelow, hrecalls.isSome_iff.1 rfl, ?_⟩,
        (hrecalls.get?_iff name value).1 hget⟩
      intro higher hlt hbelow'
      have habove := hhigher higher hlt
      rw [htail, if_pos hbelow'] at habove
      exact (hnone higher).2 habove
    · cases hparams
  · rintro ⟨height, hprovides, hwrote⟩
    have hget := ((h height).get?_iff name value).2 hwrote
    obtain ⟨params, hparams, hvalue⟩ := Option.bind_eq_some_iff.1 hget
    refine ⟨params, InlineLevel.findSome?_params_eq_some_iff.2 ⟨height, ?_, ?_⟩, hvalue⟩
    · rw [htail, if_pos hprovides.below, hparams]
    · intro higher hlt
      rw [htail]
      split
      · exact (hnone higher).1 (hprovides.highest higher hlt ‹_›)
      · rfl

namespace Schedule

/-- **Parameters by history.** Let any threads share an engine and let any operations be made on
them, of which only those on one thread must not write to a frame's parameters directly. What this
thread sees of a parameter is decided by its own deeds: among the levels below the top one that were
given parameters since they were pushed or last renewed it is the highest that counts, and there the
last value that was written since. -/
theorem param?_iff_history {e : Engine} (hpool : e.pool = Pool.empty)
    {scripts : List (BlockId × TargetId)} {moves : List (Nat × Operation)}
    {answers : List (Nat × Option BlockId)} {s : Schedule}
    (hplay : (fresh e scripts).play moves = .ok (answers, s)) {position : Nat} {t : Thread}
    (ht : s.threads[position]? = some t)
    (hdirect : ∀ change, (position, .modifyTopFrame change) ∈ moves →
      ∀ f, (change f).params = f.params) (name : String) :
    ∃ found, Activity.param? ⟨s.engine, t⟩ name = .ok found ∧
      ∀ value, found = some value ↔
        ∃ height, Provides ((fresh e scripts).deeds position moves) t.depth height ∧
          LastWrote ((fresh e scripts).deeds position moves) height name value := by
  have hfresh := Mirrored.fresh hpool scripts
  have hagree := Mirrored.play moves hfresh
  rw [hplay] at hagree
  obtain ⟨⟨answers', ts⟩, hall, -, hs⟩ := hagree.exists_right
  -- The thread was there from the start, without any level.
  have hlt : position < (fresh e scripts).threads.length := by
    rw [← hfresh.length_eq, ← InlineThread.length_playAll hall, hs.length_eq]
    exact (List.getElem?_eq_some_iff.1 ht).1
  obtain ⟨t₀, ht₀⟩ : ∃ t₀, (fresh e scripts).threads[position]? = some t₀ :=
    ⟨_, List.getElem?_eq_getElem hlt⟩
  have hempty : t₀.levels = [] := by
    obtain ⟨script, -, rfl⟩ := List.mem_map.1 (List.mem_of_getElem? ht₀)
    rfl
  have hrecalls : ∀ height, Recalls ((fresh e scripts).deeds position moves) height
      (InlineLevel.paramsAt (t.inline s.engine.pool).levels height) := by
    intro height
    have hstart : Recalls [] height
        (InlineLevel.paramsAt (t₀.inline (fresh e scripts).engine.pool).levels height) := by
      rw [Thread.inline, hempty]
      exact .nil height
    exact recalls_deeds moves hfresh ht₀ hstart hdirect hplay ht
  refine ⟨_, (hs.activity ht).param? name, fun value ↦ ?_⟩
  rw [InlineThread.param?_eq_some_iff hrecalls, ← (hs.activity ht).depth_eq]

/-- A thread gives its first level a parameter. Another one gives a level of its own the same
parameter and pops it, and the first thread takes its frame for the next level. -/
def handDown : List (Nat × Operation) :=
  [(0, .push "a" none), (0, .initParams), (0, .setParam "x" (.integer 1)), (1, .push "c" none),
    (1, .initParams), (1, .setParam "x" (.integer 2)), (1, .pop), (0, .push "b" none),
    (0, .push "d" none)]

/-- The level in between has no parameters, whatever its frame was used for, and the first level is
the one that counts. -/
theorem param?_iff_history_handDown :
    ∃ answers s t, (fresh { settings := ⟨30, 0, 0, false⟩ } [("a", ⟨0⟩), ("c", ⟨0⟩)]).play
        handDown = .ok (answers, s) ∧ s.threads[0]? = some t ∧ t.frames = [⟨2⟩, ⟨1⟩, ⟨0⟩] ∧
      Activity.param? ⟨s.engine, t⟩ "x" = .ok (some (.integer 1)) ∧
      ∃ height, Provides ((fresh { settings := ⟨30, 0, 0, false⟩ } [("a", ⟨0⟩), ("c", ⟨0⟩)]).deeds
          0 handDown) 3 height ∧
        LastWrote ((fresh { settings := ⟨30, 0, 0, false⟩ } [("a", ⟨0⟩), ("c", ⟨0⟩)]).deeds
          0 handDown) height "x" (.integer 1) := by
  have hfacts : ((fresh { settings := ⟨30, 0, 0, false⟩ } [("a", ⟨0⟩), ("c", ⟨0⟩)]).play
      handDown).map (fun result ↦ (result.2.threads[0]?).map fun t ↦
        (t.frames, Activity.param? ⟨result.2.engine, t⟩ "x")) =
      .ok (some ([⟨2⟩, ⟨1⟩, ⟨0⟩], .ok (some (.integer 1)))) := by
    decide +kernel
  obtain ⟨⟨answers, s⟩, hplay, hfacts⟩ := exists_of_map_eq_ok hfacts
  obtain ⟨t, ht, hfacts⟩ := Option.map_eq_some_iff.1 hfacts
  obtain ⟨hframes, hparam⟩ := Prod.mk.inj hfacts
  have hdepth : t.depth = 3 := by
    rw [Thread.depth, ← List.length_map Level.frame, ← Thread.frames, hframes]
    rfl
  obtain ⟨found, hfound, hiff⟩ := param?_iff_history rfl hplay ht
    (fun change hmem ↦ by simp [handDown] at hmem) "x"
  obtain rfl : some (.integer 1) = found := Except.ok.inj (hparam.symm.trans hfound)
  exact ⟨answers, s, t, hplay, ht, hframes, hparam, hdepth ▸ (hiff _).1 rfl⟩

end Schedule

end BlockScript
