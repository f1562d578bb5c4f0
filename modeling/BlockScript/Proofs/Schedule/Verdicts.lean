import BlockScript.Proofs.Schedule.Circles
import BlockScript.Proofs.Thread.Chains

/-!
# What a compiler of straight lines says of a script

The script below a block is a **sequence**: the block, its next block, the next block of that one,
and so on, each looked up in the target of the script first and then in every other
(`World.sequence`). It may end, come to an identifier that is in no target, or go on for ever, and
it may hold blocks that a compiler of straight lines cannot take (`World.Accepts`).

The compiler judges the sequence as a whole and in order (`World.Judged`). If the sequence ends and
every block of it is acceptable, the program is the sequence; otherwise the error is that of the
**first** offence, whatever comes after it (`World.Offends`). This pins the result down: the
compiler comes to a result just when the sequence is judged so (`compile_eq_ok_iff_judged`). Which
sequences it comes to no result for is said in `BlockScript.Proofs.Schedule.Circles`.

No program holds a block twice. The sequence is determined by the block that it has come to, so one
that came back to a block would not end.
-/

namespace BlockScript

namespace World

variable {w : World} {target : TargetId} {top id id' : BlockId} {p : Program} {cause : CompileError}

/-! ### The sequence of a block -/

/-- **The sequence of a block**: the block itself, and then the next block of the one before, as it
is found. -/
def sequence (w : World) (target : TargetId) (top : BlockId) : Nat → Option BlockId
  | 0 => some top
  | n + 1 => (w.sequence target top n).bind fun id ↦ (w.resolve? target id).bind Block.next

/-- After the first block comes the sequence of its next block. -/
theorem sequence_succ (w : World) (target : TargetId) (top : BlockId) (n : Nat) :
    w.sequence target top (n + 1) =
      ((w.resolve? target top).bind Block.next).bind fun id ↦ w.sequence target id n := by
  induction n with
  | zero =>
    rw [sequence, sequence, Option.bind_some]
    cases (w.resolve? target top).bind Block.next <;> rfl
  | succ n ih =>
    rw [sequence, ih, Option.bind_assoc]
    rfl

theorem sequence_succ_of_next {b : Block} (hb : w.resolve? target id = some b)
    (hnext : b.next = some id') (n : Nat) :
    w.sequence target id (n + 1) = w.sequence target id' n := by
  rw [sequence_succ, hb, Option.bind_some, hnext, Option.bind_some]

theorem sequence_succ_of_last {b : Block} (hb : w.resolve? target id = some b)
    (hnext : b.next = none) (n : Nat) : w.sequence target id (n + 1) = none := by
  rw [sequence_succ, hb, Option.bind_some, hnext, Option.bind_none]

/-! ### What is acceptable -/

/-- **A block is acceptable** to a compiler of straight lines: it is found, its slot for enclosed
blocks is not there, whatever might be in it, and its opcode is not one of those that have to do
with procedures. -/
def Accepts (w : World) (target : TargetId) (id : BlockId) : Prop :=
  ∃ b, w.resolve? target id = some b ∧ b.inputs.get? Block.substackSlot = none ∧
    ¬StraightLine.procedureMark.toList <+: b.opcode.toList

/-- **What a compiler of straight lines finds wrong** with a block. -/
inductive Offends (w : World) (target : TargetId) (id : BlockId) : CompileError → Prop
  /-- It is in no target. -/
  | missing (h : w.resolve? target id = none) : Offends w target id (.missingBlock id)
  /-- It has a slot for enclosed blocks. -/
  | slot {b : Block} {input : Input} (hb : w.resolve? target id = some b)
      (h : b.inputs.get? Block.substackSlot = some input) :
      Offends w target id (.unsupported id b.opcode)
  /-- It has to do with procedures. -/
  | procedure {b : Block} (hb : w.resolve? target id = some b)
      (h : StraightLine.procedureMark.toList <+: b.opcode.toList) :
      Offends w target id (.unsupported id b.opcode)

/-- What the compiler asks of a block that it has found. -/
theorem isUnsupported_eq_false_iff {b : Block} : StraightLine.isUnsupported b = false ↔
    b.inputs.get? Block.substackSlot = none ∧
      ¬StraightLine.procedureMark.toList <+: b.opcode.toList := by
  rw [StraightLine.isUnsupported, Bool.or_eq_false_iff, Table.contains, Option.isSome_eq_false_iff,
    Option.isNone_iff_eq_none, ← Bool.not_eq_true, List.isPrefixOf_iff_prefix]

theorem accepts_iff (hb : w.resolve? target id = some b) :
    w.Accepts target id ↔ StraightLine.isUnsupported b = false := by
  rw [isUnsupported_eq_false_iff]
  constructor
  · rintro ⟨b', hb', haccepts⟩
    obtain rfl := Option.some.inj (hb.symm.trans hb')
    exact haccepts
  · exact fun haccepts ↦ ⟨b, hb, haccepts⟩

theorem offends_iff_of_resolve? {b : Block} (hb : w.resolve? target id = some b) :
    w.Offends target id cause ↔
      StraightLine.isUnsupported b = true ∧ cause = .unsupported id b.opcode := by
  rw [StraightLine.isUnsupported, Bool.or_eq_true, Table.contains, Option.isSome_iff_exists,
    List.isPrefixOf_iff_prefix]
  constructor
  · intro h
    cases h with
    | missing hmissing => cases hb.symm.trans hmissing
    | slot hb' hslot =>
      obtain rfl := Option.some.inj (hb.symm.trans hb')
      exact ⟨.inl ⟨_, hslot⟩, rfl⟩
    | procedure hb' hmark =>
      obtain rfl := Option.some.inj (hb.symm.trans hb')
      exact ⟨.inr hmark, rfl⟩
  · rintro ⟨⟨input, hslot⟩ | hmark, rfl⟩
    · exact .slot hb hslot
    · exact .procedure hb hmark

theorem offends_iff_of_missing (hmissing : w.resolve? target id = none) :
    w.Offends target id cause ↔ cause = .missingBlock id := by
  constructor
  · intro h
    cases h with
    | missing _ => rfl
    | slot hb _ => cases hb.symm.trans hmissing
    | procedure hb _ => cases hb.symm.trans hmissing
  · rintro rfl
    exact .missing hmissing

/-- A block with an offence is not acceptable. -/
theorem Offends.not_accepts (h : w.Offends target id cause) : ¬w.Accepts target id := by
  rintro ⟨b, hb, hslot, hmark⟩
  have hoffends := (offends_iff_of_resolve? hb).1 h
  rw [isUnsupported_eq_false_iff.2 ⟨hslot, hmark⟩] at hoffends
  cases hoffends.1

/-! ### Judgements -/

/-- The first offence of a sequence: every block before it is acceptable. -/
def FirstOffence (w : World) (target : TargetId) (top : BlockId) (cause : CompileError) : Prop :=
  ∃ n id, w.sequence target top n = some id ∧ w.Offends target id cause ∧
    ∀ m < n, ∃ id', w.sequence target top m = some id' ∧ w.Accepts target id'

/-- **A sequence is judged**, with this result. -/
structure Judged (w : World) (target : TargetId) (top : BlockId)
    (result : Except CompileError Program) : Prop where
  /-- There is a program just when the sequence ends and every block of it is acceptable. -/
  ok_iff : (∃ p, result = .ok p) ↔ (∃ n, w.sequence target top n = none) ∧
    ∀ n id, w.sequence target top n = some id → w.Accepts target id
  /-- The program is the sequence. It starts with the first block, and holds no block twice. -/
  program : ∀ {p : Program}, result = .ok p → (∀ n : Nat, p[n]? = w.sequence target top n) ∧
    (∃ rest, p = top :: rest) ∧ p.Nodup
  /-- An error is the one of the first offence. -/
  offence : ∀ {cause : CompileError}, result = .error cause → w.FirstOffence target top cause
  /-- There is no error of any other kind. -/
  not_other : ∀ reason, result ≠ .error (.other reason)

/-- A first offence is never of another kind. -/
theorem FirstOffence.ne_other (h : w.FirstOffence target top cause) (reason : String) :
    cause ≠ .other reason := by
  obtain ⟨n, id, -, hoffends, -⟩ := h
  cases hoffends <;> exact CompileError.noConfusion

/-- An acceptable block before a sequence does not change the first offence. -/
theorem firstOffence_iff_of_links (hlink : w.Links target id id') :
    w.FirstOffence target id cause ↔ w.FirstOffence target id' cause := by
  obtain ⟨b, hb, hsupported, hnext⟩ := hlink
  have haccepts : w.Accepts target id := (accepts_iff hb).2 hsupported
  have hsucc := sequence_succ_of_next hb hnext
  constructor
  · rintro ⟨- | n, far, hfar, hoffends, hbefore⟩
    · obtain rfl : id = far := Option.some.inj hfar
      exact absurd haccepts hoffends.not_accepts
    · refine ⟨n, far, (hsucc n).symm.trans hfar, hoffends, fun m hlt ↦ ?_⟩
      rw [← hsucc m]
      exact hbefore (m + 1) (Nat.succ_lt_succ hlt)
  · rintro ⟨n, far, hfar, hoffends, hbefore⟩
    refine ⟨n + 1, far, (hsucc n).trans hfar, hoffends, ?_⟩
    rintro (- | m) hlt
    · exact ⟨id, rfl, haccepts⟩
    · rw [hsucc m]
      exact hbefore m (Nat.lt_of_succ_lt_succ hlt)

/-- Where there is no link, the first offence is that of the block itself. -/
theorem firstOffence_iff_of_not_links (hnone : ∀ id', ¬w.Links target id id') :
    w.FirstOffence target id cause ↔ w.Offends target id cause := by
  constructor
  · rintro ⟨- | n, far, hfar, hoffends, hbefore⟩
    · obtain rfl : id = far := Option.some.inj hfar
      exact hoffends
    · -- An acceptable block has no next block here, so that the sequence would have ended.
      obtain ⟨only, hid, b, hb, hslot, hmark⟩ := hbefore 0 (Nat.succ_pos n)
      obtain rfl : id = only := Option.some.inj hid
      rcases hnext : b.next with - | id'
      · rw [sequence_succ_of_last hb hnext] at hfar
        cases hfar
      · exact absurd ⟨b, hb, isUnsupported_eq_false_iff.2 ⟨hslot, hmark⟩, hnext⟩ (hnone id')
  · exact fun hoffends ↦ ⟨0, id, rfl, hoffends, fun m hlt ↦ absurd hlt (Nat.not_lt_zero m)⟩

end World

/-! ### Chains and sequences -/

namespace Chain

variable {w : World} {target : TargetId} {id : BlockId} {p : Program}

/-- A chain is the sequence of its first block. -/
theorem getElem?_eq (h : Chain w target id p) (n : Nat) : p[n]? = w.sequence target id n := by
  induction h generalizing n with
  | last hb _ hnext =>
    cases n with
    | zero => rfl
    | succ n => exact (World.sequence_succ_of_last hb hnext n).symm
  | cons hb _ hnext _ ih =>
    cases n with
    | zero => rfl
    | succ n => exact (ih n).trans (World.sequence_succ_of_next hb hnext n).symm

/-- Every block of a chain is acceptable. -/
theorem accepts (h : Chain w target id p) : ∀ id' ∈ p, w.Accepts target id' := by
  induction h with
  | last hb hsupported _ => exact List.forall_mem_singleton.2 ((World.accepts_iff hb).2 hsupported)
  | cons hb hsupported _ _ ih =>
    exact List.forall_mem_cons.2 ⟨(World.accepts_iff hb).2 hsupported, ih⟩

theorem exists_eq_cons (h : Chain w target id p) : ∃ rest, p = id :: rest := by
  cases h <;> exact ⟨_, rfl⟩

/-- The blocks of a chain are linked. -/
theorem isChain (h : Chain w target id p) : p.IsChain (w.Links target) := by
  induction h with
  | last _ _ _ => exact .singleton _
  | cons hb hsupported hnext hrest ih =>
    obtain ⟨rest, rfl⟩ := hrest.exists_eq_cons
    exact ih.cons_cons ⟨_, hb, hsupported, hnext⟩

/-- A sequence of acceptable blocks that ends is a chain. -/
theorem of_sequence : ∀ {id : BlockId}, (∀ n : Nat, p[n]? = w.sequence target id n) →
    (∀ id' ∈ p, w.Accepts target id') → Chain w target id p := by
  induction p with
  | nil =>
    intro id hp _
    cases hp 0
  | cons first rest ih =>
    intro id hp haccepts
    obtain rfl : first = id := Option.some.inj (hp 0)
    rw [List.forall_mem_cons] at haccepts
    obtain ⟨⟨b, hb, hslot, hmark⟩, hrest⟩ := haccepts
    have hsupported := World.isUnsupported_eq_false_iff.2 ⟨hslot, hmark⟩
    rcases hnext : b.next with - | id'
    · have hend : rest[0]? = none := (hp 1).trans (World.sequence_succ_of_last hb hnext 0)
      obtain rfl := List.length_eq_zero_iff.1 (Nat.le_zero.1 (List.getElem?_eq_none_iff.1 hend))
      exact .last hb hsupported hnext
    · refine .cons hb hsupported hnext (ih (fun n ↦ ?_) hrest)
      exact (hp (n + 1)).trans (World.sequence_succ_of_next hb hnext n)

end Chain

/-! ### What following the sequence gives -/

namespace StraightLine

variable {e : Engine} {target : TargetId} {top id : BlockId} {p : Program} {cause : CompileError}

/-- A chain is followed to its end. -/
theorem exists_follow_of_chain (h : Chain e.world target id p) :
    ∃ steps, follow e target steps id = .ok (.ok p) := by
  induction h with
  | @last id b hb hsupported hnext =>
    rw [Engine.resolve?_world] at hb
    refine ⟨1, ?_⟩
    rw [follow, hb]
    dsimp only
    rw [hsupported, if_neg Bool.false_ne_true, hnext]
  | cons hb hsupported hnext _ ih =>
    obtain ⟨steps, hsteps⟩ := ih
    exact ⟨steps + 1, by rw [follow_of_links ⟨_, hb, hsupported, hnext⟩, hsteps]; rfl⟩

/-- At a block with an offence the sequence is given up. -/
theorem follow_of_offends (h : e.world.Offends target id cause) (steps : Nat) :
    follow e target (steps + 1) id = .ok (.error cause) := by
  cases hb : e.world.resolve? target id with
  | none =>
    obtain rfl := (World.offends_iff_of_missing hb).1 h
    rw [Engine.resolve?_world] at hb
    rw [follow, hb]
  | some b =>
    obtain ⟨hunsupported, rfl⟩ := (World.offends_iff_of_resolve? hb).1 h
    rw [Engine.resolve?_world] at hb
    rw [follow, hb]
    exact if_pos hunsupported

/-- **The first offence is found**: by induction on the number of blocks before it, each of which
links to the next one. -/
theorem exists_follow_of_firstOffence (h : e.world.FirstOffence target id cause) :
    ∃ steps, follow e target steps id = .ok (.error cause) := by
  obtain ⟨n, far, hfar, hoffends, hbefore⟩ := h
  induction n generalizing id with
  | zero =>
    obtain rfl : id = far := Option.some.inj hfar
    exact ⟨1, follow_of_offends hoffends 0⟩
  | succ n ih =>
    obtain ⟨first, hid, b, hb, hslot, hmark⟩ := hbefore 0 (Nat.succ_pos n)
    obtain rfl : id = first := Option.some.inj hid
    rcases hnext : b.next with - | id'
    · rw [World.sequence_succ_of_last hb hnext] at hfar
      cases hfar
    · have hsucc := World.sequence_succ_of_next hb hnext
      obtain ⟨steps, hsteps⟩ := ih ((hsucc n).symm.trans hfar) fun m hlt ↦ by
        rw [← hsucc m]
        exact hbefore (m + 1) (Nat.succ_lt_succ hlt)
      have hlink : e.world.Links target id id' :=
        ⟨b, hb, World.isUnsupported_eq_false_iff.2 ⟨hslot, hmark⟩, hnext⟩
      exact ⟨steps + 1, by rw [follow_of_links hlink, hsteps]; rfl⟩

/-- **An error is the one of the first offence.** -/
theorem firstOffence_of_follow (steps : Nat) : ∀ {id : BlockId},
    follow e target steps id = .ok (.error cause) → e.world.FirstOffence target id cause := by
  induction steps with
  | zero =>
    intro id hfollow
    cases hfollow
  | succ steps ih =>
    intro id hfollow
    by_cases hlink : ∃ id', e.world.Links target id id'
    · obtain ⟨id', hlink⟩ := hlink
      rw [follow_of_links hlink] at hfollow
      obtain ⟨rest | rest, hrest, hresult⟩ := exists_of_map_eq_ok hfollow
      · cases hresult
        exact (World.firstOffence_iff_of_links hlink).2 (ih hrest)
      · cases hresult
    · have hnone := not_exists.1 hlink
      refine (World.firstOffence_iff_of_not_links hnone).2 ?_
      -- If the block were acceptable, it would be the last one, and no error would come of it.
      cases hb : e.world.resolve? target id with
      | none =>
        rw [follow_of_offends (.missing hb)] at hfollow
        cases hfollow
        exact .missing hb
      | some b =>
        cases hunsupported : isUnsupported b with
        | true =>
          have hoffends := (World.offends_iff_of_resolve? hb).2 ⟨hunsupported, rfl⟩
          rw [follow_of_offends hoffends] at hfollow
          cases hfollow
          exact hoffends
        | false =>
          rcases hnext : b.next with - | id'
          · obtain ⟨more, hmore⟩ := exists_follow_of_chain (.last hb hunsupported hnext)
            have hok := follow_mono (Nat.le_add_left more (steps + 1)) hmore
            have herror := follow_mono (Nat.le_add_right (steps + 1) more) hfollow
            cases hok.symm.trans herror
          · exact absurd ⟨b, hb, hunsupported, hnext⟩ (hnone id')

/-- A program that the compiler gives holds no block twice. -/
theorem nodup_of_compile (h : compile e target top = .ok (.ok p)) : p.Nodup := by
  have hchain : Chain e.world target top p := chain_of_follow _ h
  obtain ⟨rest, rfl⟩ := hchain.exists_eq_cons
  exact World.nodup_of_isChain (exists_compile_iff.1 ⟨_, h⟩) hchain.isChain

/-- **What the compiler says of a script.** It comes to a result just when this result judges the
sequence of the script's first block: a program is the whole sequence, which ends, holds acceptable
blocks only, and no block twice; an error is that of the first offence, before which every block is
acceptable. -/
theorem compile_eq_ok_iff_judged {result : Except CompileError Program} :
    compile e target top = .ok result ↔ e.world.Judged target top result := by
  constructor
  · intro h
    rcases result with cause | p
    · have hfirst : e.world.FirstOffence target top cause := firstOffence_of_follow _ h
      refine ⟨⟨?_, ?_⟩, fun hp ↦ ?_, fun hcause ↦ ?_, fun reason hreason ↦ ?_⟩
      · rintro ⟨p, hp⟩
        cases hp
      · rintro ⟨-, haccepts⟩
        obtain ⟨n, id, hid, hoffends, -⟩ := hfirst
        exact absurd (haccepts n id hid) hoffends.not_accepts
      · cases hp
      · cases hcause
        exact hfirst
      · exact hfirst.ne_other reason (Except.error.inj hreason)
    · have hchain : Chain e.world target top p := chain_of_follow _ h
      refine ⟨⟨fun _ ↦ ⟨?_, ?_⟩, fun _ ↦ ⟨p, rfl⟩⟩, fun hp ↦ ?_, fun hcause ↦ ?_,
        fun reason hreason ↦ ?_⟩
      · refine ⟨p.length, ?_⟩
        rw [← hchain.getElem?_eq]
        exact List.getElem?_eq_none (Nat.le_refl _)
      · intro n id hid
        rw [← hchain.getElem?_eq] at hid
        exact hchain.accepts id (List.mem_of_getElem? hid)
      · cases hp
        exact ⟨hchain.getElem?_eq, hchain.exists_eq_cons, nodup_of_compile h⟩
      · cases hcause
      · cases hreason
  · intro h
    rw [compile_eq_ok_iff]
    rcases result with cause | p
    · exact exists_follow_of_firstOffence (h.offence rfl)
    · obtain ⟨hsequence, -, -⟩ := h.program rfl
      refine exists_follow_of_chain (.of_sequence hsequence fun id hmem ↦ ?_)
      obtain ⟨n, hn⟩ := List.mem_iff_getElem?.1 hmem
      exact (h.ok_iff.1 ⟨p, rfl⟩).2 n id ((hsequence n).symm.trans hn)

end StraightLine

end BlockScript
