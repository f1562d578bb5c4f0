import BlockScript.Proofs.Schedule.Driving
import BlockScript.Proofs.Thread.Enumeration
import BlockScript.Proofs.Thread.Upkeep
import Mathlib.Data.List.Perm.Subperm
import Mathlib.Logic.Relation

/-!
# Scripts that cannot be compiled in finite time

A compiler of straight lines goes from a supported block to its next block, wherever that block is
found (`World.Links`), and nothing but the blocks themselves ends its way. It comes to a result
exactly where the links from the first block do not run into a circle (`World.Circles`):

* in a circle there is always one more link, so no number of steps suffices
  (`StraightLine.follow_of_circles`);
* otherwise the blocks on the way are pairwise different, since one that came back would close a
  circle, and there are no more of them than blocks in all targets (`World.nodup_of_isChain`,
  `StraightLine.circles_of_follow`).
  So the bound that `StraightLine.compile` sets to its steps cuts nothing short.

`Schedule.start_ends_iff` says what this means for the start of a project: without compilation it
always ends, and with it only where no hat runs into a circle.
-/

namespace BlockScript

open Relation

namespace World

variable {w : World} {target : TargetId} {id id' : BlockId}

/-! ### Links and circles -/

/-- **A link** leads from a block that a compiler of straight lines supports to its next block. -/
def Links (w : World) (target : TargetId) (id id' : BlockId) : Prop :=
  ∃ b, w.resolve? target id = some b ∧ StraightLine.isUnsupported b = false ∧ b.next = some id'

/-- **The links run into a circle**: they lead from the block to one from which they lead back to
itself. -/
def Circles (w : World) (target : TargetId) (id : BlockId) : Prop :=
  ∃ id', ReflTransGen (w.Links target) id id' ∧ TransGen (w.Links target) id' id'

theorem Circles.of_links (hlink : w.Links target id id') (h : w.Circles target id') :
    w.Circles target id := by
  obtain ⟨far, hway, hround⟩ := h
  exact ⟨far, hway.head hlink, hround⟩

/-- A block that runs into a circle has a link to another such block. -/
theorem Circles.exists_links (h : w.Circles target id) :
    ∃ id', w.Links target id id' ∧ w.Circles target id' := by
  obtain ⟨far, hway, hround⟩ := h
  rcases hway.cases_head with rfl | ⟨id', hlink, hway'⟩
  · -- The block is in the circle itself, which is walked one link further.
    obtain ⟨id', hlink, hback⟩ := TransGen.head'_iff.1 hround
    exact ⟨id', hlink, id, hback, hround⟩
  · exact ⟨id', hlink, far, hway', hround⟩

/-- **Links that run into no circle** visit every block once at most. -/
theorem nodup_of_isChain {way : List BlockId} : ∀ {id : BlockId}, ¬w.Circles target id →
    (id :: way).IsChain (w.Links target) → (id :: way).Nodup := by
  induction way with
  | nil => exact fun _ _ ↦ List.nodup_singleton _
  | cons second rest ih =>
    intro id hcircle hchain
    have hreach : (id :: second :: rest).Pairwise (TransGen (w.Links target)) :=
      (hchain.imp fun _ _ ↦ TransGen.single).pairwise
    rw [List.nodup_cons]
    constructor
    · intro hmem
      exact hcircle ⟨id, .refl, (List.pairwise_cons.1 hreach).1 id hmem⟩
    · exact ih (fun h ↦ hcircle (.of_links hchain.rel h)) hchain.of_cons

/-! ### The blocks of all targets -/

/-- The identifiers of the blocks of all targets. -/
def ids (w : World) : List BlockId :=
  w.targets.flatMap fun target ↦ target.blocks.keys

/-- What is found in a table stands under one of its keys. -/
private theorem mem_keys_of_get? {g : Graph} {b : Block} (hget : g.get? id = some b) :
    id ∈ g.keys := by
  rw [Table.keys]
  exact List.mem_map_of_mem (Table.get?_eq_some_iff.1 hget)

/-- What is found belongs to some target. -/
theorem mem_ids_of_resolve? {b : Block} (hb : w.resolve? target id = some b) : id ∈ w.ids := by
  rw [ids, List.mem_flatMap]
  rcases Option.or_eq_some_iff.1 hb with hown | ⟨-, helsewhere⟩
  · obtain ⟨g, hgraph, hget⟩ := Option.bind_eq_some_iff.1 hown
    obtain ⟨t, ht, rfl⟩ := Option.map_eq_some_iff.1 hgraph
    exact ⟨t, List.mem_of_getElem? ht, mem_keys_of_get? hget⟩
  · obtain ⟨t, ht, hget⟩ := List.exists_of_findSome?_eq_some helsewhere
    exact ⟨t, ht, mem_keys_of_get? hget⟩

/-- What links lead away from belongs to some target. -/
theorem dropLast_subset_ids {way : List BlockId} : ∀ {id : BlockId},
    (id :: way).IsChain (w.Links target) → (id :: way).dropLast ⊆ w.ids := by
  induction way with
  | nil => exact fun _ ↦ List.nil_subset _
  | cons second rest ih =>
    intro id hchain
    obtain ⟨b, hb, -⟩ := hchain.rel
    rw [List.dropLast_cons_cons]
    exact List.cons_subset.2 ⟨mem_ids_of_resolve? hb, ih hchain.of_cons⟩

end World

/-- There are as many of them as blocks are counted. -/
theorem Engine.length_ids (e : Engine) : e.world.ids.length = e.blockCount := by
  have hfold : ∀ (targets : List Target) (count : Nat),
      targets.foldl (fun count t ↦ count + t.blocks.size) count =
        count + (targets.flatMap fun t ↦ t.blocks.keys).length := by
    intro targets
    induction targets with
    | nil => exact fun count ↦ rfl
    | cons t rest ih =>
      intro count
      rw [List.foldl_cons, ih, List.flatMap_cons, List.length_append, Nat.add_assoc, Table.keys,
        List.length_map]
      rfl
  rw [blockCount, hfold, Nat.zero_add]
  rfl

/-! ### Following the links -/

namespace StraightLine

variable {e : Engine} {target : TargetId} {id : BlockId} {steps : Nat}

/-- A link is followed by going on from the next block. -/
theorem follow_of_links {id' : BlockId} (hlink : e.world.Links target id id') (steps : Nat) :
    follow e target (steps + 1) id =
      (follow e target steps id').map fun result ↦ result.map (id :: ·) := by
  obtain ⟨b, hb, hsupported, hnext⟩ := hlink
  rw [Engine.resolve?_world] at hb
  rw [follow, hb]
  dsimp only
  rw [hsupported, if_neg Bool.false_ne_true, hnext]

/-- Where there is no link, one step gives the result. -/
theorem exists_follow_of_not_links (hnone : ∀ id', ¬e.world.Links target id id') :
    ∃ result, ∀ steps, follow e target (steps + 1) id = .ok result := by
  cases hb : e.resolve? target id with
  | none => exact ⟨_, fun steps ↦ by rw [follow, hb]⟩
  | some b =>
    cases hsupported : isUnsupported b with
    | true =>
      refine ⟨.error (.unsupported id b.opcode), fun steps ↦ ?_⟩
      rw [follow, hb]
      exact if_pos hsupported
    | false =>
      cases hnext : b.next with
      | none =>
        refine ⟨.ok [id], fun steps ↦ ?_⟩
        rw [follow, hb]
        dsimp only
        rw [hsupported, if_neg Bool.false_ne_true, hnext]
      | some id' =>
        rw [← Engine.resolve?_world] at hb
        exact absurd ⟨b, hb, hsupported, hnext⟩ (hnone id')

/-- **In a circle** no number of steps suffices. -/
theorem follow_of_circles (steps : Nat) : ∀ {id : BlockId}, e.world.Circles target id →
    follow e target steps id = .error .unfinished := by
  induction steps with
  | zero => exact fun _ ↦ rfl
  | succ steps ih =>
    intro id h
    obtain ⟨id', hlink, h'⟩ := h.exists_links
    rw [follow_of_links hlink, ih h']
    rfl

/-- A result that some steps give is the one that more steps give. -/
theorem follow_mono : ∀ {more : Nat}, steps ≤ more → ∀ {id : BlockId}
    {result : Except CompileError Program}, follow e target steps id = .ok result →
      follow e target more id = .ok result := by
  induction steps with
  | zero =>
    intro more _ id result hfollow
    cases hfollow
  | succ steps ih =>
    intro more hle id result hfollow
    obtain ⟨more, rfl⟩ := Nat.exists_eq_add_one_of_ne_zero (Nat.ne_zero_of_lt hle)
    by_cases hlink : ∃ id', e.world.Links target id id'
    · obtain ⟨id', hlink⟩ := hlink
      rw [follow_of_links hlink] at hfollow ⊢
      obtain ⟨rest, hrest, hresult⟩ := exists_of_map_eq_ok hfollow
      rw [ih (Nat.le_of_succ_le_succ hle) hrest, ← hresult]
      rfl
    · obtain ⟨only, honly⟩ := exists_follow_of_not_links (not_exists.1 hlink)
      rw [honly] at hfollow ⊢
      exact hfollow

/-- Steps that do not suffice are spent on as many links. -/
theorem exists_isChain_of_follow (steps : Nat) : ∀ {id : BlockId},
    (∀ result, follow e target steps id ≠ .ok result) →
      ∃ way : List BlockId, way.length = steps ∧ (id :: way).IsChain (e.world.Links target) := by
  induction steps with
  | zero => exact fun _ ↦ ⟨[], rfl, .singleton _⟩
  | succ steps ih =>
    intro id hfollow
    by_cases hlink : ∃ id', e.world.Links target id id'
    · obtain ⟨id', hlink⟩ := hlink
      rw [follow_of_links hlink] at hfollow
      have hrest : ∀ result, follow e target steps id' ≠ .ok result := fun result hresult ↦ by
        rw [hresult] at hfollow
        exact hfollow _ rfl
      obtain ⟨way, hlength, hchain⟩ := ih hrest
      exact ⟨id' :: way, congrArg Nat.succ hlength, hchain.cons_cons hlink⟩
    · obtain ⟨result, hresult⟩ := exists_follow_of_not_links (not_exists.1 hlink)
      exact absurd (hresult steps) (hfollow result)

/-- **More steps than blocks** lead into a circle, if they do not suffice. -/
theorem circles_of_follow (hfollow : ∀ result, follow e target (e.blockCount + 1) id ≠ .ok result) :
    e.world.Circles target id := by
  by_contra hcircle
  obtain ⟨way, hlength, hchain⟩ := exists_isChain_of_follow _ hfollow
  have hnodup : (id :: way).dropLast.Nodup :=
    (World.nodup_of_isChain hcircle hchain).sublist (List.dropLast_sublist _)
  have hle := (List.Nodup.subperm hnodup (World.dropLast_subset_ids hchain)).length_le
  rw [List.length_dropLast, List.length_cons, Engine.length_ids, hlength] at hle
  omega

/-- **The bound of the compiler** cuts nothing short: it gives a result if any number of steps
does, and the same. -/
theorem compile_eq_ok_iff {result : Except CompileError Program} :
    compile e target id = .ok result ↔ ∃ steps, follow e target steps id = .ok result := by
  refine ⟨fun h ↦ ⟨_, h⟩, fun ⟨steps, hsteps⟩ ↦ ?_⟩
  by_cases hends : ∃ result', compile e target id = .ok result'
  · obtain ⟨result', hresult'⟩ := hends
    have hmore := follow_mono (Nat.le_add_left steps (e.blockCount + 1)) hsteps
    have hmore' := follow_mono (Nat.le_add_right (e.blockCount + 1) steps) hresult'
    rw [hresult', Except.ok.inj (hmore.symm.trans hmore')]
  · have hcircle := circles_of_follow (not_exists.1 hends)
    rw [follow_of_circles steps hcircle] at hsteps
    cases hsteps

/-- **When compiling a script ends**: where its links do not run into a circle. -/
theorem exists_compile_iff :
    (∃ result, compile e target id = .ok result) ↔ ¬e.world.Circles target id := by
  constructor
  · rintro ⟨result, hresult⟩ hcircle
    rw [compile, follow_of_circles _ hcircle] at hresult
    cases hresult
  · intro hcircle
    by_contra hends
    exact hcircle (circles_of_follow (not_exists.1 hends))

end StraightLine

/-! ### Starting a project -/

/-- Compiling the script of a hat, where that is asked for, comes to a result unless the hat runs
into a circle. -/
theorem Engine.exists_compilation_iff {e : Engine} {hat : BlockId × TargetId} :
    (∃ compilation, e.compilation hat = .ok compilation) ↔
      e.settings.compileScripts = false ∨ ¬e.world.Circles hat.2 hat.1 := by
  rw [compilation, ← StraightLine.exists_compile_iff]
  cases hasked : e.settings.compileScripts with
  | false => exact iff_of_true ⟨_, if_neg Bool.false_ne_true⟩ (.inl rfl)
  | true =>
    rw [if_pos rfl]
    constructor
    · rintro ⟨compilation, hcompilation⟩
      obtain ⟨result, hresult, -⟩ := exists_of_map_eq_ok hcompilation
      exact .inr ⟨result, hresult⟩
    · rintro (hoff | ⟨result, hresult⟩)
      · cases hoff
      · exact ⟨_, congrArg (Except.map _) hresult⟩

namespace Schedule

/-- Starting the scripts of an engine ends unless one of them runs into a circle and is to be
compiled. -/
theorem exists_start_iff {e : Engine} (hpool : e.pool = Pool.empty) :
    (∃ s, start e = .ok s) ↔
      e.settings.compileScripts = false ∨ ∀ hat ∈ hats e, ¬e.world.Circles hat.2 hat.1 := by
  constructor
  · rintro ⟨s, hstart⟩
    obtain ⟨-, hlength, hthreads⟩ := driven_start hpool hstart
    rw [or_iff_not_imp_left]
    intro hasked hat hmem
    -- The thread of the hat tells that compiling it came to a result.
    obtain ⟨position, hhat⟩ := List.mem_iff_getElem?.1 hmem
    have hlt : position < s.threads.length := hlength ▸ (List.getElem?_eq_some_iff.1 hhat).1
    obtain ⟨compilation, hcompilation, -⟩ :=
      hthreads position hat _ hhat (List.getElem?_eq_getElem hlt)
    exact (Engine.exists_compilation_iff.1 ⟨compilation, hcompilation⟩).resolve_left hasked
  · intro h
    refine exists_start hpool fun hat hmem ↦ Engine.exists_compilation_iff.2 ?_
    exact h.imp_right fun hcircle ↦ hcircle hat hmem

/-- **When compiling ends, and when a project can be started.** Of every target and block:

* the compiler comes to a result if and only if the links from the block run into no circle;
* it comes to just the results that following the links without any bound comes to.

So the project can be started without compilation, and with it if and only if none of its hats runs
into a circle. -/
theorem start_ends_iff (settings : Settings) (project : Project) :
    (∀ (target : TargetId) (top : BlockId),
      ((∃ result, StraightLine.compile (Engine.ofProject settings project) target top =
          .ok result) ↔ ¬World.Circles ⟨settings, project.targets⟩ target top) ∧
      ∀ result, StraightLine.compile (Engine.ofProject settings project) target top = .ok result ↔
        ∃ steps, StraightLine.follow (Engine.ofProject settings project) target steps top =
          .ok result) ∧
    ((∃ s, start (Engine.ofProject settings project) = .ok s) ↔
      settings.compileScripts = false ∨
        ∀ hat ∈ hats (Engine.ofProject settings project),
          ¬World.Circles ⟨settings, project.targets⟩ hat.2 hat.1) := by
  have hstart := exists_start_iff (Engine.pool_ofProject settings project)
  rw [Engine.settings_ofProject] at hstart
  rw [← Engine.world_ofProject]
  exact ⟨fun target top ↦
    ⟨StraightLine.exists_compile_iff, fun result ↦ StraightLine.compile_eq_ok_iff⟩, hstart⟩

/-! ### A script that bites its tail -/

/-- A hat, and after it a block that is its own next block. -/
def tailBiting : Project where
  targets := [{
    name := "sprite"
    blocks := ⟨[
      ("hat", { opcode := "event_whenflagclicked", next := some "say" }),
      ("say", { opcode := "looks_say", next := some "say" })],
      (by decide : ["hat", "say"].Nodup)⟩ }]

/-- The project as it is written. -/
def tailBitingText : String :=
  "\x7b\"targets\": [\x7b\"name\": \"sprite\", \"blocks\": \x7b" ++
    "\"hat\": \x7b\"opcode\": \"event_whenflagclicked\", \"next\": \"say\"\x7d, " ++
    "\"say\": \x7b\"opcode\": \"looks_say\", \"next\": \"say\"\x7d\x7d\x7d]\x7d"

/-- The project can be loaded, and started without compilation. Compiling its script ends after no
number of steps, so that it cannot be started with compilation. -/
theorem not_start_ends_tailBiting :
    Project.load "project.json" (.octets tailBitingText.toUTF8.toList) = .ok tailBiting ∧
    (∃ s, start (Engine.ofProject ⟨30, 25, 500, false⟩ tailBiting) = .ok s) ∧
    hats (Engine.ofProject ⟨30, 25, 500, true⟩ tailBiting) = [("hat", ⟨0⟩)] ∧
    (∀ steps, StraightLine.follow (Engine.ofProject ⟨30, 25, 500, true⟩ tailBiting) ⟨0⟩ steps
      "hat" = .error .unfinished) ∧
    ¬∃ s, start (Engine.ofProject ⟨30, 25, 500, true⟩ tailBiting) = .ok s := by
  have hhats : hats (Engine.ofProject ⟨30, 25, 500, true⟩ tailBiting) = [("hat", ⟨0⟩)] := rfl
  have hcircle :
      (Engine.ofProject ⟨30, 25, 500, true⟩ tailBiting).world.Circles ⟨0⟩ "hat" :=
    ⟨"say", .single ⟨_, rfl, by decide, rfl⟩, .single ⟨_, rfl, by decide, rfl⟩⟩
  refine ⟨by decide +kernel, ?_, hhats,
    fun steps ↦ StraightLine.follow_of_circles steps hcircle, ?_⟩
  · exact (exists_start_iff (Engine.pool_ofProject _ _)).2 (.inl rfl)
  · rw [exists_start_iff (Engine.pool_ofProject _ _)]
    rintro (hoff | hnone)
    · cases hoff
    · exact hnone ("hat", ⟨0⟩) (hhats ▸ List.mem_singleton_self _) hcircle

end Schedule

end BlockScript
