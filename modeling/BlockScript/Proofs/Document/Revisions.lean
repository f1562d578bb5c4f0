import BlockScript.Proofs.Document.Records
import BlockScript.Target

/-!
# What a project does not depend on

A written project may be revised in several ways that do not matter. Members with names that are
unknown may be added to the objects of the project, of its targets, of their blocks and of the
blocks' mutations; and the members of these objects, and those of the maps of blocks, inputs and
fields, may be put in another order. `Project.Revised` is the relation between the documents before
and after any number of such changes, at any places: every layer is revised within the values of
the layer above it.

**Revised documents are decoded to the same project** (`Project.decode_revised`), and when one of
them is refused, so is the other. Projects count as the same if they have the same targets in the
same order, with the same blocks under the same identifiers (`Project.Same`); in which order the
entries of a map are kept is not asked.

An entry of a graph is the delicate place: it is tried as a block first, and left out if it is none
but an array. A revised entry is a block just when it was one before, since a record is refused in
one form just when it is refused in the other.
-/

namespace BlockScript

/-! ### Revised documents -/

/-- A written mutation, revised. -/
def Mutation.Revised : Document → Document → Prop :=
  Document.RecordRevised Mutation.schema.names fun _ ↦ Eq

/-- The value of a field of a written block, revised. -/
inductive Block.ValueRevised : String → Document → Document → Prop
  /-- Nothing has changed. -/
  | same (name : String) (d : Document) : ValueRevised name d d
  /-- The inputs are in another order. -/
  | inputs {d d' : Document} (h : Document.MapRevised Eq d d') : ValueRevised "inputs" d d'
  /-- The fields are in another order. -/
  | fields {d d' : Document} (h : Document.MapRevised Eq d d') : ValueRevised "fields" d d'
  /-- The mutation is revised. -/
  | mutation {d d' : Document} (h : Mutation.Revised d d') : ValueRevised "mutation" d d'

/-- A written block, revised. -/
def Block.Revised : Document → Document → Prop :=
  Document.RecordRevised Block.schema.names Block.ValueRevised

/-- A written graph whose entries are revised, and may be in another order. -/
def Graph.Revised : Document → Document → Prop :=
  Document.MapRevised Block.Revised

/-- The value of a field of a written target, revised. -/
inductive Target.ValueRevised : String → Document → Document → Prop
  /-- Nothing has changed. -/
  | same (name : String) (d : Document) : ValueRevised name d d
  /-- The blocks are revised. -/
  | blocks {d d' : Document} (h : Graph.Revised d d') : ValueRevised "blocks" d d'

/-- A written target, revised. -/
def Target.Revised : Document → Document → Prop :=
  Document.RecordRevised Target.schema.names Target.ValueRevised

/-- The value of a field of a written project, revised. -/
inductive Project.ValueRevised : String → Document → Document → Prop
  /-- Nothing has changed. -/
  | same (name : String) (d : Document) : ValueRevised name d d
  /-- The targets are revised, in their order. -/
  | targets {d d' : Document} (h : Document.ListRevised Target.Revised d d') :
      ValueRevised "targets" d d'

/-- **A written project, revised.** -/
def Project.Revised : Document → Document → Prop :=
  Document.RecordRevised Project.schema.names Project.ValueRevised

/-! ### The same project -/

/-- The same block: what is asked of its inputs and fields is answered alike. -/
structure Block.Same (b b' : Block) : Prop where
  /-- The opcode is the same. -/
  opcode_eq : b.opcode = b'.opcode
  /-- The next block is the same. -/
  next_eq : b.next = b'.next
  /-- The parent is the same. -/
  parent_eq : b.parent = b'.parent
  /-- The same inputs are in the same slots. -/
  inputs_eq : b.inputs.get? = b'.inputs.get?
  /-- The same fields have the same names. -/
  fields_eq : b.fields.get? = b'.fields.get?
  /-- Both are placeholders, or neither is. -/
  shadow_eq : b.shadow = b'.shadow
  /-- Both start a script, or neither does. -/
  topLevel_eq : b.topLevel = b'.topLevel
  /-- The mutation is the same. -/
  mutation_eq : b.mutation = b'.mutation

/-- The same target. -/
structure Target.Same (t t' : Target) : Prop where
  /-- The name is the same. -/
  name_eq : t.name = t'.name
  /-- Both are the stage, or neither is. -/
  isStage_eq : t.isStage = t'.isStage
  /-- The same blocks have the same identifiers. -/
  blocks : t.blocks.Related Block.Same t'.blocks

/-- **The same project**: the same targets in the same order. -/
def Project.Same (p p' : Project) : Prop :=
  List.Forall₂ Target.Same p.targets p'.targets

theorem Block.same_refl (b : Block) : b.Same b :=
  ⟨rfl, rfl, rfl, rfl, rfl, rfl, rfl, rfl⟩

theorem Target.same_refl (t : Target) : t.Same t :=
  ⟨rfl, rfl, Table.related_refl Block.same_refl t.blocks⟩

theorem Project.same_refl (p : Project) : p.Same p :=
  List.forall₂_same.2 fun t _ ↦ t.same_refl

/-- Tables whose entries are equal answer alike. -/
theorem Table.related_eq_iff {α : Type} {t t' : Table α} :
    t.Related Eq t' ↔ t.get? = t'.get? := by
  constructor
  · intro h
    funext key
    have hkey := h key
    generalize t.get? key = x at hkey ⊢
    generalize t'.get? key = y at hkey ⊢
    cases hkey with
    | none => rfl
    | some heq => rw [heq]
  · intro h key
    rw [h]
    cases t'.get? key with
    | none => exact .none
    | some a => exact .some rfl

namespace Decoder

variable {α : Type} {decode : Decoder α}

/-- A table of values that have not changed is read in any order. -/
theorem respects_table : (table decode).Respects (Document.MapRevised Eq) (Table.Related Eq) := by
  rw [table_eq_keyed]
  exact respects_keyed some (fun t key v k ↦ Table.get?_insert t key k v)
    (respects_eq decode fun _ ↦ .some rfl) fun _ ↦ rfl

/-- What may be left out may be revised where it is there: no revision of a record is left out. -/
theorem respects_optional {names : List String} {inside : String → Document → Document → Prop}
    (h : decode.Respects (Document.RecordRevised names inside) Eq) :
    (optional decode).Respects (Document.RecordRevised names inside) Eq := by
  intro room d d' hchange hread hread'
  have halike := (h hchange hread hread').map (S := Eq) (congrArg some)
  cases hchange with
  | same d => exact .refl (fun _ ↦ rfl) _
  | members _ _ _ => exact halike
  | items _ => exact halike

end Decoder

/-! ### Mutations -/

/-- The fields of a mutation may come in any order. -/
theorem Mutation.orderless_schema : Mutation.schema.Orderless := by
  simp [Schema.orderless_iff, Mutation.schema]

/-- Their values cannot be revised. -/
theorem Mutation.tolerates_schema : Mutation.schema.Tolerates (fun _ ↦ Eq) Eq Eq where
  blank := rfl
  fields := fun f _ ↦ f.tolerates_eq
  finish := by
    rintro s _ rfl
    exact .refl (fun _ ↦ rfl) _

/-- **A revised mutation is the same mutation.** -/
theorem Mutation.respects_decode : Mutation.decode.Respects Mutation.Revised Eq :=
  Schema.respects Mutation.orderless_schema Mutation.tolerates_schema fun _ ↦ rfl

/-! ### Blocks -/

namespace Block

/-- The fields of a block may come in any order. -/
theorem orderless_schema : schema.Orderless := by
  simp [Schema.orderless_iff, schema]

/-- What has been read of the same block. -/
structure Draft.Same (s s' : Draft) : Prop where
  /-- The same opcode, if any. -/
  opcode_eq : s.opcode = s'.opcode
  /-- The same next block, if any. -/
  next_eq : s.next = s'.next
  /-- The same parent, if any. -/
  parent_eq : s.parent = s'.parent
  /-- The same inputs, if any. -/
  inputs : Option.Rel (Table.Related Eq) s.inputs s'.inputs
  /-- The same fields, if any. -/
  fields : Option.Rel (Table.Related Eq) s.fields s'.fields
  /-- The same mark as a placeholder, if any. -/
  shadow_eq : s.shadow = s'.shadow
  /-- The same mark as the start of a script, if any. -/
  topLevel_eq : s.topLevel = s'.topLevel
  /-- The same mutation, if any. -/
  mutation_eq : s.mutation = s'.mutation

variable {name : String} {d d' : Document}

/-- The values of the other fields are the same. -/
theorem ValueRevised.eq_of_notMem (h : ValueRevised name d d')
    (hname : name ∉ ["inputs", "fields", "mutation"]) : d = d' := by
  cases h with
  | same => rfl
  | inputs _ => exact absurd (by decide) hname
  | fields _ => exact absurd (by decide) hname
  | mutation _ => exact absurd (by decide) hname

/-- The inputs and the fields are objects, in which entries may move. -/
theorem ValueRevised.mapRevised (h : ValueRevised name d d')
    (hname : name = "inputs" ∨ name = "fields") : Document.MapRevised Eq d d' := by
  cases h with
  | same => exact .same d
  | inputs h => exact h
  | fields h => exact h
  | mutation _ => exact absurd hname (by decide)

/-- The mutation may have unknown members, in any order. -/
theorem ValueRevised.mutationRevised (h : ValueRevised "mutation" d d') :
    Mutation.Revised d d' := by
  generalize hname : "mutation" = name at h
  cases h with
  | same => exact .same d
  | inputs _ => exact absurd hname (by decide)
  | fields _ => exact absurd hname (by decide)
  | mutation h => exact h

/-- **A revised block** is read as the same one. -/
theorem tolerates_schema : schema.Tolerates ValueRevised Draft.Same Same where
  blank := ⟨rfl, rfl, rfl, .none, .none, rfl, rfl, rfl⟩
  fields := by
    simp only [schema, List.forall_mem_cons, List.not_mem_nil, false_imp_iff, implies_true,
      and_true]
    refine ⟨?_, ?_, ?_, ?_, ?_, ?_, ?_, ?_⟩
    · exact RecordField.tolerates_ofField_of_eq (fun h ↦ h.eq_of_notMem (by decide))
        Draft.Same.opcode_eq fun _ h ↦ { h with opcode_eq := rfl }
    · exact RecordField.tolerates_ofField_of_eq (fun h ↦ h.eq_of_notMem (by decide))
        Draft.Same.next_eq fun _ h ↦ { h with next_eq := rfl }
    · exact RecordField.tolerates_ofField_of_eq (fun h ↦ h.eq_of_notMem (by decide))
        Draft.Same.parent_eq fun _ h ↦ { h with parent_eq := rfl }
    · exact RecordField.tolerates_ofField Decoder.respects_table (fun h ↦ h.mapRevised (.inl rfl))
        (fun h ↦ isSome_eq_of_rel h.inputs) fun h ha ↦ { h with inputs := .some ha }
    · exact RecordField.tolerates_ofField Decoder.respects_table (fun h ↦ h.mapRevised (.inr rfl))
        (fun h ↦ isSome_eq_of_rel h.fields) fun h ha ↦ { h with fields := .some ha }
    · exact RecordField.tolerates_ofField_of_eq (fun h ↦ h.eq_of_notMem (by decide))
        Draft.Same.shadow_eq fun _ h ↦ { h with shadow_eq := rfl }
    · exact RecordField.tolerates_ofField_of_eq (fun h ↦ h.eq_of_notMem (by decide))
        Draft.Same.topLevel_eq fun _ h ↦ { h with topLevel_eq := rfl }
    · exact RecordField.tolerates_ofField (Decoder.respects_optional Mutation.respects_decode)
        ValueRevised.mutationRevised (fun h ↦ congrArg _ h.mutation_eq)
        fun h ha ↦ { h with mutation_eq := congrArg some ha }
  finish := by
    intro s s' h
    show Concur Same s.finish s'.finish
    rw [Draft.finish, Draft.finish, ← h.opcode_eq]
    rcases s.opcode with - | opcode
    · exact .error _ _
    · refine .ok ⟨rfl, congrArg Option.join h.next_eq, congrArg Option.join h.parent_eq, ?_, ?_,
        congrArg (Option.getD · false) h.shadow_eq, congrArg (Option.getD · false) h.topLevel_eq,
        congrArg Option.join h.mutation_eq⟩
      · exact Table.related_eq_iff.1 (rel_getD h.inputs (Table.related_refl (fun _ ↦ rfl) _))
      · exact Table.related_eq_iff.1 (rel_getD h.fields (Table.related_refl (fun _ ↦ rfl) _))

/-- **A revised block is the same block.** -/
theorem respects_decode : Block.decode.Respects Revised Same :=
  Schema.respects orderless_schema tolerates_schema same_refl

end Block

/-! ### Graphs -/

namespace Graph

/-- **A revised entry is a block just when it was one**, and the same block then. -/
theorem respects_decodeEntry :
    decodeEntry.Respects Block.Revised fun entry entry' ↦ Option.Rel Block.Same entry entry' := by
  intro room d d' hchange hread hread'
  have hblock := Block.respects_decode hchange hread hread'
  rw [decodeEntry, Decoder.union, Decoder.union, if_pos hread, if_pos hread']
  cases hchange with
  | same d =>
    refine .refl (fun entry ↦ ?_) _
    cases entry with
    | none => exact .none
    | some b => exact .some b.same_refl
  | @members ms _ _ ms' _ _ _ =>
    generalize Block.decode room (.object ms) = x at hblock ⊢
    generalize Block.decode room (.object ms') = y at hblock ⊢
    cases hblock with
    | ok h => exact .ok (.some h)
    | error _ _ => exact .error _ _
  | @items ds ds' _ =>
    generalize Block.decode room (.array ds) = x at hblock ⊢
    generalize Block.decode room (.array ds') = y at hblock ⊢
    cases hblock with
    | ok h => exact .ok (.some h)
    | error _ _ => exact .ok .none

/-- The last entry of a key decides what the graph answers. -/
theorem get?_putEntry (g : Graph) (key : String) (entry : Option Block) (k : String) :
    (g.putEntry key entry).get? k = if k = key then entry else g.get? k := by
  cases entry with
  | none => exact Table.get?_erase g key k
  | some b => exact Table.get?_insert g key k b

/-- A graph is read as an object, entry by entry. -/
theorem decode_eq_keyed : decode = Decoder.keyed putEntry decodeEntry := by
  funext room d
  cases d <;> rfl

/-- **A revised graph has the same blocks.** -/
theorem respects_decode : decode.Respects Revised (Table.Related Block.Same) := by
  rw [decode_eq_keyed]
  exact Decoder.respects_keyed (fun entry ↦ entry) get?_putEntry respects_decodeEntry
    Block.same_refl

end Graph

/-! ### Targets -/

namespace Target

/-- The fields of a target may come in any order. -/
theorem orderless_schema : schema.Orderless := by
  simp [Schema.orderless_iff, schema]

/-- What has been read of the same target. -/
structure Draft.Same (s s' : Draft) : Prop where
  /-- The same name, if any. -/
  name_eq : s.name = s'.name
  /-- The same mark as the stage, if any. -/
  isStage_eq : s.isStage = s'.isStage
  /-- The same blocks, if any. -/
  blocks : Option.Rel (Table.Related Block.Same) s.blocks s'.blocks

variable {name : String} {d d' : Document}

/-- What is not the graph of the blocks is the same. -/
theorem ValueRevised.eq_of_ne (h : ValueRevised name d d') (hname : name ≠ "blocks") : d = d' := by
  cases h with
  | same => rfl
  | blocks _ => exact absurd rfl hname

/-- The graph of the blocks may be revised. -/
theorem ValueRevised.graphRevised (h : ValueRevised name d d') : Graph.Revised d d' := by
  cases h with
  | same => exact .same d
  | blocks h => exact h

/-- **A revised target** is read as the same one. -/
theorem tolerates_schema : schema.Tolerates ValueRevised Draft.Same Same where
  blank := ⟨rfl, rfl, .none⟩
  fields := by
    simp only [schema, List.forall_mem_cons, List.not_mem_nil, false_imp_iff, implies_true,
      and_true]
    refine ⟨?_, ?_, ?_⟩
    · exact RecordField.tolerates_ofField_of_eq (fun h ↦ h.eq_of_ne (by decide))
        Draft.Same.name_eq fun _ h ↦ { h with name_eq := rfl }
    · exact RecordField.tolerates_ofField_of_eq (fun h ↦ h.eq_of_ne (by decide))
        Draft.Same.isStage_eq fun _ h ↦ { h with isStage_eq := rfl }
    · exact RecordField.tolerates_ofField Graph.respects_decode ValueRevised.graphRevised
        (fun h ↦ isSome_eq_of_rel h.blocks) fun h ha ↦ { h with blocks := .some ha }
  finish := by
    intro s s' h
    show Concur Same s.finish s'.finish
    rw [Draft.finish, Draft.finish, ← h.name_eq]
    rcases s.name with - | name
    · exact .error _ _
    · exact .ok ⟨rfl, congrArg (Option.getD · false) h.isStage_eq,
        rel_getD h.blocks (Table.related_refl Block.same_refl _)⟩

/-- **A revised target is the same target.** -/
theorem respects_decode : decode.Respects Revised Same :=
  Schema.respects orderless_schema tolerates_schema same_refl

end Target

/-! ### Projects -/

namespace Project

theorem orderless_schema : schema.Orderless := by
  simp [Schema.orderless_iff, schema]

/-- The targets keep their order. -/
theorem ValueRevised.listRevised {name : String} {d d' : Document} (h : ValueRevised name d d') :
    Document.ListRevised Target.Revised d d' := by
  cases h with
  | same => exact .same d
  | targets h => exact h

/-- **A revised project** is read as the same one. -/
theorem tolerates_schema :
    schema.Tolerates ValueRevised (Option.Rel (List.Forall₂ Target.Same)) Same where
  blank := .none
  fields := List.forall_mem_singleton.2 <| RecordField.tolerates_ofField
    (Decoder.respects_list Target.respects_decode Target.same_refl) ValueRevised.listRevised
    isSome_eq_of_rel fun _ ha ↦ .some ha
  finish := by
    intro s s' h
    cases h with
    | none => exact .error _ _
    | some h => exact .ok h

theorem respects_decode : decode.Respects Revised Same :=
  Schema.respects orderless_schema tolerates_schema same_refl

/-- **Revisions do not matter.** Of two documents, one of which is a revision of the other, either
both are decoded, to the same project, or neither is. -/
theorem decode_revised {d d' : Document} (hrevised : Revised d d')
    (hread : d.readable Document.maxNesting = true)
    (hread' : d'.readable Document.maxNesting = true) :
    (∀ p, decode Document.maxNesting d = .ok p →
      ∃ p', decode Document.maxNesting d' = .ok p' ∧ p.Same p') ∧
    (∀ p', decode Document.maxNesting d' = .ok p' →
      ∃ p, decode Document.maxNesting d = .ok p ∧ p.Same p') := by
  have halike := respects_decode hrevised hread hread'
  constructor
  · intro p hp
    rw [hp] at halike
    exact halike.exists_right
  · intro p' hp'
    rw [hp'] at halike
    exact halike.exists_left

/-! ### A project that is revised everywhere -/

/-- A project with a call and a loose reporter. -/
def plain : Document :=
  .object [(some "targets", .array [.object [
    (some "name", .text "sprite"),
    (some "blocks", .object [
      (some "call", .object [
        (some "opcode", .text "procedures_call"),
        (some "mutation", .object [(some "proccode", .text "p")]),
        (some "inputs", .object [
          (some "a", .array [.integer 2, .text "one"]),
          (some "b", .array [.integer 2, .text "other"])])]),
      (some "loose", .array [.integer 12, .text "score", .text "id"])])]])]

/-- The same project. Every object has its members in the opposite order, and some of them have a
member with another name in front. -/
def ornate : Document :=
  .object [(some "meta", .null), (some "targets", .array [.object [
    (some "x", .integer 0),
    (some "blocks", .object [
      (some "loose", .array [.integer 12, .text "score", .text "id"]),
      (some "call", .object [
        (some "comment", .text "again"),
        (some "inputs", .object [
          (some "b", .array [.integer 2, .text "other"]),
          (some "a", .array [.integer 2, .text "one"])]),
        (some "mutation", .object [(some "children", .array []), (some "proccode", .text "p")]),
        (some "opcode", .text "procedures_call")])]),
    (some "name", .text "sprite")]])]

/-- A record whose members stand in the opposite order, with one more in front. -/
theorem revised_of_reverse {names : List String} {inside : String → Document → Document → Prop}
    {ms rest : List (Option String × Document)} {name : String} {d : Document}
    (hkept : List.Forall₂ (fun m m' ↦ m.1 = m'.1 ∧ ∀ name, m.1 = some name →
      inside name m.2 m'.2) ms rest.reverse) (hname : name ∉ names) :
    Document.RecordRevised names inside (.object ms) (.object ((some name, d) :: rest)) := by
  have hextra : ∀ m ∈ [(some name, d)], ∀ name ∈ names, m.1 ≠ some name := by
    rintro m hmem name' hname' heq
    rw [List.mem_singleton.1 hmem] at heq
    exact hname (Option.some.inj heq ▸ hname')
  refine .members hkept hextra ?_
  exact List.perm_append_comm.trans (.cons _ (List.reverse_perm rest))

/-- The second document is a revision of the first one. -/
theorem revised_ornate : Revised plain ornate := by
  refine revised_of_reverse (.cons ⟨rfl, ?_⟩ .nil) (by decide)
  rintro _ ⟨⟩
  refine .targets (.items (.cons (revised_of_reverse ?_ (by decide)) .nil))
  refine .cons ⟨rfl, fun name _ ↦ .same name _⟩ (.cons ⟨rfl, ?_⟩ .nil)
  rintro _ ⟨⟩
  refine .blocks (.members ?_ (.swap _ _ _) (.inr (by decide)))
  refine .cons ⟨rfl, ?_⟩ (.cons ⟨rfl, .same _⟩ .nil)
  -- What is left is the call, with its mutation and its inputs.
  refine revised_of_reverse (.cons ⟨rfl, fun name _ ↦ .same name _⟩
    (.cons ⟨rfl, ?_⟩ (.cons ⟨rfl, ?_⟩ .nil))) (by decide)
  · rintro _ ⟨⟩
    exact .mutation (revised_of_reverse (.cons ⟨rfl, fun _ _ ↦ rfl⟩ .nil) (by decide))
  · rintro _ ⟨⟩
    exact .inputs (.members (List.forall₂_same.2 fun _ _ ↦ ⟨rfl, rfl⟩) (.swap _ _ _)
      (.inr (by decide)))

/-- Both are decoded, to the same project with one target, whose one block is the call. -/
theorem decode_revised_ornate :
    ∃ p p', decode Document.maxNesting plain = .ok p ∧
      decode Document.maxNesting ornate = .ok p' ∧ p.Same p' ∧
      p.targets.map (fun t ↦ (t.name, t.blocks.keys)) = [("sprite", ["call"])] := by
  have hplain : (decode Document.maxNesting plain).map (fun p ↦
      p.targets.map fun t ↦ (t.name, t.blocks.keys)) = .ok [("sprite", ["call"])] := by
    decide +kernel
  rcases hp : decode Document.maxNesting plain with cause | p
  · rw [hp] at hplain
    cases hplain
  · rw [hp] at hplain
    obtain ⟨p', hp', hsame⟩ := (decode_revised revised_ornate (by decide) (by decide)).1 p hp
    exact ⟨p, p', rfl, hp', hsame, Except.ok.inj hplain⟩

end Project

end BlockScript
