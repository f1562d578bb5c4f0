import BlockScript.Proofs.Document.Admission
import BlockScript.Proofs.Document.Revisions

/-!
# Every block is loaded, or nothing is

A written graph has blocks beside loose reporters, which are bare arrays, and the reader leaves out
what is no block. `Graph.loads_of_readable` says what that comes to. Nothing is left out but arrays:
an entry that is an object is a block, or else the whole graph is refused, and a single faulty input
or field in it is enough for that. An array may be a block too, in the short form of a record, but
only if it starts with an opcode.

The reader sees a repeated key as often as it stands there. All values count for whether the graph
is accepted, and the last one for what is loaded.
-/

namespace BlockScript

namespace Block

/-! ### The fields of a block -/

/-- The field of the inputs. -/
def inputsField : RecordField Draft :=
  .ofField "inputs" (Decoder.table Input.decode) (·.inputs) (fun b v ↦ { b with inputs := some v })

/-- The field of the fields. -/
def fieldsField : RecordField Draft :=
  .ofField "fields" (Decoder.table Field.decode) (·.fields) (fun b v ↦ { b with fields := some v })

theorem inputsField_mem : inputsField ∈ schema.fields :=
  .tail _ (.tail _ (.tail _ (.head _)))

theorem fieldsField_mem : fieldsField ∈ schema.fields :=
  .tail _ (.tail _ (.tail _ (.tail _ (.head _))))

theorem nodup_names : schema.names.Nodup := by
  decide

theorem filled_blank : ∀ f ∈ schema.fields, f.filled schema.blank = false := by
  simp only [schema, List.forall_mem_cons, List.not_mem_nil, false_imp_iff, implies_true, and_true]
  exact ⟨rfl, rfl, rfl, rfl, rfl, rfl, rfl, rfl⟩

variable {room : Nat} {bs ms : List (Option String × Document)} {b : Block}

/-- **A faulty member of a block**, in the inputs or in the fields. -/
inductive Faulty (bs : List (Option String × Document)) : Prop
  /-- A value in the inputs is not written like an input. -/
  | input {ins : List (Option String × Document)} {m : Option String × Document}
      (hins : (some "inputs", .object ins) ∈ bs) (hmem : m ∈ ins)
      (hnot : ∀ i, ¬Input.Written m.2 i) : Faulty bs
  /-- A value in the fields is no field. -/
  | field {fs : List (Option String × Document)} {m : Option String × Document}
      (hfs : (some "fields", .object fs) ∈ bs) (hmem : m ∈ fs)
      (hnot : Field.ofDocument? m.2 = none) : Faulty bs

/-- What a member that is a table of a block's field holds is read, where the block is. -/
theorem exists_of_mem_table {α : Type} {name : String} {decode : Decoder α}
    {get : Draft → Option (Table α)} {set : Draft → Table α → Draft}
    (hf : .ofField name (Decoder.table decode) get set ∈ schema.fields)
    (hkeys : ∀ m ∈ ms, m.1.isSome = true) (hmem : (some name, .object ms) ∈ bs)
    (hdecode : Block.decode (room + 2) (.object bs) = .ok b) :
    ∀ m ∈ ms, ∃ a, decode room m.2 = .ok a := by
  obtain ⟨s, s', hfill⟩ := orderless_schema.exists_fill_of_mem nodup_names hf hmem hdecode
  obtain ⟨t, ht, -⟩ := RecordField.exists_of_fill_ofField hfill
  rw [Decoder.table_eq_keyed] at ht
  exact (Decoder.exists_keyed_iff hkeys).1 ⟨t, ht⟩

/-- **A faulty block is refused.** -/
theorem Faulty.decode_ne_ok (h : Faulty bs) (hread : (Document.object bs).readable room = true) :
    Block.decode room (.object bs) ≠ .ok b := by
  intro hdecode
  obtain ⟨left, rfl, hmembers⟩ := Document.exists_room_of_object hread
  cases h with
  | input hins hmem hnot =>
    obtain ⟨left, rfl, hinputs⟩ := Document.exists_room_of_object (hmembers _ hins).2
    obtain ⟨i, hi⟩ := exists_of_mem_table inputsField_mem (fun m hm ↦ (hinputs m hm).1) hins
      hdecode _ hmem
    exact hnot i ((Input.decode_eq_ok_iff (hinputs _ hmem).2).1 hi)
  | field hfs hmem hnot =>
    obtain ⟨left, rfl, hfields⟩ := Document.exists_room_of_object (hmembers _ hfs).2
    obtain ⟨f, hf⟩ := exists_of_mem_table fieldsField_mem (fun m hm ↦ (hfields m hm).1) hfs
      hdecode _ hmem
    rw [Field.decode, Decoder.union, if_pos (hfields _ hmem).2, hnot] at hf
    cases hf

/-- **A block that is written as an array** has the values of its fields in their order, and may
leave out the last of them. -/
theorem decode_array_iff {ds : List Document} :
    Block.decode room (.array ds) = .ok b ↔ ds.length ≤ schema.names.length ∧
      Block.decode room (.object ((schema.names.map some).zip ds)) = .ok b := by
  cases room with
  | zero => exact ⟨fun h ↦ (by cases h), fun h ↦ by cases h.2⟩
  | succ room => exact orderless_schema.decode_array_iff nodup_names filled_blank

/-- A block that is written as an array starts with its opcode. -/
theorem exists_opcode_of_decode_array {ds : List Document}
    (h : Block.decode room (.array ds) = .ok b) : ∃ opcode rest, ds = .text opcode :: rest := by
  cases room with
  | zero => cases h
  | succ room =>
    change (Schema.putItems room schema.fields ds schema.blank >>= schema.finishItems) = _ at h
    rcases ds with - | ⟨d, rest⟩
    · cases h
    · obtain ⟨_, hitems, -⟩ := bind_eq_ok_iff.1 h
      obtain ⟨_, hopcode, -⟩ := bind_eq_ok_iff.1 hitems
      obtain ⟨opcode, htext, -⟩ := RecordField.exists_of_fill_ofField hopcode
      cases d with
      | text value => exact ⟨value, rest, rfl⟩
      | _ => cases htext

end Block

/-! ### Entries -/

namespace Graph

variable {room : Nat} {d : Document} {ms : List (Option String × Document)} {g : Graph}
  {key : String}

/-- **What may stand in a graph**: an array, or an object that is a block. -/
inductive Entry (room : Nat) : Document → Prop
  /-- An array. -/
  | array (ds : List Document) : Entry room (.array ds)
  /-- An object that is a block. -/
  | object {bs : List (Option String × Document)} {b : Block}
      (hb : Block.decode room (.object bs) = .ok b) : Entry room (.object bs)

/-- What is a block is an entry. -/
theorem Entry.of_decode {b : Block} (h : Block.decode room d = .ok b) : Entry room d := by
  obtain ⟨bs, rfl⟩ | ⟨ds, rfl⟩ := Schema.exists_of_decode h
  · exact .object h
  · exact .array ds

/-- Entries and nothing else are accepted. -/
theorem exists_decodeEntry_iff (h : d.readable room = true) :
    (∃ entry, decodeEntry room d = .ok entry) ↔ Entry room d := by
  rw [decodeEntry, Decoder.union, if_pos h]
  constructor
  · rintro ⟨entry, hentry⟩
    rcases hblock : Block.decode room d with cause | b
    · rw [hblock] at hentry
      cases d with
      | array ds => exact .array ds
      | _ => cases hentry
    · exact .of_decode hblock
  · rintro (ds | hb)
    · rcases Block.decode room (.array ds) with cause | b
      · exact ⟨none, rfl⟩
      · exact ⟨some b, rfl⟩
    · rw [hb]
      exact ⟨_, rfl⟩

/-- What is kept of an entry is the block that it is. -/
theorem kept_eq_some_iff (h : d.readable room = true) {b : Block} :
    (decodeEntry room d).toOption.bind (fun entry ↦ entry) = some b ↔
      Block.decode room d = .ok b := by
  rw [decodeEntry, Decoder.union, if_pos h]
  rcases Block.decode room d with cause | b'
  · refine ⟨fun hno ↦ ?_, fun hno ↦ by cases hno⟩
    cases d <;> cases hno
  · exact ⟨fun hb ↦ congrArg Except.ok (Option.some.inj hb),
      fun hb ↦ congrArg some (Except.ok.inj hb)⟩

/-! ### Graphs -/

/-- **What is loaded**, where an object with these members is read. -/
structure Loaded (room : Nat) (ms : List (Option String × Document)) (g : Graph) : Prop where
  /-- A key has the block that its last value is, in either form, and no other. -/
  get?_eq_some_iff : ∀ {key b}, g.get? key = some b ↔
    ∃ v, Document.lastValue? ms key = some v ∧ Block.decode room v = .ok b
  /-- A key is left out if its last value is an array that is no block, and only then. -/
  get?_eq_none_iff : ∀ {key}, some key ∈ ms.map Prod.fst →
    (g.get? key = none ↔ ∃ ds, Document.lastValue? ms key = some (.array ds) ∧
      ∀ b, Block.decode room (.array ds) ≠ .ok b)
  /-- No object is left out. -/
  object : ∀ {key bs}, Document.lastValue? ms key = some (.object bs) →
    ∃ b, Block.decode room (.object bs) = .ok b ∧ g.get? key = some b
  /-- An array that does not start with a text is left out. -/
  loose : ∀ {key ds}, Document.lastValue? ms key = some (.array ds) →
    (∀ opcode rest, ds ≠ .text opcode :: rest) → g.get? key = none

/-- **How a document is read as a graph**, with so much room left for its entries. -/
structure Loads (room : Nat) (d : Document) : Prop where
  /-- What is accepted are the objects whose values, those of repeated keys included, are arrays and
  objects that are blocks. -/
  accepted_iff : (∃ g, decode (room + 1) d = .ok g) ↔
    ∃ ms, d = .object ms ∧ ∀ m ∈ ms, Entry room m.2
  /-- What is loaded then. -/
  loaded : ∀ {ms g}, d = .object ms → decode (room + 1) d = .ok g → Loaded room ms g
  /-- An array is a block if its items are, as values of the fields in their order. -/
  array_iff : ∀ {ds b}, Block.decode room (.array ds) = .ok b ↔
    ds.length ≤ Block.schema.names.length ∧
      Block.decode room (.object ((Block.schema.names.map some).zip ds)) = .ok b
  /-- One faulty input or field of an object is enough to refuse everything. -/
  refused : ∀ {ms m bs g}, d = .object ms → m ∈ ms → m.2 = .object bs → Block.Faulty bs →
    decode (room + 1) d ≠ .ok g
  /-- An array is never the cause of a refusal. -/
  harmless : ∀ {before after key ds}, d = .object (before ++ (key, .array ds) :: after) →
    ((∃ g, decode (room + 1) d = .ok g) ↔
      ∃ g, decode (room + 1) (.object (before ++ after)) = .ok g)

/-- An object is read just when every value is an entry. -/
theorem exists_decode_iff
    (hread : ∀ m ∈ ms, m.1.isSome = true ∧ m.2.readable room = true) :
    (∃ g, decode (room + 1) (.object ms) = .ok g) ↔ ∀ m ∈ ms, Entry room m.2 := by
  rw [decode_eq_keyed, Decoder.exists_keyed_iff fun m hm ↦ (hread m hm).1]
  exact forall₂_congr fun m hm ↦ exists_decodeEntry_iff (hread m hm).2

/-- A key has the block that its last value is. -/
theorem get?_of_decode (hread : ∀ m ∈ ms, m.2.readable room = true)
    (h : decode (room + 1) (.object ms) = .ok g) {b : Block} :
    g.get? key = some b ↔
      ∃ v, Document.lastValue? ms key = some v ∧ Block.decode room v = .ok b := by
  rw [decode_eq_keyed] at h
  rw [Decoder.get?_of_keyed (fun entry ↦ entry) get?_putEntry h key,
    Option.bind_eq_some_iff]
  refine exists_congr fun v ↦ and_congr_right fun hlast ↦ ?_
  exact kept_eq_some_iff (hread _ (Document.mem_of_lastValue? hlast))

theorem loaded_of_decode (hread : ∀ m ∈ ms, m.1.isSome = true ∧ m.2.readable room = true)
    (h : decode (room + 1) (.object ms) = .ok g) : Loaded room ms g := by
  have hget : ∀ {key b}, g.get? key = some b ↔
      ∃ v, Document.lastValue? ms key = some v ∧ Block.decode room v = .ok b :=
    get?_of_decode (fun m hm ↦ (hread m hm).2) h
  have hentries := (exists_decode_iff hread).1 ⟨g, h⟩
  have hobject : ∀ {key bs}, Document.lastValue? ms key = some (.object bs) →
      ∃ b, Block.decode room (.object bs) = .ok b ∧ g.get? key = some b := by
    intro key bs hlast
    obtain - | hb := hentries _ (Document.mem_of_lastValue? hlast)
    exact ⟨_, hb, hget.2 ⟨_, hlast, hb⟩⟩
  have harray : ∀ {key ds}, Document.lastValue? ms key = some (.array ds) →
      (∀ b, Block.decode room (.array ds) ≠ .ok b) → g.get? key = none := by
    intro key ds hlast hnot
    refine Option.eq_none_iff_forall_ne_some.2 fun b hb ↦ ?_
    obtain ⟨v, hv, hblock⟩ := hget.1 hb
    obtain rfl := Option.some.inj (hlast.symm.trans hv)
    exact hnot b hblock
  refine ⟨hget, fun hkey ↦ ⟨fun hnone ↦ ?_, fun ⟨ds, hlast, hnot⟩ ↦ harray hlast hnot⟩, hobject,
    fun hlast hloose ↦ harray hlast fun b hb ↦ ?_⟩
  · obtain ⟨v, hlast⟩ := Document.exists_lastValue? hkey
    cases hentries _ (Document.mem_of_lastValue? hlast) with
    | array ds =>
      refine ⟨ds, hlast, fun b hb ↦ ?_⟩
      cases hnone.symm.trans (hget.2 ⟨_, hlast, hb⟩)
    | object _ =>
      obtain ⟨b, -, hb⟩ := hobject hlast
      cases hnone.symm.trans hb
  · obtain ⟨opcode, rest, rfl⟩ := Block.exists_opcode_of_decode_array hb
    exact hloose opcode rest rfl

/-- **Every block is loaded, or nothing is.** -/
theorem loads_of_readable (h : d.readable (room + 1) = true) : Loads room d := by
  have hmembers : ∀ {ms}, d = .object ms →
      ∀ m ∈ ms, m.1.isSome = true ∧ m.2.readable room = true := by
    rintro ms rfl
    obtain ⟨left, hroom, hread⟩ := Document.exists_room_of_object h
    obtain rfl := Nat.succ.inj hroom
    exact hread
  refine ⟨?_, ?_, Block.decode_array_iff, ?_, ?_⟩
  · constructor
    · rintro ⟨g, hg⟩
      cases d with
      | object ms => exact ⟨ms, rfl, (exists_decode_iff (hmembers rfl)).1 ⟨g, hg⟩⟩
      | _ => cases hg
    · rintro ⟨ms, rfl, hentries⟩
      exact (exists_decode_iff (hmembers rfl)).2 hentries
  · rintro ms g rfl hg
    exact loaded_of_decode (hmembers rfl) hg
  · rintro ms ⟨key, v⟩ bs g rfl hmem rfl hfaulty hg
    obtain - | hb := (exists_decode_iff (hmembers rfl)).1 ⟨g, hg⟩ _ hmem
    exact hfaulty.decode_ne_ok (hmembers rfl _ hmem).2 hb
  · rintro before after key ds rfl
    have hread := hmembers rfl
    have hrest : ∀ m ∈ before ++ after, m.1.isSome = true ∧ m.2.readable room = true :=
      fun m hm ↦ hread m (Document.mem_middle hm)
    rw [exists_decode_iff hread, exists_decode_iff hrest]
    simp only [List.forall_mem_append, List.forall_mem_cons]
    exact and_congr_right fun _ ↦ ⟨And.right, fun hafter ↦ ⟨.array ds, hafter⟩⟩

/-! ### A graph with everything in it -/

/-- A block in either form, a loose reporter, and two keys that stand twice: a block takes the place
of a loose reporter, and a loose reporter that of a block. -/
def mixed : List (Option String × Document) := [
  (some "won", .array [.integer 12, .text "score", .text "id"]),
  (some "object", .object [
    (some "inputs", .object [
      (some "STEPS", .array [.integer 1, .array [.integer 4, .integer 10]])]),
    (some "opcode", .text "motion_movesteps")]),
  (some "lost", .object [(some "opcode", .text "looks_show")]),
  (some "array", .array [.text "looks_show", .text "object", .null]),
  (some "loose", .array [.integer 13, .text "names", .text "id"]),
  (some "won", .object [(some "opcode", .text "looks_hide")]),
  (some "lost", .array [])]

/-- A block with an input that lacks its value. -/
def faulty : Option String × Document :=
  (some "faulty", .object [(some "opcode", .text "motion_movesteps"),
    (some "inputs", .object [(some "STEPS", .array [.integer 1, .array [.integer 4]])])])

/-- The blocks of the graph are loaded, and none of them if the faulty one stands among them. -/
theorem loads_mixed :
    (Document.object mixed).readable (126 + 1) = true ∧ Loads 126 (.object mixed) ∧
      (decode (126 + 1) (.object mixed)).map Table.keys = .ok ["object", "array", "won"] ∧
      (Document.object (faulty :: mixed)).readable (126 + 1) = true ∧
      ∀ g, decode (126 + 1) (.object (faulty :: mixed)) ≠ .ok g := by
  refine ⟨by decide, loads_of_readable (by decide), by decide +kernel, by decide, fun g ↦ ?_⟩
  refine (loads_of_readable (by decide)).refused rfl List.mem_cons_self rfl ?_
  refine .input (.tail _ (.head _)) (.head _) fun i hwritten ↦ ?_
  cases hwritten with
  | payload _ hheld =>
    obtain - | - | ⟨hitems, hmeant⟩ := hheld
    obtain ⟨v, rest, -, hrest, rfl⟩ := List.forall₂_cons_left_iff.1 hitems
    obtain rfl := List.forall₂_nil_left_iff.1 hrest
    cases hmeant

end Graph

end BlockScript
