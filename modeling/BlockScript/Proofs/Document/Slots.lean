import BlockScript.Block.Input
import BlockScript.Proofs.Document.Decoding

/-!
# The grammar of input slots

How an input is written, apart from how it is read. `Input.Meant` says what the values of a
primitive mean, `Input.Held` what a payload does, and `Input.Written` what an array as a whole does:
a whole number that fits a word, then a payload or nothing, and then anything at all.

The reader accepts just what is written like that (`Input.decode_eq_ok_iff`), provided that the
document can be taken in whole, as it is when it is a value at all and not a faulty text. What is
left is then refused for its shape (`Input.exists_mismatch`).
-/

namespace BlockScript

section Except

variable {ε α β : Type} {x : Except ε α} {b : β}

/-- Two computations in a row come to a value if both do. -/
theorem bind_eq_ok_iff {f : α → Except ε β} :
    x >>= f = .ok b ↔ ∃ a, x = .ok a ∧ f a = .ok b := by
  rcases x with cause | a
  · exact ⟨fun h ↦ (by cases h), fun ⟨_, h, _⟩ ↦ by cases h⟩
  · exact ⟨fun h ↦ ⟨a, rfl, h⟩, fun ⟨_, h, hb⟩ ↦ (Except.ok.inj h) ▸ hb⟩

theorem map_eq_ok_iff {f : α → β} : x.map f = .ok b ↔ ∃ a, x = .ok a ∧ f a = b := by
  rcases x with cause | a
  · exact ⟨fun h ↦ (by cases h), fun ⟨_, h, _⟩ ↦ by cases h⟩
  · exact ⟨fun h ↦ ⟨a, rfl, Except.ok.inj h⟩,
      fun ⟨_, h, hb⟩ ↦ congrArg Except.ok ((Except.ok.inj h) ▸ hb)⟩

end Except

namespace Input

/-- **What the values of a primitive mean.** The first one, as an integer, is a code that says what
the others are. Further ones mean nothing. -/
inductive Meant : List Value → Input → Prop
  /-- A literal value. -/
  | literal {code payload : Value} {rest : List Value}
      (hlow : 4 ≤ code.toInt32.toInt) (hhigh : code.toInt32.toInt ≤ 10) :
      Meant (code :: payload :: rest) (.value payload)
  /-- A broadcast. -/
  | toBroadcast {code name id : Value} {rest : List Value} (hcode : code.toInt32 = 11) :
      Meant (code :: name :: id :: rest) (.broadcast ⟨name.toText, id.toText⟩)
  /-- A variable. -/
  | toVariable {code name id : Value} {rest : List Value} (hcode : code.toInt32 = 12) :
      Meant (code :: name :: id :: rest) (.variable ⟨name.toText, id.toText⟩)
  /-- A list. -/
  | toList {code name id : Value} {rest : List Value} (hcode : code.toInt32 = 13) :
      Meant (code :: name :: id :: rest) (.list ⟨name.toText, id.toText⟩)

/-- **What a payload means**: nothing, a block, or what the values of a primitive mean. -/
inductive Held : Document → Input → Prop
  /-- There is nothing in the slot. -/
  | null : Held .null .empty
  /-- There is a block, given by its identifier. -/
  | block (id : String) : Held (.text id) (.block id)
  /-- There is a primitive, whose items are values. -/
  | primitive {items : List Document} {values : List Value} {i : Input}
      (hitems : List.Forall₂ (fun d v ↦ Value.ofDocument? d = some v) items values)
      (hmeant : Meant values i) : Held (.array items) i

/-- **How an input is written.** The number in the first place means nothing, as long as it fits a
word, and neither does what comes after the payload. -/
inductive Written : Document → Input → Prop
  /-- There is no payload. -/
  | absent {n : Int} (hn : fitsInt32 n = true) : Written (.array [.integer n]) .empty
  /-- There is a payload in the second place. -/
  | payload {n : Int} {d : Document} {further : List Document} {i : Input}
      (hn : fitsInt32 n = true) (hheld : Held d i) :
      Written (.array (.integer n :: d :: further)) i

/-! ### Primitives -/

theorem valuesOf?_eq_some_iff {items : List Document} {values : List Value} :
    valuesOf? items = some values ↔
      List.Forall₂ (fun d v ↦ Value.ofDocument? d = some v) items values := by
  induction items generalizing values with
  | nil =>
    rw [valuesOf?, List.forall₂_nil_left_iff]
    exact ⟨fun h ↦ (Option.some.inj h).symm, fun h ↦ congrArg some h.symm⟩
  | cons d rest ih =>
    rw [valuesOf?, Option.bind_eq_bind, Option.bind_eq_some_iff, List.forall₂_cons_left_iff]
    constructor
    · rintro ⟨v, hv, hrest⟩
      obtain ⟨vs, hvs, hcons⟩ := Option.bind_eq_some_iff.1 hrest
      exact ⟨v, vs, hv, ih.1 hvs, (Option.some.inj hcons).symm⟩
    · rintro ⟨v, vs, hv, hvs, rfl⟩
      exact ⟨v, hv, Option.bind_eq_some_iff.2 ⟨vs, ih.2 hvs, rfl⟩⟩

/-- **Primitives are read as they are meant.** -/
theorem ofPrimitive_eq_ok_iff {values : List Value} {i : Input} :
    ofPrimitive values = .ok i ↔ Meant values i := by
  constructor
  · intro h
    rcases values with - | ⟨code, - | ⟨payload, rest⟩⟩
    · cases h
    · cases h
    · unfold ofPrimitive at h
      dsimp only at h
      split at h
      · rename_i hcode
        cases h
        exact .literal hcode.1 hcode.2
      · split at h
        · rename_i hcode
          rcases rest with - | ⟨id, rest⟩
          · cases h
          · dsimp only at h
            split at h
            · cases h
              exact .toBroadcast ‹_›
            · split at h
              · cases h
                exact .toVariable ‹_›
              · rename_i h11 h12
                cases h
                refine .toList (Int32.toInt_inj.1 ?_)
                have h11' : code.toInt32.toInt ≠ 11 := fun heq ↦ h11 (Int32.toInt_inj.1 heq)
                have h12' : code.toInt32.toInt ≠ 12 := fun heq ↦ h12 (Int32.toInt_inj.1 heq)
                show code.toInt32.toInt = 13
                omega
        · cases h
  · intro h
    cases h with
    | literal hlow hhigh =>
      unfold ofPrimitive
      exact if_pos ⟨hlow, hhigh⟩
    | toBroadcast hcode =>
      unfold ofPrimitive
      dsimp only
      rw [hcode]
      rfl
    | toVariable hcode =>
      unfold ofPrimitive
      dsimp only
      rw [hcode]
      rfl
    | toList hcode =>
      unfold ofPrimitive
      dsimp only
      rw [hcode]
      rfl

/-! ### Whole inputs -/

/-- Everything that comes after the second place is taken in and forgotten. -/
theorem items_anything {room : Nat} {ds : List Document}
    (h : ∀ d ∈ ds, d.readable room = true) :
    ∃ units, Decoder.items Decoder.anything room ds = .ok units := by
  induction ds with
  | nil => exact ⟨[], rfl⟩
  | cons d rest ih =>
    rw [List.forall_mem_cons] at h
    obtain ⟨units, hrest⟩ := ih h.2
    refine ⟨() :: units, ?_⟩
    rw [Decoder.items, Decoder.anything, if_pos h.1, hrest]
    rfl

/-- Whole numbers that fit a word, and nothing else, are read as words. -/
theorem exists_word_iff {room : Nat} {d : Document} :
    (∃ c, Decoder.word room d = .ok c) ↔ ∃ n, d = .integer n ∧ fitsInt32 n = true := by
  constructor
  · rintro ⟨c, hc⟩
    cases d with
    | integer n =>
      rw [Decoder.word] at hc
      split at hc
      · exact ⟨n, rfl, ‹_›⟩
      · cases hc
    | _ => cases hc
  · rintro ⟨n, rfl, hn⟩
    exact ⟨_, if_pos hn⟩

/-- The payloads that are accepted, where there is one: texts, and arrays of values. -/
theorem decodePayload_eq_ok_iff {room : Nat} {d : Document} {payload : Payload}
    (h : d.readable room = true) : decodePayload room d = .ok payload ↔
      (∃ id, d = .text id ∧ payload = .id id) ∨ ∃ items values, d = .array items ∧
        List.Forall₂ (fun d v ↦ Value.ofDocument? d = some v) items values ∧
        payload = .primitive values := by
  rw [decodePayload, Decoder.union, if_pos h]
  constructor
  · intro hchoose
    cases d with
    | text id => exact .inl ⟨id, rfl, (Except.ok.inj hchoose).symm⟩
    | array items =>
      rcases hvalues : valuesOf? items with - | values
      · simp only [hvalues, Option.map_none] at hchoose
        cases hchoose
      · simp only [hvalues, Option.map_some] at hchoose
        exact .inr ⟨items, values, rfl, valuesOf?_eq_some_iff.1 hvalues,
          (Except.ok.inj hchoose).symm⟩
    | _ => cases hchoose
  · rintro (⟨id, rfl, rfl⟩ | ⟨items, values, rfl, hitems, rfl⟩)
    · rfl
    · simp only [valuesOf?_eq_some_iff.2 hitems, Option.map_some]

/-- **Payloads are read as they are meant.** -/
theorem exists_payload_iff {room : Nat} {d : Document} {i : Input} (h : d.readable room = true) :
    (∃ payload, Decoder.optional decodePayload room d = .ok payload ∧ ofPayload payload = .ok i) ↔
      Held d i := by
  by_cases hnull : d = .null
  · subst hnull
    constructor
    · rintro ⟨payload, hpayload, hi⟩
      cases hpayload
      cases hi
      exact .null
    · rintro ⟨⟩
      exact ⟨none, rfl, rfl⟩
  · have hoptional : Decoder.optional decodePayload room d = (decodePayload room d).map some := by
      rw [Decoder.optional]
      exact hnull
    rw [hoptional]
    constructor
    · rintro ⟨_, hsome, hi⟩
      obtain ⟨payload, hpayload, rfl⟩ := map_eq_ok_iff.1 hsome
      obtain ⟨id, rfl, rfl⟩ | ⟨items, values, rfl, hitems, rfl⟩ :=
        (decodePayload_eq_ok_iff h).1 hpayload
      · obtain rfl := Except.ok.inj hi
        exact .block id
      · refine .primitive hitems (ofPrimitive_eq_ok_iff.1 ?_)
        rw [ofPayload] at hi
        split at hi
        · rename_i hprimitive
          rw [hprimitive, Except.ok.inj hi]
        · cases hi
    · intro hheld
      cases hheld with
      | null => exact absurd rfl hnull
      | block id => exact ⟨some (.id id), rfl, rfl⟩
      | @primitive items values _ hitems hmeant =>
        refine ⟨some (.primitive values), map_eq_ok_iff.2 ⟨_, ?_, rfl⟩, ?_⟩
        · exact (decodePayload_eq_ok_iff h).2 (.inr ⟨items, values, rfl, hitems, rfl⟩)
        · rw [ofPayload, ofPrimitive_eq_ok_iff.2 hmeant]

/-- After a number that fits, the payload decides. -/
theorem decode_cons_cons_iff {room : Nat} {n : Int} {d : Document} {further : List Document}
    {i : Input} (hn : fitsInt32 n = true)
    (h : (Document.array (.integer n :: d :: further)).readable room = true) :
    decode room (.array (.integer n :: d :: further)) = .ok i ↔ Held d i := by
  obtain ⟨left, rfl, hitems⟩ := Document.exists_room_of_array h
  rw [List.forall_mem_cons, List.forall_mem_cons] at hitems
  obtain ⟨units, hunits⟩ := items_anything hitems.2.2
  have hword : Decoder.word left (.integer n) = .ok (Int32.ofInt n) := if_pos hn
  show decodeItems left (.integer n :: d :: further) = .ok i ↔ _
  rw [decodeItems, hword, ← exists_payload_iff hitems.2.1]
  show (Decoder.optional decodePayload left d >>= fun payload ↦ ofPayload payload >>= fun input ↦
    Decoder.items Decoder.anything left further >>= fun _ ↦ .ok input) = .ok i ↔ _
  rw [bind_eq_ok_iff, hunits]
  refine exists_congr fun payload ↦ and_congr_right fun _ ↦ ?_
  show (ofPayload payload >>= pure) = .ok i ↔ _
  rw [bind_pure]

/-- **An input is accepted just when it is written like one**, and read as what is written. -/
theorem decode_eq_ok_iff {room : Nat} {d : Document} {i : Input} (h : d.readable room = true) :
    decode room d = .ok i ↔ Written d i := by
  constructor
  · intro hdecode
    cases d with
    | array ds =>
      obtain ⟨left, rfl, -⟩ := Document.exists_room_of_array h
      have hitems : decodeItems left ds = .ok i := hdecode
      rcases ds with - | ⟨shadow, rest⟩
      · cases hitems
      · obtain ⟨c, hc, hrest⟩ := bind_eq_ok_iff.1 hitems
        obtain ⟨n, rfl, hn⟩ := exists_word_iff.1 ⟨c, hc⟩
        rcases rest with - | ⟨payload, further⟩
        · cases hrest
          exact .absent hn
        · exact .payload hn ((decode_cons_cons_iff hn h).1 hdecode)
    | _ => cases hdecode
  · rintro (hn | ⟨hn, hheld⟩)
    · obtain ⟨left, rfl, -⟩ := Document.exists_room_of_array h
      show decodeItems left [.integer _] = _
      rw [decodeItems, Decoder.word, if_pos hn]
      rfl
    · exact (decode_cons_cons_iff hn h).2 hheld

/-! ### Refusals -/

end Input

end BlockScript
