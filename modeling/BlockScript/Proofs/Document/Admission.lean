import BlockScript.Proofs.Document.Records
import BlockScript.Proofs.Document.Slots
import Mathlib.Data.List.Nodup

/-!
# What is admitted

When a map or a record is read at all, and what is read then. Both are folds over the members of an
object, and a fold stops at the first member that is refused. So

* a map is read just when every value is, and a key has what its **last** value is read as
  (`Decoder.exists_keyed_iff`, `Decoder.get?_of_keyed`);
* a member may be singled out of a record, wherever it stands: the record is read as if that member
  came last (`Schema.Orderless.decode_middle_iff`), since the order does not matter;
* a record that is written as an array is the object that gives each item the name of the field in
  its place (`Schema.Orderless.decode_array_iff`).
-/

namespace BlockScript

/-! ### Last values -/

/-- The last value that an object has under a key. -/
def Document.lastValue? (ms : List (Option String × Document)) (key : String) : Option Document :=
  ms.reverse.lookup (some key)

namespace Document

variable {ms rest : List (Option String × Document)} {key : String} {d : Document}

/-- A later value counts, and the first member only where there is none. -/
theorem lastValue?_cons (m : Option String × Document) (rest : List (Option String × Document))
    (key : String) : lastValue? (m :: rest) key =
      (lastValue? rest key).or (if m.1 = some key then some m.2 else none) := by
  obtain ⟨k, d⟩ := m
  rw [lastValue?, lastValue?, List.reverse_cons, List.lookup_append, List.lookup_cons]
  by_cases hk : k = some key
  · subst hk
    rw [beq_self_eq_true, if_pos rfl]
  · rw [beq_false_of_ne (Ne.symm hk), if_neg hk]
    rfl

/-- A key that is there has a last value. -/
theorem exists_lastValue? (hkey : some key ∈ ms.map Prod.fst) :
    ∃ d, lastValue? ms key = some d := by
  induction ms with
  | nil => cases hkey
  | cons m rest ih =>
    rw [lastValue?_cons]
    rcases hrest : lastValue? rest key with - | d
    · rcases List.mem_cons.1 hkey with hm | hmem
      · exact ⟨m.2, if_pos hm.symm⟩
      · obtain ⟨d, hd⟩ := ih hmem
        cases hrest.symm.trans hd
    · exact ⟨d, rfl⟩

/-- The members on both sides of one. -/
theorem mem_middle {before after : List (Option String × Document)}
    {m m' : Option String × Document} (h : m ∈ before ++ after) : m ∈ before ++ m' :: after :=
  ((List.sublist_cons_self m' after).append_left before).mem h

/-- The last value stands in a member. -/
theorem mem_of_lastValue? (h : lastValue? ms key = some d) : (some key, d) ∈ ms := by
  induction ms with
  | nil => cases h
  | cons m rest ih =>
    rw [lastValue?_cons, Option.or_eq_some_iff] at h
    obtain h | ⟨-, h⟩ := h
    · exact List.mem_cons_of_mem _ (ih h)
    · split at h
      · rename_i hkey
        obtain ⟨k, d'⟩ := m
        obtain rfl : d' = d := Option.some.inj h
        obtain rfl : k = some key := hkey
        exact List.mem_cons_self
      · cases h

end Document

namespace Decoder

variable {α β : Type} {update : Table α → String → β → Table α} {decode : Decoder β}
  {entry : β → Option α} {room : Nat} {ms : List (Option String × Document)} {t t' : Table α}

/-! ### Maps -/

theorem exists_foldlM_keyed_iff (hkeys : ∀ m ∈ ms, m.1.isSome = true) (t : Table α) :
    (∃ t', ms.foldlM (putKeyed fun t key d ↦ (decode room d).map (update t key)) t = .ok t') ↔
      ∀ m ∈ ms, ∃ v, decode room m.2 = .ok v := by
  induction ms generalizing t with
  | nil => exact ⟨fun _ m hmem ↦ (by cases hmem), fun _ ↦ ⟨t, rfl⟩⟩
  | cons m rest ih =>
    rw [List.forall_mem_cons] at hkeys ⊢
    obtain ⟨- | key, d⟩ := m
    · cases hkeys.1
    · simp only [List.foldlM_cons, bind_eq_ok_iff]
      constructor
      · rintro ⟨t', t₁, hput, hrest⟩
        obtain ⟨v, hv, -⟩ := map_eq_ok_iff.1 hput
        exact ⟨⟨v, hv⟩, (ih hkeys.2 t₁).1 ⟨t', hrest⟩⟩
      · rintro ⟨⟨v, hv⟩, hrest⟩
        obtain ⟨t', ht'⟩ := (ih hkeys.2 (update t key v)).2 hrest
        exact ⟨t', _, map_eq_ok_iff.2 ⟨v, hv, rfl⟩, ht'⟩

/-- **A map is read just when every value is.** -/
theorem exists_keyed_iff (hkeys : ∀ m ∈ ms, m.1.isSome = true) :
    (∃ t, keyed update decode (room + 1) (.object ms) = .ok t) ↔
      ∀ m ∈ ms, ∃ v, decode room m.2 = .ok v := by
  show (∃ t, members _ Table.empty ms = .ok t) ↔ _
  rw [members_eq_foldlM]
  exact exists_foldlM_keyed_iff hkeys Table.empty

/-- What a key has in the end: what its last value is read as, or else what it had before. -/
theorem get?_of_foldlM_keyed
    (hupdate : ∀ t key v k, (update t key v).get? k = if k = key then entry v else t.get? k)
    (key : String) :
    ms.foldlM (putKeyed fun t key d ↦ (decode room d).map (update t key)) t = .ok t' →
      t'.get? key = ((Document.lastValue? ms key).map
        fun d ↦ (decode room d).toOption.bind entry).getD (t.get? key) := by
  induction ms generalizing t with
  | nil =>
    intro h
    obtain rfl := Except.ok.inj h
    rfl
  | cons m rest ih =>
    intro h
    rw [List.foldlM_cons, bind_eq_ok_iff] at h
    obtain ⟨t₁, hput, hrest⟩ := h
    obtain ⟨- | k, d⟩ := m
    · cases hput
    · obtain ⟨v, hv, rfl⟩ := map_eq_ok_iff.1 hput
      rw [ih hrest, hupdate, Document.lastValue?_cons]
      rcases Document.lastValue? rest key with - | d'
      · by_cases hk : key = k
        · subst hk
          rw [if_pos rfl, if_pos rfl]
          show entry v = (decode room d).toOption.bind entry
          rw [hv]
          rfl
        · rw [if_neg hk, if_neg fun heq ↦ hk (Option.some.inj heq).symm]
          rfl
      · rfl

/-- **A key has what its last value is read as.** -/
theorem get?_of_keyed (entry : β → Option α)
    (hupdate : ∀ t key v k, (update t key v).get? k = if k = key then entry v else t.get? k)
    (h : keyed update decode (room + 1) (.object ms) = .ok t) (key : String) :
    t.get? key = (Document.lastValue? ms key).bind fun d ↦ (decode room d).toOption.bind entry := by
  change members _ Table.empty ms = .ok t at h
  rw [members_eq_foldlM] at h
  rw [get?_of_foldlM_keyed hupdate key h]
  cases Document.lastValue? ms key <;> rfl

end Decoder

/-! ### Records -/

theorem Concur.eq_ok_iff {ε α : Type} {x y : Except ε α} {a : α} (h : Concur Eq x y) :
    x = .ok a ↔ y = .ok a := by
  cases h with
  | ok h => rw [h]
  | error _ _ => exact ⟨fun hno ↦ (by cases hno), fun hno ↦ by cases hno⟩

namespace Schema

variable {σ α : Type} {schema : Schema σ α} {room : Nat} {s s' : σ} {value : α}

/-- A draft makes a record just when it lacks nothing, whatever is said of a field that is
missing. -/
theorem finishOr_eq_ok_iff (lacking : String → Mismatch) :
    schema.finishOr lacking s = .ok value ↔ schema.finish s = .ok value := by
  rw [finishOr]
  cases schema.finish s with
  | ok v => exact ⟨fun h ↦ congrArg Except.ok (Except.ok.inj h),
      fun h ↦ congrArg Except.ok (Except.ok.inj h)⟩
  | error field => exact ⟨fun h ↦ (by cases h), fun h ↦ by cases h⟩

/-- An object is read as the record of what its members come to. -/
theorem decode_object_iff {ms : List (Option String × Document)} :
    schema.decode (room + 1) (.object ms) = .ok value ↔
      ∃ s, ms.foldlM (Decoder.putKeyed (schema.putMember room)) schema.blank = .ok s ∧
        schema.finish s = .ok value := by
  show (Decoder.members (schema.putMember room) schema.blank ms >>= schema.finishMembers) = _ ↔ _
  rw [bind_eq_ok_iff, Decoder.members_eq_foldlM]
  exact exists_congr fun s ↦ and_congr_right fun _ ↦ finishOr_eq_ok_iff _

/-- A member with the name of a field is put into that field. -/
theorem putMember_of_mem {f : RecordField σ} (hnames : schema.names.Nodup)
    (hf : f ∈ schema.fields) (room : Nat) (s : σ) (d : Document) :
    schema.putMember room s f.name d = f.put room d s := by
  obtain ⟨g, hg, hname, hput⟩ | ⟨hnot, -⟩ := schema.putMember_cases f.name
  · rw [hput, List.inj_on_of_nodup_map hnames hg hf hname]
  · exact absurd (List.mem_map_of_mem hf) hnot

/-- **A member may come last instead**, wherever it stands. -/
theorem Orderless.foldlM_middle (h : schema.Orderless) (room : Nat)
    (before after : List (Option String × Document)) (m : Option String × Document) (s : σ) :
    Concur Eq ((before ++ m :: after).foldlM (Decoder.putKeyed (schema.putMember room)) s)
      ((before ++ after).foldlM (Decoder.putKeyed (schema.putMember room)) s >>=
        fun s ↦ Decoder.putKeyed (schema.putMember room) s m) := by
  have hperm : (before ++ m :: after).Perm ((before ++ after) ++ [m]) :=
    List.perm_middle.trans (List.perm_append_singleton m (before ++ after)).symm
  have hsplit : ((before ++ after) ++ [m]).foldlM (Decoder.putKeyed (schema.putMember room)) s =
      ((before ++ after).foldlM (Decoder.putKeyed (schema.putMember room)) s >>=
        fun s ↦ Decoder.putKeyed (schema.putMember room) s m) := by
    rw [List.foldlM_append]
    simp only [List.foldlM_cons, List.foldlM_nil, bind_pure]
  have hlast := h.members_perm room hperm s
  rw [Decoder.members_eq_foldlM, Decoder.members_eq_foldlM, hsplit] at hlast
  exact hlast

/-- **A member with the name of a field, singled out.** The record is read as if it were filled with
that field last, which must not be there yet. -/
theorem Orderless.decode_middle_iff {f : RecordField σ} (h : schema.Orderless)
    (hnames : schema.names.Nodup) (hf : f ∈ schema.fields)
    {before after : List (Option String × Document)} {d : Document} :
    schema.decode (room + 1) (.object (before ++ (some f.name, d) :: after)) = .ok value ↔
      ∃ s s', (before ++ after).foldlM (Decoder.putKeyed (schema.putMember room)) schema.blank =
          .ok s ∧ f.filled s = false ∧ f.fill room d s = .ok s' ∧
        schema.finish s' = .ok value := by
  have hput : ∀ s s', Decoder.putKeyed (schema.putMember room) s (some f.name, d) = .ok s' ↔
      f.filled s = false ∧ f.fill room d s = .ok s' := by
    intro s s'
    show schema.putMember room s f.name d = .ok s' ↔ _
    rw [putMember_of_mem hnames hf, RecordField.put]
    cases f.filled s with
    | false => exact ⟨fun hfill ↦ ⟨rfl, hfill⟩, fun hfill ↦ hfill.2⟩
    | true => exact ⟨fun hno ↦ (by cases hno), fun hno ↦ by cases hno.1⟩
  rw [decode_object_iff]
  constructor
  · rintro ⟨s', hfold, hfinish⟩
    rw [(h.foldlM_middle room before after _ _).eq_ok_iff, bind_eq_ok_iff] at hfold
    obtain ⟨s, hrest, hlast⟩ := hfold
    exact ⟨s, s', hrest, ((hput s s').1 hlast).1, ((hput s s').1 hlast).2, hfinish⟩
  · rintro ⟨s, s', hrest, hfilled, hfill, hfinish⟩
    refine ⟨s', ?_, hfinish⟩
    rw [(h.foldlM_middle room before after _ _).eq_ok_iff, bind_eq_ok_iff]
    exact ⟨s, hrest, (hput s s').2 ⟨hfilled, hfill⟩⟩

/-- Items fill the fields in their places, as members with the names of these fields do. -/
theorem Orderless.putItems_iff (hnames : schema.names.Nodup) {fields : List (RecordField σ)}
    (hsub : ∀ f ∈ fields, f ∈ schema.fields) (hpairwise : fields.Pairwise RecordField.Independent)
    {ds : List Document} :
    ∀ {s : σ}, (∀ f ∈ fields, f.filled s = false) →
      (putItems room fields ds s = .ok s' ↔ ds.length ≤ fields.length ∧
        ((fields.map fun f ↦ some f.name).zip ds).foldlM
          (Decoder.putKeyed (schema.putMember room)) s = .ok s') := by
  induction fields generalizing ds with
  | nil =>
    intro s _
    cases ds with
    | nil => exact ⟨fun h ↦ ⟨Nat.le_refl _, h⟩, fun h ↦ h.2⟩
    | cons d ds => exact ⟨fun h ↦ (by cases h), fun h ↦ absurd h.1 (Nat.not_succ_le_zero _)⟩
  | cons f fields ih =>
    intro s hblank
    rw [List.forall_mem_cons] at hsub hblank
    rw [List.pairwise_cons] at hpairwise
    cases ds with
    | nil => exact ⟨fun h ↦ ⟨Nat.zero_le _, h⟩, fun h ↦ h.2⟩
    | cons d ds =>
      have hput : Decoder.putKeyed (schema.putMember room) s (some f.name, d) =
          f.fill room d s := by
        show schema.putMember room s f.name d = _
        rw [putMember_of_mem hnames hsub.1, RecordField.put, hblank.1]
        rfl
      rw [List.map_cons, List.zip_cons_cons, List.foldlM_cons, hput, putItems, List.length_cons,
        List.length_cons, Nat.succ_le_succ_iff, bind_eq_ok_iff, bind_eq_ok_iff]
      constructor
      · rintro ⟨s₁, hfill, hrest⟩
        have hunfilled : ∀ g ∈ fields, g.filled s₁ = false := fun g hg ↦
          ((hpairwise.1 g hg).filled_right hfill).trans (hblank.2 g hg)
        obtain ⟨hle, hfold⟩ := (ih hsub.2 hpairwise.2 hunfilled).1 hrest
        exact ⟨hle, s₁, hfill, hfold⟩
      · rintro ⟨hle, s₁, hfill, hfold⟩
        have hunfilled : ∀ g ∈ fields, g.filled s₁ = false := fun g hg ↦
          ((hpairwise.1 g hg).filled_right hfill).trans (hblank.2 g hg)
        exact ⟨s₁, hfill, (ih hsub.2 hpairwise.2 hunfilled).2 ⟨hle, hfold⟩⟩

/-- **A record that is written as an array** is the object that gives each item the name of the
field in its place. There must not be more items than fields. -/
theorem Orderless.decode_array_iff (h : schema.Orderless) (hnames : schema.names.Nodup)
    (hblank : ∀ f ∈ schema.fields, f.filled schema.blank = false) {ds : List Document} :
    schema.decode (room + 1) (.array ds) = .ok value ↔ ds.length ≤ schema.names.length ∧
      schema.decode (room + 1) (.object ((schema.names.map some).zip ds)) = .ok value := by
  show (putItems room schema.fields ds schema.blank >>= schema.finishItems) = .ok value ↔ _
  rw [bind_eq_ok_iff, decode_object_iff, ← exists_and_left, names, List.length_map, List.map_map]
  refine exists_congr fun s ↦ ?_
  rw [finishItems, finishOr_eq_ok_iff,
    putItems_iff hnames (fun _ hf ↦ hf) h.independent hblank, and_assoc]
  exact Iff.rfl

/-- Where a record is read, its members with the names of fields are. -/
theorem Orderless.exists_fill_of_mem {f : RecordField σ} (h : schema.Orderless)
    (hnames : schema.names.Nodup) (hf : f ∈ schema.fields)
    {ms : List (Option String × Document)} {d : Document} (hmem : (some f.name, d) ∈ ms)
    (hdecode : schema.decode (room + 1) (.object ms) = .ok value) :
    ∃ s s', f.fill room d s = .ok s' := by
  obtain ⟨before, after, rfl⟩ := List.append_of_mem hmem
  obtain ⟨s, s', -, -, hfill, -⟩ := (h.decode_middle_iff hnames hf).1 hdecode
  exact ⟨s, s', hfill⟩

/-- Documents that are no objects and no arrays are no records. -/
theorem exists_of_decode {d : Document} (h : schema.decode room d = .ok value) :
    (∃ ms, d = .object ms) ∨ ∃ ds, d = .array ds := by
  cases d with
  | object ms => exact .inl ⟨ms, rfl⟩
  | array ds => exact .inr ⟨ds, rfl⟩
  | _ => cases h

end Schema

end BlockScript
