import BlockScript.Document.Record
import BlockScript.Proofs.Document.Decoding
import Mathlib.Data.List.Pairwise

/-!
# Records in any order, among other members

A record that is written as an object is read member by member: a member with the name of a field
fills that field, unless it is filled already, and any other member is passed over. Hence two
members change places whatever they are, if only two fields can be filled in either order
(`Schema.Orderless`), which holds wherever each field has a place of its own in the draft
(`RecordField.independent_ofField`).

`Document.RecordRevised` is what may be done to a written record: the values of its fields change,
members with other names are added, and all of them are put in any order. In the form of an array
only the values change. A schema **tolerates** changes of the values if its fields do
(`Schema.Tolerates`), and then the record as a whole is read alike (`Schema.respects`).
-/

namespace BlockScript

/-! ### Changes of records -/

namespace Document

/-- Values in the order of the fields that they belong to. What is left over belongs to none. -/
inductive ItemsRevised (inside : String → Document → Document → Prop) :
    List String → List Document → List Document → Prop
  /-- No values are left. -/
  | nil (names : List String) : ItemsRevised inside names [] []
  /-- The value of a field. -/
  | cons {name : String} {names : List String} {d d' : Document} {ds ds' : List Document}
      (h : inside name d d') (hrest : ItemsRevised inside names ds ds') :
      ItemsRevised inside (name :: names) (d :: ds) (d' :: ds')
  /-- No fields are left. -/
  | over (ds : List Document) : ItemsRevised inside [] ds ds

/-- **A record with fields of these names, revised**: `inside` says how the value of a field may
have changed. -/
inductive RecordRevised (names : List String) (inside : String → Document → Document → Prop) :
    Document → Document → Prop
  /-- Nothing has changed. -/
  | same (d : Document) : RecordRevised names inside d d
  /-- Values have changed, members with other names have been added, and then the order has
  changed. -/
  | members {ms kept extra ms' : List (Option String × Document)}
      (hkept : List.Forall₂ (fun m m' ↦ m.1 = m'.1 ∧ ∀ name, m.1 = some name →
        inside name m.2 m'.2) ms kept)
      (hextra : ∀ m ∈ extra, ∀ name ∈ names, m.1 ≠ some name)
      (hperm : (kept ++ extra).Perm ms') :
      RecordRevised names inside (.object ms) (.object ms')
  /-- Values have changed in a record that is written as an array. -/
  | items {ds ds' : List Document} (h : ItemsRevised inside names ds ds') :
      RecordRevised names inside (.array ds) (.array ds')

end Document

/-! ### Fields -/

namespace RecordField

variable {σ α β : Type}

/-- Puts a field that is not there yet into a draft. -/
def put (f : RecordField σ) (room : Nat) (d : Document) (draft : σ) : Except Refusal σ :=
  if f.filled draft then .error (.mismatch (.duplicateField f.name)) else f.fill room d draft

/-- **Two fields that have nothing to do with each other.** -/
structure Independent (f g : RecordField σ) : Prop where
  /-- Filling the first does not fill the second. -/
  filled_right : ∀ {room : Nat} {d : Document} {s s' : σ}, f.fill room d s = .ok s' →
    g.filled s' = g.filled s
  /-- Filling the second does not fill the first. -/
  filled_left : ∀ {room : Nat} {d : Document} {s s' : σ}, g.fill room d s = .ok s' →
    f.filled s' = f.filled s
  /-- They can be filled in either order. -/
  swap : ∀ (room : Nat) (d d' : Document) (s : σ),
    Concur Eq (f.fill room d s >>= g.fill room d') (g.fill room d' s >>= f.fill room d)

theorem Independent.symm {f g : RecordField σ} (h : f.Independent g) : g.Independent f :=
  ⟨h.filled_left, h.filled_right, fun room d d' s ↦ (h.swap room d' d s).symm Eq.symm⟩

theorem exists_of_fill_ofField {name : String} {decode : Decoder α} {get : σ → Option α}
    {set : σ → α → σ} {room : Nat} {d : Document} {s s' : σ}
    (h : (ofField name decode get set).fill room d s = .ok s') :
    ∃ a, decode room d = .ok a ∧ s' = set s a := by
  change (decode room d).map (set s) = .ok s' at h
  rcases hd : decode room d with cause | a
  · rw [hd] at h
    cases h
  · rw [hd] at h
    exact ⟨a, rfl, (Except.ok.inj h).symm⟩

instance : Std.Symm (@Independent σ) :=
  ⟨fun _ _ h ↦ h.symm⟩

/-- **A field that has been put into a draft is there.** -/
structure Settled (f : RecordField σ) : Prop where
  /-- It is there after it has been filled. -/
  filled_of_fill : ∀ {room : Nat} {d : Document} {s s' : σ}, f.fill room d s = .ok s' →
    f.filled s' = true

/-- A field with a place of its own is there once it has been put there. -/
@[simp]
theorem settled_ofField {name : String} {decode : Decoder α} {get : σ → Option α}
    {set : σ → α → σ} (hget : ∀ s a, get (set s a) = some a) :
    (ofField name decode get set).Settled where
  filled_of_fill := by
    intro room d s s' hfill
    obtain ⟨a, -, rfl⟩ := exists_of_fill_ofField hfill
    exact congrArg Option.isSome (hget s a)

/-- Fields with places of their own are independent. -/
@[simp]
theorem independent_ofField {name name' : String} {decode : Decoder α} {decode' : Decoder β}
    {get : σ → Option α} {get' : σ → Option β} {set : σ → α → σ} {set' : σ → β → σ}
    (hswap : ∀ s a b, set' (set s a) b = set (set' s b) a) (hget : ∀ s b, get (set' s b) = get s)
    (hget' : ∀ s a, get' (set s a) = get' s) :
    (ofField name decode get set).Independent (ofField name' decode' get' set') where
  filled_right := by
    intro room d s s' hfill
    obtain ⟨a, -, rfl⟩ := exists_of_fill_ofField hfill
    exact congrArg Option.isSome (hget' s a)
  filled_left := by
    intro room d s s' hfill
    obtain ⟨b, -, rfl⟩ := exists_of_fill_ofField hfill
    exact congrArg Option.isSome (hget s b)
  swap := fun room d d' s ↦
    .swap (f := set) (g := set') s (decode room d) (decode' room d') (hswap s)

/-- **The field tolerates changes of its value**, up to a relation between drafts. -/
structure Tolerates (f : RecordField σ) (inside : String → Document → Document → Prop)
    (S : σ → σ → Prop) : Prop where
  /-- It is in both of two related drafts, or in neither. -/
  filled : ∀ {s s' : σ}, S s s' → f.filled s = f.filled s'
  /-- It is filled alike. -/
  fill : ∀ {room : Nat} {d d' : Document} {s s' : σ}, inside f.name d d' →
    d.readable room = true → d'.readable room = true → S s s' →
    Concur S (f.fill room d s) (f.fill room d' s')

/-- A field is filled alike if its decoder respects the change. -/
theorem tolerates_ofField {name : String} {decode : Decoder α} {get : σ → Option α}
    {set : σ → α → σ} {inside : String → Document → Document → Prop}
    {change : Document → Document → Prop} {S : σ → σ → Prop} {R : α → α → Prop}
    (hdecode : decode.Respects change R) (hinside : ∀ {d d'}, inside name d d' → change d d')
    (hget : ∀ {s s'}, S s s' → (get s).isSome = (get s').isSome)
    (hset : ∀ {s s' a a'}, S s s' → R a a' → S (set s a) (set s' a')) :
    (ofField name decode get set).Tolerates inside S where
  filled := hget
  fill := fun hd hread hread' hs ↦ (hdecode (hinside hd) hread hread').map (hset hs)

/-- A field whose value has not changed is filled alike whatever its decoder is. -/
theorem tolerates_ofField_of_eq {name : String} {decode : Decoder α} {get : σ → Option α}
    {set : σ → α → σ} {inside : String → Document → Document → Prop} {S : σ → σ → Prop}
    (hinside : ∀ {d d'}, inside name d d' → d = d') (hget : ∀ {s s'}, S s s' → get s = get s')
    (hset : ∀ {s s'} (a : α), S s s' → S (set s a) (set s' a)) :
    (ofField name decode get set).Tolerates inside S := by
  refine tolerates_ofField (decode.respects_eq fun _ ↦ rfl) hinside
    (fun h ↦ congrArg Option.isSome (hget h)) ?_
  rintro s s' a _ h rfl
  exact hset a h

/-- Every field tolerates no change at all. -/
theorem tolerates_eq (f : RecordField σ) : f.Tolerates (fun _ ↦ Eq) Eq where
  filled := congrArg f.filled
  fill := by
    rintro room d _ s _ rfl - - rfl
    exact .refl (fun _ ↦ rfl) _

/-! ### Two members change places -/

variable {f g : RecordField σ} {room : Nat} {d d' : Document} {s : σ}

/-- One field twice is refused in either order. -/
theorem Settled.put_put (h : f.Settled) (room : Nat) (d d' : Document) (s : σ) :
    Concur Eq (f.put room d s >>= f.put room d') (f.put room d' s >>= f.put room d) := by
  have hrefused : ∀ d d', ∃ cause, (f.put room d s >>= f.put room d') = .error cause := by
    intro d d'
    rw [put]
    split
    · exact ⟨_, rfl⟩
    · rcases hd : f.fill room d s with cause | s'
      · exact ⟨cause, rfl⟩
      · refine ⟨.mismatch (.duplicateField f.name), ?_⟩
        show f.put room d' s' = _
        rw [put, if_pos (h.filled_of_fill hd)]
  obtain ⟨cause, hleft⟩ := hrefused d d'
  obtain ⟨cause', hright⟩ := hrefused d' d
  rw [hleft, hright]
  exact .error cause cause'

/-- Independent fields are put into a draft in either order. -/
theorem Independent.put_put (h : f.Independent g) (room : Nat) (d d' : Document) (s : σ) :
    Concur Eq (f.put room d s >>= g.put room d') (g.put room d' s >>= f.put room d) := by
  -- A field that is there already stays there.
  have hput : ∀ {f g : RecordField σ}, f.Independent g → ∀ d d', g.filled s = true →
      ∃ cause, (f.put room d s >>= g.put room d') = .error cause := by
    intro f g hfg d d' hg
    rw [put]
    split
    · exact ⟨_, rfl⟩
    · rcases hd : f.fill room d s with cause | s'
      · exact ⟨cause, rfl⟩
      · refine ⟨.mismatch (.duplicateField g.name), ?_⟩
        show g.put room d' s' = _
        rw [put, if_pos ((hfg.filled_right hd).trans hg)]
  have hrefused : ∀ {f : RecordField σ} (g : RecordField σ) (d d'), f.filled s = true →
      ∃ cause, (f.put room d s >>= g.put room d') = .error cause := by
    intro f g d d' hf
    rw [put, if_pos hf]
    exact ⟨_, rfl⟩
  by_cases hf : f.filled s = true
  · obtain ⟨cause, hfg⟩ := hrefused g d d' hf
    obtain ⟨cause', hgf⟩ := hput h.symm d' d hf
    rw [hfg, hgf]
    exact .error cause cause'
  · by_cases hg : g.filled s = true
    · obtain ⟨cause, hfg⟩ := hput h d d' hg
      obtain ⟨cause', hgf⟩ := hrefused f d' d hg
      rw [hfg, hgf]
      exact .error cause cause'
    · -- Neither is there, and neither comes to be there by the other.
      have hfill : ∀ {f g : RecordField σ}, f.Independent g → ∀ d d', f.filled s ≠ true →
          g.filled s ≠ true →
          (f.put room d s >>= g.put room d') = (f.fill room d s >>= g.fill room d') := by
        intro f g hfg d d' hf hg
        rw [put, if_neg hf]
        rcases hd : f.fill room d s with cause | s'
        · rfl
        · show g.put room d' s' = g.fill room d' s'
          rw [put, if_neg (hfg.filled_right hd ▸ hg)]
      rw [hfill h d d' hf hg, hfill h.symm d' d hg hf]
      exact h.swap room d d' s

end RecordField

/-! ### Members in another order -/

namespace Schema

variable {σ α : Type} {schema : Schema σ α}

/-- The names of the fields, in order. -/
def names (schema : Schema σ α) : List String :=
  schema.fields.map RecordField.name

/-- **The order of the fields does not matter.** -/
structure Orderless (schema : Schema σ α) : Prop where
  /-- A field that has been put into a draft is there. -/
  settled : ∀ f ∈ schema.fields, f.Settled
  /-- Any two fields have nothing to do with each other. -/
  independent : schema.fields.Pairwise RecordField.Independent

/-- Whether the order matters is a question of the fields, one by one and in pairs. With a list of
fields that have places of their own, simplification decides it. -/
theorem orderless_iff : schema.Orderless ↔
    (∀ f ∈ schema.fields, f.Settled) ∧ schema.fields.Pairwise RecordField.Independent :=
  ⟨fun h ↦ ⟨h.settled, h.independent⟩, fun h ↦ ⟨h.1, h.2⟩⟩

/-- The members of a name put a field into the draft, or are passed over. -/
theorem putMember_cases (schema : Schema σ α) (key : String) :
    (∃ f ∈ schema.fields, f.name = key ∧
      ∀ room s d, schema.putMember room s key d = f.put room d s) ∨
    (key ∉ schema.names ∧
      ∀ room s d, schema.putMember room s key d = (Decoder.skipped room d).map fun _ ↦ s) := by
  rcases hfind : schema.fields.find? (fun f ↦ f.name == key) with - | f
  · refine .inr ⟨?_, fun room s d ↦ by rw [putMember, hfind]⟩
    intro hmem
    obtain ⟨f, hf, rfl⟩ := List.mem_map.1 hmem
    exact absurd (beq_self_eq_true f.name) (List.find?_eq_none.1 hfind f hf)
  · have hname : f.name = key := beq_iff_eq.1 (List.find?_some hfind :)
    refine .inl ⟨f, List.mem_of_find?_eq_some hfind, hname, fun room s d ↦ ?_⟩
    rw [putMember, hfind, RecordField.put, hname]

/-- A member that is passed over changes places with anything. -/
theorem skip_swap (x : Except Refusal Unit) (act : σ → Except Refusal σ) (s : σ) :
    Concur Eq ((x.map fun _ ↦ s) >>= act) (act s >>= fun s ↦ x.map fun _ ↦ s) := by
  rcases x with cause | -
  · exact .error_bind cause cause (act s)
  · show Concur Eq (act s) (act s >>= fun s ↦ .ok s)
    rw [show (fun s ↦ (.ok s : Except Refusal σ)) = pure from rfl, bind_pure]
    exact .refl (fun _ ↦ rfl) _

/-- **Members change places**, whatever they are. -/
theorem Orderless.putMember_swap (h : schema.Orderless) (room : Nat) (s : σ) (key key' : String)
    (d d' : Document) :
    Concur Eq (schema.putMember room s key d >>= fun s ↦ schema.putMember room s key' d')
      (schema.putMember room s key' d' >>= fun s ↦ schema.putMember room s key d) := by
  obtain ⟨f, hf, hname, hput⟩ | ⟨-, hput⟩ := schema.putMember_cases key
  · obtain ⟨g, hg, hname', hput'⟩ | ⟨-, hput'⟩ := schema.putMember_cases key'
    · simp only [hput, hput']
      by_cases hfg : f = g
      · subst hfg
        exact (h.settled f hf).put_put room d d' s
      · exact (h.independent.forall hf hg hfg).put_put room d d' s
    · simp only [hput, hput']
      exact (skip_swap (Decoder.skipped room d') (f.put room d) s).symm Eq.symm
  · simp only [hput]
    exact skip_swap (Decoder.skipped room d) (fun s ↦ schema.putMember room s key' d') s

/-- **The members of a record are read in any order.** -/
theorem Orderless.members_perm (h : schema.Orderless) (room : Nat)
    {ms ms' : List (Option String × Document)} (hperm : ms.Perm ms') (s : σ) :
    Concur Eq (Decoder.members (schema.putMember room) s ms)
      (Decoder.members (schema.putMember room) s ms') := by
  rw [Decoder.members_eq_foldlM, Decoder.members_eq_foldlM]
  refine Concur.foldlM_perm eq_equivalence (fun _ _ ↦ True) (fun _ ↦ trivial) ?_ ?_ hperm
    (List.pairwise_of_forall fun _ _ ↦ trivial) s
  · rintro s _ m rfl
    exact .refl (fun _ ↦ rfl) _
  · rintro s ⟨- | key, d⟩ ⟨- | key', d'⟩ -
    · exact .error _ _
    · exact .error_bind _ _ (schema.putMember room s key' d')
    · exact (Concur.error_bind _ _ (schema.putMember room s key d)).symm Eq.symm
    · exact h.putMember_swap room s key key' d d'

/-! ### Revised records -/

/-- **The schema tolerates changes of the values of its fields**: they are filled alike, and records
are made alike of related drafts. -/
structure Tolerates (schema : Schema σ α) (inside : String → Document → Document → Prop)
    (S : σ → σ → Prop) (R : α → α → Prop) : Prop where
  /-- The empty draft is related to itself. -/
  blank : S schema.blank schema.blank
  /-- Every field tolerates them. -/
  fields : ∀ f ∈ schema.fields, f.Tolerates inside S
  /-- Records are made alike. -/
  finish : ∀ {s s' : σ}, S s s' → Concur R (schema.finish s) (schema.finish s')

variable {inside : String → Document → Document → Prop} {S : σ → σ → Prop} {R : α → α → Prop}

theorem Tolerates.putMember (h : schema.Tolerates inside S R) {room : Nat} {key : String}
    {d d' : Document} {s s' : σ} (hd : inside key d d') (hread : d.readable room = true)
    (hread' : d'.readable room = true) (hs : S s s') :
    Concur S (schema.putMember room s key d) (schema.putMember room s' key d') := by
  obtain ⟨f, hf, rfl, hput⟩ | ⟨-, hput⟩ := schema.putMember_cases key
  · rw [hput, hput, RecordField.put, RecordField.put, (h.fields f hf).filled hs]
    split
    · exact .error _ _
    · exact (h.fields f hf).fill hd hread hread' hs
  · -- Neither value has a meaning, and both are well formed.
    rw [hput, hput, Decoder.skipped, if_pos (Document.wellFormed_of_readable hread),
      Decoder.skipped, if_pos (Document.wellFormed_of_readable hread')]
    exact .ok hs

/-- Members with other names change nothing. -/
theorem members_eq_of_notMem {room : Nat} {ms : List (Option String × Document)}
    (hread : ∀ m ∈ ms, m.1.isSome = true ∧ m.2.readable room = true)
    (hnames : ∀ m ∈ ms, ∀ name ∈ schema.names, m.1 ≠ some name) (s : σ) :
    ms.foldlM (Decoder.putKeyed (schema.putMember room)) s = .ok s := by
  refine foldlM_of_idle ?_ s
  rintro s ⟨- | key, d⟩ hmem
  · cases (hread _ hmem).1
  · obtain ⟨f, hf, hname, -⟩ | ⟨-, hput⟩ := schema.putMember_cases key
    · exact absurd (congrArg some hname.symm)
        (hnames _ hmem f.name (List.mem_map_of_mem hf))
    · show schema.putMember room s key d = .ok s
      rw [hput, Decoder.skipped, if_pos (Document.wellFormed_of_readable (hread _ hmem).2)]
      rfl

/-- Records are made alike, whatever is said of a field that is missing. -/
theorem Tolerates.finishOr (h : schema.Tolerates inside S R) (lacking : String → Mismatch)
    {s s' : σ} (hs : S s s') :
    Concur R (schema.finishOr lacking s) (schema.finishOr lacking s') := by
  have hfinish := h.finish hs
  rw [Schema.finishOr, Schema.finishOr]
  generalize schema.finish s = x at hfinish ⊢
  generalize schema.finish s' = y at hfinish ⊢
  cases hfinish with
  | ok hR => exact .ok hR
  | error _ _ => exact .error _ _

theorem Tolerates.putItems (h : schema.Tolerates inside S R) {room : Nat}
    {fields : List (RecordField σ)} (hsub : ∀ f ∈ fields, f ∈ schema.fields)
    {ds ds' : List Document}
    (hds : Document.ItemsRevised inside (fields.map RecordField.name) ds ds')
    (hread : ∀ d ∈ ds, d.readable room = true) (hread' : ∀ d ∈ ds', d.readable room = true)
    {s s' : σ} (hs : S s s') :
    Concur S (Schema.putItems room fields ds s) (Schema.putItems room fields ds' s') := by
  induction fields generalizing ds ds' s s' with
  | nil =>
    obtain - | - | ds := hds
    · exact .ok hs
    · rcases ds with - | ⟨d, ds⟩
      · exact .ok hs
      · exact .error _ _
  | cons f fields ih =>
    obtain - | ⟨hd, hrest⟩ | - := hds
    · exact .ok hs
    · rw [List.forall_mem_cons] at hsub hread hread'
      refine ((h.fields f hsub.1).fill hd hread.1 hread'.1 hs).bind fun hs ↦ ?_
      exact ih hsub.2 hrest hread.2 hread'.2 hs

/-- **A record is read alike, however it is revised.** -/
theorem respects (horder : schema.Orderless) (h : schema.Tolerates inside S R) (hR : ∀ a, R a a) :
    schema.decode.Respects (Document.RecordRevised schema.names inside) R := by
  intro room d d' hchange hread hread'
  cases hchange with
  | same d => exact .refl hR _
  | @members ms kept extra ms' hkept hextra hperm =>
    obtain ⟨left, rfl, hmember⟩ := Document.exists_room_of_object hread
    obtain ⟨_, hroom, hmember'⟩ := Document.exists_room_of_object hread'
    obtain rfl := Nat.succ.inj hroom
    have hmemberKept : ∀ m ∈ kept, m.1.isSome = true ∧ m.2.readable left = true :=
      fun m hmem ↦ hmember' m (hperm.mem_iff.1 (List.mem_append_left _ hmem))
    have hmemberExtra : ∀ m ∈ extra, m.1.isSome = true ∧ m.2.readable left = true :=
      fun m hmem ↦ hmember' m (hperm.mem_iff.1 (List.mem_append_right _ hmem))
    -- First the values change, then members are added, and then the order changes.
    have hvalues : Concur S (Decoder.members (schema.putMember left) schema.blank ms)
        (Decoder.members (schema.putMember left) schema.blank kept) := by
      rw [Decoder.members_eq_foldlM, Decoder.members_eq_foldlM]
      refine Concur.foldlM hkept ?_ h.blank
      rintro s s' ⟨- | key, d⟩ ⟨_, d'⟩ hmem hmem' ⟨rfl, hd⟩ hs
      · exact .error _ _
      · exact h.putMember (hd key rfl) (hmember _ hmem).2 (hmemberKept _ hmem').2 hs
    have hadded : Decoder.members (schema.putMember left) schema.blank (kept ++ extra) =
        Decoder.members (schema.putMember left) schema.blank kept := by
      rw [Decoder.members_eq_foldlM, Decoder.members_eq_foldlM, List.foldlM_append]
      rcases kept.foldlM (Decoder.putKeyed (schema.putMember left)) schema.blank with cause | s
      · rfl
      · exact members_eq_of_notMem hmemberExtra hextra s
    have horder := horder.members_perm left hperm schema.blank
    rw [hadded] at horder
    refine (hvalues.comp horder fun hs heq ↦ heq ▸ hs).bind fun hs ↦ ?_
    exact h.finishOr _ hs
  | items hds =>
    obtain ⟨left, rfl, hitem⟩ := Document.exists_room_of_array hread
    obtain ⟨_, hroom, hitem'⟩ := Document.exists_room_of_array hread'
    obtain rfl := Nat.succ.inj hroom
    refine (h.putItems (fun _ hf ↦ hf) hds hitem hitem' h.blank).bind fun hs ↦ ?_
    exact h.finishOr _ hs

end Schema

end BlockScript
