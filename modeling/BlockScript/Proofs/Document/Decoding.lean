import BlockScript.Document.Decoder
import Mathlib.Data.List.Forall2
import Mathlib.Data.List.Perm.Basic

/-!
# Decoding up to a relation

A decoder stops at the first problem that it meets. So two documents that differ in the order of
their members may be refused for different causes, and when both are accepted, what is read of them
may differ in the order of its entries. `Concur R` is the comparison that is left: both computations
come to values that `R` relates, or both are refused. A decoder **respects** a change of documents
if it treats documents before and after it alike (`Decoder.Respects`).

The members of an object go one by one into what was read before, so everything rests on folds:

* `Concur.foldlM` compares them member by member;
* `Concur.foldlM_perm` is for members in another order, of which any two may change places.

The first decoders to which this is put are those of tables (`Decoder.respects_keyed`). Records are
in `BlockScript.Proofs.Document.Records`.
-/

namespace BlockScript

/-- **Two computations that come to related values**, or are both refused, for whatever causes. -/
inductive Concur {ε α β : Type} (R : α → β → Prop) : Except ε α → Except ε β → Prop
  /-- Both come to a value. -/
  | ok {a : α} {b : β} (h : R a b) : Concur R (.ok a) (.ok b)
  /-- Both are refused. -/
  | error (cause cause' : ε) : Concur R (.error cause) (.error cause')

namespace Concur

variable {ε α β γ δ σ τ μ ν : Type} {R : α → β → Prop} {S : γ → δ → Prop} {x : Except ε α}
  {y : Except ε β}

/-- A computation concurs with itself. -/
theorem refl {R : α → α → Prop} (hR : ∀ a, R a a) (x : Except ε α) : Concur R x x := by
  cases x with
  | ok a => exact .ok (hR a)
  | error cause => exact .error cause cause

/-- Concurring may be composed. -/
theorem comp {Q : β → γ → Prop} {P : α → γ → Prop} {z : Except ε γ} (h : Concur R x y)
    (h' : Concur Q y z) (hcomp : ∀ {a b c}, R a b → Q b c → P a c) : Concur P x z := by
  cases h with
  | ok hR =>
    cases h' with
    | ok hQ => exact .ok (hcomp hR hQ)
  | error cause =>
    cases h' with
    | error _ cause' => exact .error cause cause'

/-- Functions of the results may be taken. -/
theorem map {f : α → γ} {g : β → δ} (h : Concur R x y) (hmap : ∀ {a b}, R a b → S (f a) (g b)) :
    Concur S (x.map f) (y.map g) := by
  cases h with
  | ok hR => exact .ok (hmap hR)
  | error cause cause' => exact .error cause cause'

/-- Computations that concur may be gone on with. -/
theorem bind {f : α → Except ε γ} {g : β → Except ε δ} (h : Concur R x y)
    (hbind : ∀ {a b}, R a b → Concur S (f a) (g b)) : Concur S (x >>= f) (y >>= g) := by
  cases h with
  | ok hR => exact hbind hR
  | error cause cause' => exact .error cause cause'

/-- Where one has a result so has the other. -/
theorem exists_right {a : α} (h : Concur R (.ok a) y) : ∃ b, y = .ok b ∧ R a b := by
  cases h with
  | ok hR => exact ⟨_, rfl, hR⟩

theorem exists_left {b : β} (h : Concur R x (.ok b)) : ∃ a, x = .ok a ∧ R a b := by
  cases h with
  | ok hR => exact ⟨_, rfl, hR⟩

theorem symm {Q : β → α → Prop} (h : Concur R x y) (hsymm : ∀ {a b}, R a b → Q b a) :
    Concur Q y x := by
  cases h with
  | ok hR => exact .ok (hsymm hR)
  | error cause cause' => exact .error cause' cause

/-- Two changes of a state, each by a value that may not be there, change places. -/
theorem swap {S : σ → σ → Prop} {f : σ → α → σ} {g : σ → β → σ} (s : σ) (x : Except ε α)
    (y : Except ε β) (hswap : ∀ a b, S (g (f s a) b) (f (g s b) a)) :
    Concur S (x.map (f s) >>= fun s ↦ y.map (g s)) (y.map (g s) >>= fun s ↦ x.map (f s)) := by
  rcases x with cause | a
  · rcases y with cause' | b
    · exact .error _ _
    · exact .error _ _
  · rcases y with cause' | b
    · exact .error _ _
    · exact .ok (hswap a b)

/-- What is refused in the end is refused. -/
theorem error_bind (cause cause' : ε) (z : Except ε γ) :
    Concur R (.error cause) (z >>= fun _ ↦ .error cause') := by
  rcases z with cause'' | c
  · exact .error cause cause''
  · exact .error cause cause'

/-! ### Folds -/

/-- Related members, one after another. -/
theorem foldlM {S : σ → τ → Prop} {M : μ → ν → Prop} {f : σ → μ → Except ε σ}
    {g : τ → ν → Except ε τ} {ms : List μ} {ns : List ν} (hms : List.Forall₂ M ms ns)
    (hstep : ∀ {s t m n}, m ∈ ms → n ∈ ns → M m n → S s t → Concur S (f s m) (g t n)) :
    ∀ {s : σ} {t : τ}, S s t → Concur S (ms.foldlM f s) (ns.foldlM g t) := by
  induction hms with
  | nil => exact fun h ↦ .ok h
  | cons hm _ ih =>
    intro s t h
    rw [List.foldlM_cons, List.foldlM_cons]
    refine (hstep List.mem_cons_self List.mem_cons_self hm h).bind (ih ?_)
    exact fun hmem hmem' ↦ hstep (List.mem_cons_of_mem _ hmem) (List.mem_cons_of_mem _ hmem')

/-- **The same members in another order**, where any two of them may change places. -/
theorem foldlM_perm {S : σ → σ → Prop} (hS : Equivalence S) (apart : μ → μ → Prop)
    (hapart : ∀ {m n}, apart m n → apart n m) {f : σ → μ → Except ε σ}
    (hstep : ∀ {s t m}, S s t → Concur S (f s m) (f t m))
    (hswap : ∀ {s m n}, apart m n →
      Concur S (f s m >>= fun s ↦ f s n) (f s n >>= fun s ↦ f s m))
    {ms ns : List μ} (hperm : ms.Perm ns) (hms : ms.Pairwise apart) (s : σ) :
    Concur S (ms.foldlM f s) (ns.foldlM f s) := by
  induction hperm generalizing s with
  | nil => exact .ok (hS.refl s)
  | cons m _ ih =>
    rw [List.foldlM_cons, List.foldlM_cons]
    rcases f s m with cause | t
    · exact .error cause cause
    · exact ih (List.pairwise_cons.1 hms).2 t
  | swap m n rest =>
    -- The first two change places, and the rest starts from what they come to.
    have hfirst := hswap (s := s) ((List.pairwise_cons.1 hms).1 m List.mem_cons_self)
    have hrest : ∀ {t t'}, S t t' → Concur S (rest.foldlM f t) (rest.foldlM f t') := by
      refine foldlM (M := Eq) (List.forall₂_same.2 fun _ _ ↦ rfl) ?_
      rintro _ _ m _ - - rfl h
      exact hstep h
    have hboth := hfirst.bind hrest
    rw [bind_assoc, bind_assoc] at hboth
    exact hboth
  | trans hperm hperm' ih ih' =>
    exact (ih hms s).comp (ih' (hms.perm hperm hapart) s) hS.trans

end Concur

/-- Members that change nothing. -/
theorem foldlM_of_idle {ε σ μ : Type} {f : σ → μ → Except ε σ} {ms : List μ}
    (hidle : ∀ s, ∀ m ∈ ms, f s m = .ok s) (s : σ) : ms.foldlM f s = .ok s := by
  induction ms generalizing s with
  | nil => rfl
  | cons m rest ih =>
    rw [List.foldlM_cons, hidle s m List.mem_cons_self]
    exact ih (fun s m hmem ↦ hidle s m (List.mem_cons_of_mem _ hmem)) s

/-! ### Documents that can be taken in whole -/

namespace Document

/-- All elements of a list have to be readable. -/
theorem allReadable_iff {room : Nat} {ds : List Document} :
    allReadable room ds = true ↔ ∀ d ∈ ds, d.readable room = true := by
  induction ds with
  | nil => exact ⟨fun _ _ hmem ↦ (by cases hmem), fun _ ↦ rfl⟩
  | cons d rest ih => rw [allReadable, Bool.and_eq_true, List.forall_mem_cons, ih]

/-- All members of an object do, and they need keys. -/
theorem membersReadable_iff {room : Nat} {ms : List (Option String × Document)} :
    membersReadable room ms = true ↔
      ∀ m ∈ ms, m.1.isSome = true ∧ m.2.readable room = true := by
  induction ms with
  | nil => exact ⟨fun _ _ hmem ↦ (by cases hmem), fun _ ↦ rfl⟩
  | cons m rest ih =>
    rw [membersReadable, Bool.and_eq_true, Bool.and_eq_true, List.forall_mem_cons, ih]

/-- An array that can be taken in whole leaves room for its items. -/
theorem exists_room_of_array {room : Nat} {ds : List Document}
    (h : (array ds).readable room = true) :
    ∃ left, room = left + 1 ∧ ∀ d ∈ ds, d.readable left = true := by
  rw [readable, Bool.and_eq_true, decide_eq_true_eq] at h
  obtain ⟨left, rfl⟩ := Nat.exists_eq_add_of_lt h.1
  rw [Nat.zero_add] at h ⊢
  exact ⟨left, rfl, allReadable_iff.1 h.2⟩

/-- An object that can be taken in whole leaves room for its members. -/
theorem exists_room_of_object {room : Nat} {ms : List (Option String × Document)}
    (h : (object ms).readable room = true) :
    ∃ left, room = left + 1 ∧ ∀ m ∈ ms, m.1.isSome = true ∧ m.2.readable left = true := by
  rw [readable, Bool.and_eq_true, decide_eq_true_eq] at h
  obtain ⟨left, rfl⟩ := Nat.exists_eq_add_of_lt h.1
  rw [Nat.zero_add] at h ⊢
  exact ⟨left, rfl, membersReadable_iff.1 h.2⟩

end Document

/-! ### Tables -/

section Option

variable {α β : Type} {R : α → β → Prop} {x : Option α} {y : Option β}

theorem isSome_eq_of_rel (h : Option.Rel R x y) : x.isSome = y.isSome := by
  cases h with
  | some _ => rfl
  | none => rfl

theorem rel_getD (h : Option.Rel R x y) {a : α} {b : β} (hR : R a b) : R (x.getD a) (y.getD b) := by
  cases h with
  | some h => exact h
  | none => exact hR

end Option

namespace Table

variable {α : Type} {R : α → α → Prop}

/-- What two tables have under each key is related. -/
def Related (R : α → α → Prop) (t t' : Table α) : Prop :=
  ∀ key, Option.Rel R (t.get? key) (t'.get? key)

theorem related_refl (hR : ∀ a, R a a) (t : Table α) : t.Related R t := by
  intro key
  cases t.get? key with
  | none => exact .none
  | some a => exact .some (hR a)

end Table

/-! ### Changes of lists and maps -/

namespace Document

/-- A list whose items may have changed. -/
inductive ListRevised (inside : Document → Document → Prop) : Document → Document → Prop
  /-- Nothing has changed. -/
  | same (d : Document) : ListRevised inside d d
  /-- The items have changed. -/
  | items {ds ds' : List Document} (h : List.Forall₂ inside ds ds') :
      ListRevised inside (.array ds) (.array ds')

/-- **A map whose values may have changed, and whose members may stand in another order.** They keep
their order if a key stands twice, since it matters then. -/
inductive MapRevised (inside : Document → Document → Prop) : Document → Document → Prop
  /-- Nothing has changed. -/
  | same (d : Document) : MapRevised inside d d
  /-- The values have changed, and then the order. -/
  | members {ms kept ms' : List (Option String × Document)}
      (hkept : List.Forall₂ (fun m m' ↦ m.1 = m'.1 ∧ inside m.2 m'.2) ms kept)
      (hperm : kept.Perm ms') (hkeys : kept = ms' ∨ (ms.map Prod.fst).Nodup) :
      MapRevised inside (.object ms) (.object ms')

/-- Changing values does not change keys. -/
theorem keys_eq_of_forall₂ {M : Document → Document → Prop}
    {ms ms' : List (Option String × Document)}
    (h : List.Forall₂ (fun m m' ↦ m.1 = m'.1 ∧ M m.2 m'.2) ms ms') :
    ms.map Prod.fst = ms'.map Prod.fst := by
  induction h with
  | nil => rfl
  | cons hm _ ih => rw [List.map_cons, List.map_cons, hm.1, ih]

end Document

/-! ### Decoders that respect changes -/

namespace Decoder

variable {α β σ : Type} {change : Document → Document → Prop} {R : α → α → Prop}

/-- **The decoder respects a change of documents**: documents before and after the change, if they
can be taken in whole, are decoded alike. -/
def Respects (decode : Decoder α) (change : Document → Document → Prop) (R : α → α → Prop) :
    Prop :=
  ∀ {room : Nat} {d d' : Document}, change d d' → d.readable room = true →
    d'.readable room = true → Concur R (decode room d) (decode room d')

/-- No change at all is respected. -/
theorem respects_eq (decode : Decoder α) (hR : ∀ a, R a a) : decode.Respects Eq R := by
  rintro room d _ rfl - -
  exact .refl hR _

/-- Puts a member into what was read so far, if its key can be read. -/
def putKeyed (put : σ → String → Document → Except Refusal σ) (sofar : σ)
    (m : Option String × Document) : Except Refusal σ :=
  match m.1 with
  | none => .error .malformed
  | some key => put sofar key m.2

/-- Members are put one after the other. -/
theorem members_eq_foldlM (put : σ → String → Document → Except Refusal σ) (sofar : σ)
    (ms : List (Option String × Document)) :
    members put sofar ms = ms.foldlM (putKeyed put) sofar := by
  induction ms generalizing sofar with
  | nil => rfl
  | cons m rest ih =>
    obtain ⟨- | key, d⟩ := m
    · rfl
    · rw [members, List.foldlM_cons]
      exact congrArg _ (funext ih)

/-- A list is decoded item by item. -/
theorem respects_list {decode : Decoder α} (h : decode.Respects change R) (hR : ∀ a, R a a) :
    (list decode).Respects (Document.ListRevised change) (List.Forall₂ R) := by
  have hitems : ∀ {room : Nat} {ds ds' : List Document}, List.Forall₂ change ds ds' →
      (∀ d ∈ ds, d.readable room = true) → (∀ d ∈ ds', d.readable room = true) →
      Concur (List.Forall₂ R) (items decode room ds) (items decode room ds') := by
    intro room ds ds' hds hread hread'
    induction hds with
    | nil => exact .ok .nil
    | cons hd _ ih =>
      rw [List.forall_mem_cons] at hread hread'
      refine (h hd hread.1 hread'.1).bind fun hfirst ↦ ?_
      exact (ih hread.2 hread'.2).bind fun hrest ↦ .ok (.cons hfirst hrest)
  intro room d d' hchange hread hread'
  cases hchange with
  | same d => exact .refl (fun _ ↦ List.forall₂_same.2 fun a _ ↦ hR a) _
  | items hds =>
    obtain ⟨left, rfl, hitem⟩ := Document.exists_room_of_array hread
    obtain ⟨_, hroom, hitem'⟩ := Document.exists_room_of_array hread'
    obtain rfl := Nat.succ.inj hroom
    exact hitems hds hitem hitem'

/-! ### Maps -/

/-- A map, read into a table by means of `update`. -/
def keyed (update : Table α → String → β → Table α) (decode : Decoder β) : Decoder (Table α)
  | room, .object ms => enter room fun room ↦
    members (fun t key d ↦ (decode room d).map (update t key)) Table.empty ms
  | _, d => .error (d.unexpected .table)

/-- A table is read as an object whose entries are inserted. -/
theorem table_eq_keyed (decode : Decoder α) : table decode = keyed Table.insert decode := by
  funext room d
  cases d <;> rfl

/-- Members with different keys are read into a table in any order. -/
theorem foldlM_perm_keyed {update : Table α → String → β → Table α} {entry : β → Option α}
    {decode : Decoder β}
    (hupdate : ∀ t key v k, (update t key v).get? k = if k = key then entry v else t.get? k)
    (room : Nat) {ms ms' : List (Option String × Document)} (hperm : ms.Perm ms')
    (hkeys : ms.Pairwise fun m m' ↦ m.1 ≠ m'.1) (t : Table α) :
    Concur (fun t t' : Table α ↦ t.get? = t'.get?)
      (ms.foldlM (putKeyed fun t key d ↦ (decode room d).map (update t key)) t)
      (ms'.foldlM (putKeyed fun t key d ↦ (decode room d).map (update t key)) t) := by
  have hget : ∀ {t t' : Table α} {key : String} {v : β}, t.get? = t'.get? →
      (update t key v).get? = (update t' key v).get? := by
    intro t t' key v h
    funext k
    rw [hupdate, hupdate, h]
  refine Concur.foldlM_perm (S := fun t t' : Table α ↦ t.get? = t'.get?)
    ⟨fun _ ↦ rfl, Eq.symm, Eq.trans⟩ (fun m m' ↦ m.1 ≠ m'.1) Ne.symm ?_ ?_ hperm hkeys t
  · rintro t t' ⟨- | key, d⟩ h
    · exact .error _ _
    · exact (Concur.refl (R := Eq) (fun _ ↦ rfl) (decode room d)).map fun hv ↦ hv ▸ hget h
  · rintro t ⟨- | key, d⟩ ⟨- | key', d'⟩ hne
    · exact .error _ _
    · exact .error_bind _ _ ((decode room d').map (update t key'))
    · exact (Concur.error_bind _ _ ((decode room d).map (update t key))).symm Eq.symm
    · -- If both values are there, each of the two updates leaves the other one's key alone.
      refine Concur.swap (f := fun t ↦ update t key) (g := fun t ↦ update t key') t _ _ ?_
      intro v v'
      funext k
      rw [hupdate, hupdate, hupdate, hupdate]
      have hkeys : key ≠ key' := fun h ↦ hne (congrArg some h)
      by_cases hk : k = key
      · rw [if_pos hk, if_pos hk, if_neg (hk ▸ hkeys)]
      · rw [if_neg hk, if_neg hk]

/-- **A map is read into a table in any order**, provided that an update decides about its own key
and about no other. -/
theorem respects_keyed {update : Table α → String → β → Table α} (entry : β → Option α)
    {decode : Decoder β}
    (hupdate : ∀ t key v k, (update t key v).get? k = if k = key then entry v else t.get? k)
    (h : decode.Respects change fun v v' ↦ Option.Rel R (entry v) (entry v')) (hR : ∀ a, R a a) :
    (keyed update decode).Respects (Document.MapRevised change) (Table.Related R) := by
  intro room d d' hchange hread hread'
  cases hchange with
  | same d => exact .refl (Table.related_refl hR) _
  | @members ms kept ms' hkept hperm hkeys =>
    obtain ⟨left, rfl, hmember⟩ := Document.exists_room_of_object hread
    obtain ⟨_, hroom, hmember'⟩ := Document.exists_room_of_object hread'
    obtain rfl := Nat.succ.inj hroom
    set put : Table α → String → Document → Except Refusal (Table α) :=
      fun t key d ↦ (decode left d).map (update t key) with hput
    show Concur _ (members put Table.empty ms) (members put Table.empty ms')
    rw [members_eq_foldlM, members_eq_foldlM]
    -- First the values change, and then the order.
    have hvalues : Concur (Table.Related R) (ms.foldlM (putKeyed put) Table.empty)
        (kept.foldlM (putKeyed put) Table.empty) := by
      refine Concur.foldlM hkept ?_ (Table.related_refl hR _)
      rintro t t' ⟨key, d⟩ ⟨_, d'⟩ hmem hmem' ⟨rfl, hd⟩ ht
      rcases key with - | key
      · exact .error _ _
      · have hread := (hmember _ hmem).2
        have hread' := (hmember' _ (hperm.mem_iff.1 hmem')).2
        refine (h hd hread hread').map fun hv k ↦ ?_
        rw [hupdate, hupdate]
        split
        · exact hv
        · exact ht k
    have horder : Concur (fun t t' : Table α ↦ t.get? = t'.get?)
        (kept.foldlM (putKeyed put) Table.empty) (ms'.foldlM (putKeyed put) Table.empty) := by
      rcases hkeys with rfl | hkeys
      · exact .refl (R := fun t t' : Table α ↦ t.get? = t'.get?) (fun _ ↦ rfl) _
      · rw [Document.keys_eq_of_forall₂ hkept] at hkeys
        exact foldlM_perm_keyed hupdate left hperm (List.pairwise_map.1 hkeys) Table.empty
    refine hvalues.comp horder fun {t t' t''} ht ht' key ↦ ?_
    rw [← ht']
    exact ht key

end Decoder

end BlockScript
