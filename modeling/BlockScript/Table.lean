/-!
# Tables keyed by text

A finite map from texts to values, as the list of its entries. That no key stands twice is part of
the type, so a table is determined up to the order of its entries by what `Table.get?` answers; no
operation but `Table.toList` lets that order be seen.

The three equations `get?_empty`, `get?_insert` and `get?_erase` say all there is to know about
look-up.
-/

namespace BlockScript

/-- A finite map from texts to values of type `α`. -/
structure Table (α : Type) where
  /-- The entries. -/
  toList : List (String × α)
  /-- Every key stands once. -/
  nodup_keys : (toList.map Prod.fst).Nodup
deriving DecidableEq

namespace Table

variable {α : Type}

/-- The table without entries. -/
def empty : Table α :=
  ⟨[], List.nodup_nil⟩

instance : EmptyCollection (Table α) :=
  ⟨empty⟩

instance : Inhabited (Table α) :=
  ⟨empty⟩

/-- The value under a key. -/
def get? (t : Table α) (key : String) : Option α :=
  t.toList.lookup key

/-- Whether a key has a value. -/
def contains (t : Table α) (key : String) : Bool :=
  (t.get? key).isSome

/-- The table without a key. -/
def erase (t : Table α) (key : String) : Table α where
  toList := t.toList.filter fun entry ↦ entry.1 != key
  nodup_keys := (List.Sublist.map Prod.fst List.filter_sublist).nodup t.nodup_keys

/-- No entry is left under an erased key. -/
theorem key_notMem_erase (t : Table α) (key : String) :
    key ∉ (t.erase key).toList.map Prod.fst := by
  simp [erase]

/-- The table with a value put under a key, in place of any value that was there. The new entry
stands last. -/
def insert (t : Table α) (key : String) (value : α) : Table α where
  toList := (t.erase key).toList ++ [(key, value)]
  nodup_keys := by
    rw [List.map_append, List.nodup_append]
    refine ⟨(t.erase key).nodup_keys, by simp, ?_⟩
    intro a ha b hb hab
    obtain rfl : b = key := by simpa using hb
    exact key_notMem_erase t b (hab ▸ ha)

/-- The number of entries. -/
def size (t : Table α) : Nat :=
  t.toList.length

/-- Whether there is no entry. -/
def isEmpty (t : Table α) : Bool :=
  t.toList.isEmpty

/-- The keys, in the order of the entries. -/
def keys (t : Table α) : List String :=
  t.toList.map Prod.fst

/-- The table of a list of entries; of two entries with one key the later one counts. -/
def ofList (entries : List (String × α)) : Table α :=
  entries.foldl (fun t entry ↦ t.insert entry.1 entry.2) empty

/-! ### What look-up answers -/

@[simp]
theorem get?_empty (key : String) : (empty : Table α).get? key = none :=
  rfl

/-- Looking a key up after another key's entries are filtered out. -/
private theorem lookup_filter_ne (entries : List (String × α)) (key k : String) :
    (entries.filter fun entry ↦ entry.1 != key).lookup k =
      if k = key then none else entries.lookup k := by
  induction entries with
  | nil => simp
  | cons entry rest ih =>
    obtain ⟨name, value⟩ := entry
    by_cases hname : name = key
    · -- The entry is dropped; it could only have answered for `key` itself.
      rw [List.filter_cons_of_neg (by simp [hname]), ih]
      by_cases hk : k = key
      · simp [hk]
      · have hbeq : (k == name) = false := by simp [hname, hk]
        simp [hk, List.lookup_cons, hbeq]
    · rw [List.filter_cons_of_pos (by simp [hname]), List.lookup_cons, List.lookup_cons, ih]
      by_cases hk : k = name
      · simp [hk, hname]
      · have hbeq : (k == name) = false := by simp [hk]
        simp [hbeq]

@[simp]
theorem get?_erase (t : Table α) (key k : String) :
    (t.erase key).get? k = if k = key then none else t.get? k :=
  lookup_filter_ne t.toList key k

@[simp]
theorem get?_insert (t : Table α) (key k : String) (value : α) :
    (t.insert key value).get? k = if k = key then some value else t.get? k := by
  have happend : (t.insert key value).get? k =
      ((t.erase key).get? k).or ([(key, value)].lookup k) := by
    simp [insert, get?, List.lookup_append]
  rw [happend, get?_erase]
  by_cases hk : k = key
  · simp [hk]
  · have hbeq : (k == key) = false := by simp [hk]
    simp [hk, List.lookup_cons, hbeq]

end Table

end BlockScript
