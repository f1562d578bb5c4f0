import BlockScript.Number.Binary64

/-!
# Documents

A document is the tree of a text in the usual object notation: `null`, booleans, numbers, texts,
arrays, and objects with their members **in the order of the text**, repeated keys included.

Two further kinds of node record what is wrong with a text, at the place where it is wrong, so that
a reader who walks the tree in order meets the problems of the text and its own in the order in
which they stand:

* `broken`: the text stops being well formed here. It is the last item of every container that was
  open at that point.
* `unreadable`: a number too large for a double, or a text with half a surrogate pair or stray
  octets. It is well formed, so a reader that passes over it does not mind.

`Document.wellFormed` is what a passed-over value must satisfy, `Document.readable` what a value
that is taken in whole must satisfy: nothing unreadable either, and no more nesting than the room
that is left.
-/

namespace BlockScript

/-- The tree of a text, with the text's own problems as nodes. A member's key is `none` when it
cannot be read. -/
inductive Document where
  /-- The word `null`. -/
  | null
  /-- One of the words `true` and `false`. -/
  | boolean (value : Bool)
  /-- A whole number without point and power of ten, in the range of 64-bit words. -/
  | integer (value : Int)
  /-- Any other number. -/
  | float (value : Binary64)
  /-- A quoted text, after its escapes are resolved. -/
  | text (value : String)
  /-- An array. -/
  | array (items : List Document)
  /-- An object. -/
  | object (members : List (Option String × Document))
  /-- Where the text stops being well formed. -/
  | broken
  /-- A well formed number or text that has no value. -/
  | unreadable
deriving Repr, Inhabited

namespace Document

mutual

/-- Whether the text of a document is well formed. -/
def wellFormed : Document → Bool
  | .array items => allWellFormed items
  | .object members => membersWellFormed members
  | .broken => false
  | _ => true

/-- `wellFormed` of every item. -/
def allWellFormed : List Document → Bool
  | [] => true
  | d :: rest => d.wellFormed && allWellFormed rest

/-- `wellFormed` of every member's value. -/
def membersWellFormed : List (Option String × Document) → Bool
  | [] => true
  | (_, d) :: rest => d.wellFormed && membersWellFormed rest

end

mutual

/-- Whether a document can be taken in whole when `room` more containers may be nested. -/
def readable (room : Nat) : Document → Bool
  | .array items => decide (0 < room) && allReadable (room - 1) items
  | .object members => decide (0 < room) && membersReadable (room - 1) members
  | .broken => false
  | .unreadable => false
  | _ => true

/-- `readable` of every item. -/
def allReadable (room : Nat) : List Document → Bool
  | [] => true
  | d :: rest => d.readable room && allReadable room rest

/-- `readable` of every member, its key included. -/
def membersReadable (room : Nat) : List (Option String × Document) → Bool
  | [] => true
  | (key, d) :: rest => key.isSome && d.readable room && membersReadable room rest

end

mutual

/-- What can be taken in whole can also be passed over. -/
theorem wellFormed_of_readable {room : Nat} {d : Document} (h : d.readable room) :
    d.wellFormed := by
  match d with
  | .null | .boolean _ | .integer _ | .float _ | .text _ => rfl
  | .array items =>
    rw [readable, Bool.and_eq_true] at h
    exact allWellFormed_of_allReadable h.2
  | .object members =>
    rw [readable, Bool.and_eq_true] at h
    exact membersWellFormed_of_membersReadable h.2
  | .broken | .unreadable => simp [readable] at h

/-- `wellFormed_of_readable` for every item. -/
theorem allWellFormed_of_allReadable {room : Nat} {ds : List Document} (h : allReadable room ds) :
    allWellFormed ds := by
  match ds with
  | [] => rfl
  | d :: rest =>
    rw [allReadable, Bool.and_eq_true] at h
    rw [allWellFormed, Bool.and_eq_true]
    exact ⟨wellFormed_of_readable h.1, allWellFormed_of_allReadable h.2⟩

/-- `wellFormed_of_readable` for every member. -/
theorem membersWellFormed_of_membersReadable {room : Nat} {ms : List (Option String × Document)}
    (h : membersReadable room ms) : membersWellFormed ms := by
  match ms with
  | [] => rfl
  | (_, d) :: rest =>
    simp only [membersReadable, Bool.and_eq_true] at h
    rw [membersWellFormed, Bool.and_eq_true]
    exact ⟨wellFormed_of_readable h.1.2, membersWellFormed_of_membersReadable h.2⟩

end

/-- How many containers may be nested in a document that is taken in. -/
def maxNesting : Nat :=
  127

end Document

end BlockScript
