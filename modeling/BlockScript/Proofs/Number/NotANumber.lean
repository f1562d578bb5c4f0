import BlockScript.Value
import Mathlib

/-!
# Values that do not count as a number

A value is read as a number by `Value.toNumber`, and a double that is not a number is read as zero.
One might expect that no reading is a pattern that is not a number. `Value.isNaN_toNumber_iff` says
which readings are: those of the texts that **spell** `nan`, and no others.

Rounding is not to blame for any of them. Whatever is rounded gives a magnitude up to that of
infinity (`Binary64.isNaN_ofRatio`), so the sign, the digits and the power of ten of a text cannot
lead beyond it, however large they are. The one place where a pattern that is not a number comes
from is the word for it, which `Numeral.parse?` admits on purpose, and which `Value.toNumber` does
not turn into zero as it does with a double.
-/

namespace BlockScript

namespace Binary64

/-! ### Magnitudes -/

theorem infinityMagnitude_lt : infinityMagnitude < twoTo 63 := by
  decide

theorem magnitude_ofMagnitude {m : Nat} (negative : Bool) (h : m < twoTo 63) :
    (ofMagnitude negative m).magnitude = m := by
  have hsign : twoTo 63 + twoTo 63 = 2 ^ 64 := by decide
  rw [magnitude, ofMagnitude, UInt64.toNat_ofNat']
  cases negative with
  | false =>
    rw [if_neg Bool.false_ne_true, Nat.zero_add, Nat.mod_eq_of_lt (a := m) (by omega),
      Nat.mod_eq_of_lt h]
  | true =>
    rw [if_pos rfl, Nat.mod_eq_of_lt (a := twoTo 63 + m) (by omega), Nat.add_mod_left,
      Nat.mod_eq_of_lt h]

/-- A magnitude up to that of infinity is that of a number. -/
theorem isNaN_ofMagnitude {m : Nat} (negative : Bool) (h : m ≤ infinityMagnitude) :
    (ofMagnitude negative m).isNaN = false := by
  rw [isNaN, magnitude_ofMagnitude negative (Nat.lt_of_le_of_lt h infinityMagnitude_lt)]
  exact decide_eq_false (Nat.not_lt.2 h)

theorem isNaN_infinity (negative : Bool) : (infinity negative).isNaN = false :=
  isNaN_ofMagnitude negative (Nat.le_refl _)

theorem isNaN_notANumber : notANumber.isNaN = true := by
  decide

/-- **Rounding gives a number**, infinity at worst. -/
theorem isNaN_ofRatio (negative : Bool) (num den : Nat) :
    (ofRatio negative num den).isNaN = false := by
  refine isNaN_ofMagnitude negative ?_
  rw [magnitudeOfRatio]
  split
  · exact Nat.zero_le _
  · exact Nat.min_le_right _ _

theorem isNaN_ofInt (n : Int) : (ofInt n).isNaN = false :=
  isNaN_ofRatio _ _ _

end Binary64

namespace Numeral

/-! ### Texts that are read -/

/-- A lower-case letter is the lower-case form of two letters, itself and its capital. -/
theorem toLower_eq_iff {c l : Char} (hl : l.isLower) : c.toLower = l ↔ c = l ∨ c = l.toUpper := by
  have hself : l.toLower = l := Char.toLower_eq_of_not_isUpper (Char.not_isUpper_of_isLower hl)
  constructor
  · rintro rfl
    by_cases hc : c.isUpper
    · right
      rw [Char.toUpper_toLower_eq_toUpper,
        Char.toUpper_eq_of_not_isLower (Char.not_isLower_of_isUpper hc)]
    · left
      exact (Char.toLower_eq_of_not_isUpper hc).symm
  · rintro (rfl | rfl)
    · exact hself
    · rw [Char.toLower_toUpper_eq_toLower, hself]

/-- The characters are the three letters of `nan`, each of them in either case. -/
def IsNaNWord (word : List Char) : Prop :=
  ∃ a ∈ ['n', 'N'], ∃ b ∈ ['a', 'A'], ∃ c ∈ ['n', 'N'], word = [a, b, c]

/-- **The texts that spell `nan`**: an optional sign, and the word. -/
def SpellsNaN (text : String) : Prop :=
  ∃ sign ∈ [[], ['+'], ['-']], ∃ word, text.toList = sign ++ word ∧ IsNaNWord word

theorem map_toLower_eq_nan_iff {word : List Char} :
    word.map Char.toLower = "nan".toList ↔ IsNaNWord word := by
  have hletters : "nan".toList = ['n', 'a', 'n'] := rfl
  have hn : ∀ {c : Char}, c.toLower = 'n' ↔ c ∈ ['n', 'N'] := by
    simp [toLower_eq_iff (l := 'n') rfl]
  have ha : ∀ {c : Char}, c.toLower = 'a' ↔ c ∈ ['a', 'A'] := by
    simp [toLower_eq_iff (l := 'a') rfl]
  rw [hletters]
  constructor
  · intro h
    have hlength : word.length = 3 := by
      rw [← List.length_map, h]
      rfl
    obtain ⟨a, b, c, rfl⟩ := List.length_eq_three.1 hlength
    simp only [List.map_cons, List.cons.injEq, List.map_nil, and_true] at h
    exact ⟨a, hn.1 h.1, b, ha.1 h.2.1, c, hn.1 h.2.2, rfl⟩
  · rintro ⟨a, ha', b, hb', c, hc', rfl⟩
    rw [List.map_cons, List.map_cons, List.map_cons, List.map_nil, hn.2 ha', ha.2 hb', hn.2 hc']

theorem isNaN_nearest (negative : Bool) (digits : Nat) (e : Int) :
    (nearest negative digits e).isNaN = false := by
  rw [nearest]
  dsimp only
  split
  · exact Binary64.isNaN_ofMagnitude negative (Nat.zero_le _)
  · split
    · exact Binary64.isNaN_infinity negative
    · split
      · exact Binary64.isNaN_ofMagnitude negative (Nat.zero_le _)
      · split <;> exact Binary64.isNaN_ofRatio _ _ _

/-- The word is read as what is not a number, and nothing else is, if it is read at all. -/
theorem isNaN_getD_unsigned?_iff (negative : Bool) (word : List Char) :
    ((unsigned? negative word).getD Binary64.zero).isNaN = true ↔ IsNaNWord word := by
  rw [← map_toLower_eq_nan_iff, unsigned?]
  dsimp only
  split
  · next hinfinite =>
    -- Both words for infinity have another length or other letters.
    refine iff_of_false (by simp [Binary64.isNaN_infinity]) fun hnan ↦ ?_
    rw [hnan] at hinfinite
    revert hinfinite
    decide
  · split
    · next hnan => exact iff_of_true Binary64.isNaN_notANumber hnan
    · next hnan =>
      refine iff_of_false ?_ hnan
      rw [Bool.not_eq_true]
      split
      · rfl
      · cases exponentPart? _ with
        | none => rfl
        | some e => exact isNaN_nearest _ _ _

/-- What is left of a text without its sign is the word just when the text spells it. -/
theorem spellsNaN_iff {text : String} :
    SpellsNaN text ↔ IsNaNWord (splitSign text.toList).2 := by
  -- The word does not begin with a sign of its own.
  have hletter : ∀ {rest : List Char}, IsNaNWord rest → (splitSign rest).2 = rest := by
    rintro _ ⟨a, ha, b, hb, c, hc, rfl⟩
    simp only [List.mem_cons, List.not_mem_nil, or_false] at ha
    rcases ha with rfl | rfl <;> rfl
  constructor
  · rintro ⟨sign, hsign, word, htext, hword⟩
    rw [htext]
    simp only [List.mem_cons, List.not_mem_nil, or_false] at hsign
    rcases hsign with rfl | rfl | rfl
    · rw [List.nil_append, hletter hword]
      exact hword
    · exact hword
    · exact hword
  · intro hword
    rw [splitSign.eq_def] at hword
    split at hword
    · next rest htext => exact ⟨['-'], by simp, rest, htext, hword⟩
    · next rest htext => exact ⟨['+'], by simp, rest, htext, hword⟩
    · exact ⟨[], by simp, _, rfl, hword⟩

end Numeral

namespace Value

/-! ### Values -/

theorem isNaN_numberOfText_iff {text : String} :
    (numberOfText text).isNaN = true ↔ Numeral.SpellsNaN (Text.trim text) := by
  rw [Numeral.spellsNaN_iff, numberOfText, Numeral.parse?]
  generalize Numeral.splitSign (Text.trim text).toList = parts
  exact Numeral.isNaN_getD_unsigned?_iff parts.1 parts.2

/-- Whatever is not a text is read as a number: a double that is none is read as zero. -/
theorem isNaN_toNumber_of_ne_text {v : Value} (h : ∀ text, v ≠ .text text) :
    v.toNumber.isNaN = false := by
  cases v with
  | boolean value => exact Binary64.isNaN_ofInt _
  | integer value => exact Binary64.isNaN_ofInt _
  | float value =>
    rw [toNumber]
    split
    · rfl
    · exact Bool.eq_false_iff.2 ‹_›
  | text value => exact absurd rfl (h value)

/-- **Which values are read as what is not a number**: the texts that spell `nan`, in whatever case,
with or without a sign and with blanks at their ends or not. -/
theorem isNaN_toNumber_iff (v : Value) :
    v.toNumber.isNaN = true ↔ ∃ text, v = .text text ∧ Numeral.SpellsNaN (Text.trim text) := by
  constructor
  · intro hnan
    by_cases htext : ∃ text, v = .text text
    · obtain ⟨text, rfl⟩ := htext
      exact ⟨text, rfl, isNaN_numberOfText_iff.1 hnan⟩
    · rw [isNaN_toNumber_of_ne_text (not_exists.1 htext)] at hnan
      cases hnan
  · rintro ⟨text, rfl, hspells⟩
    exact isNaN_numberOfText_iff.2 hspells

/-- A double that is not a number is read as zero, and the text that spells it is not. -/
theorem not_toNumber_nan :
    (Value.float Binary64.notANumber).toNumber = Binary64.zero ∧
      (Value.text "nan").toNumber.isNaN = true := by
  decide

end Value

end BlockScript
