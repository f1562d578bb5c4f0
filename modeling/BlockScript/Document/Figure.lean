import BlockScript.Document.Basic

/-!
# Numbers of a document

`Figure.scan` reads the spelling of a number, and `Spelling.value` is the document it stands for.

A number is **not** read to the nearest double. Its digits are collected into a 64-bit significand
while they fit; later digits only count toward the power of ten, or are ignored after the point.
The significand is then multiplied or divided by the double nearest to that power of ten, so a long
number may come out one unit in the last place away from the nearest double.
-/

namespace BlockScript.Figure

/-- Whether an octet is a decimal digit. -/
def isDigit (b : UInt8) : Bool :=
  decide (0x30 ≤ b) && decide (b ≤ 0x39)

/-- The spelling of a number: sign, digits before the point, digits after it, and the power of ten
with its sign. -/
structure Spelling where
  /-- Whether a minus stands in front. -/
  negative : Bool
  /-- The digits before the point. -/
  whole : List Nat
  /-- The digits after the point, when there is one. -/
  fraction : Option (List Nat)
  /-- Whether the power of ten is negative, and its digits, when there is one. -/
  power : Option (Bool × List Nat)

/-- The digits a text starts with, and the rest. -/
def splitDigits (octets : List UInt8) : List Nat × List UInt8 :=
  ((octets.takeWhile isDigit).map fun b ↦ b.toNat - 0x30, octets.dropWhile isDigit)

/-- Cutting off digits leaves no longer text. -/
theorem length_splitDigits_le (octets : List UInt8) :
    (splitDigits octets).2.length ≤ octets.length :=
  (List.dropWhile_suffix _).length_le

/-- Cutting off at least one digit leaves a shorter text. -/
theorem length_splitDigits_lt {octets rest : List UInt8} {d : Nat} {digits : List Nat}
    (h : splitDigits octets = (d :: digits, rest)) : rest.length < octets.length := by
  have hsplit : octets.takeWhile isDigit ++ octets.dropWhile isDigit = octets :=
    List.takeWhile_append_dropWhile
  have hlength := congrArg List.length hsplit
  have htake := congrArg (fun p ↦ p.1.length) h
  have hrest := congrArg Prod.snd h
  simp only [splitDigits, List.length_map, List.length_cons] at htake hrest
  simp only [List.length_append, hrest] at hlength
  omega

/-- The point and the digits after it, when a point comes next. -/
def scanFraction : List UInt8 → Option (Option (List Nat) × List UInt8)
  | [] => some (none, [])
  | b :: rest =>
    if b = 0x2E then
      match splitDigits rest with
      | ([], _) => none
      | (digits, rest) => some (some digits, rest)
    else some (none, b :: rest)

/-- The sign of a power of ten, and what follows it. -/
def splitPowerSign : List UInt8 → Bool × List UInt8
  | [] => (false, [])
  | b :: rest =>
    if b = 0x2D then (true, rest) else if b = 0x2B then (false, rest) else (false, b :: rest)

/-- The power of ten, when its mark comes next. -/
def scanPower : List UInt8 → Option (Option (Bool × List Nat) × List UInt8)
  | [] => some (none, [])
  | b :: rest =>
    if b = 0x65 ∨ b = 0x45 then
      match splitDigits (splitPowerSign rest).2 with
      | ([], _) => none
      | (digits, tail) => some (some ((splitPowerSign rest).1, digits), tail)
    else some (none, b :: rest)

/-- The digits before the point. A zero in front of another digit is not admitted. -/
def scanWhole (octets : List UInt8) : Option (List Nat × List UInt8) :=
  match splitDigits octets with
  | ([], _) => none
  | (0 :: _ :: _, _) => none
  | (d :: digits, rest) => some (d :: digits, rest)

/-- A minus in front of a number, and what follows it. -/
def splitMinus : List UInt8 → Bool × List UInt8
  | [] => (false, [])
  | b :: rest => if b = 0x2D then (true, rest) else (false, b :: rest)

/-- A number, and what follows it. -/
def scan (octets : List UInt8) : Option (Spelling × List UInt8) :=
  match scanWhole (splitMinus octets).2 with
  | none => none
  | some (whole, rest) =>
    match scanFraction rest with
    | none => none
    | some (fraction, rest) =>
      match scanPower rest with
      | none => none
      | some (power, rest) => some (⟨(splitMinus octets).1, whole, fraction, power⟩, rest)

theorem length_splitMinus_le (octets : List UInt8) :
    (splitMinus octets).2.length ≤ octets.length := by
  fun_cases splitMinus octets <;> simp

theorem length_splitPowerSign_le (octets : List UInt8) :
    (splitPowerSign octets).2.length ≤ octets.length := by
  fun_cases splitPowerSign octets <;> simp

theorem length_scanWhole_lt {octets rest : List UInt8} {digits : List Nat}
    (h : scanWhole octets = some (digits, rest)) : rest.length < octets.length := by
  unfold scanWhole at h
  split at h
  · simp at h
  · simp at h
  · next hsplit =>
    obtain ⟨-, rfl⟩ : _ ∧ _ := by simpa using h
    exact length_splitDigits_lt hsplit

theorem length_scanFraction_le {octets rest : List UInt8} {digits : Option (List Nat)}
    (h : scanFraction octets = some (digits, rest)) : rest.length ≤ octets.length := by
  revert h
  fun_cases scanFraction octets with
  | case1 => simp
  | case2 => simp
  | case3 tail _ _ _ hsplit =>
    have hle := length_splitDigits_le tail
    simp only [hsplit] at hle
    simp only [Option.some.injEq, Prod.mk.injEq, List.length_cons]
    rintro ⟨-, rfl⟩
    omega
  | case4 =>
    simp only [Option.some.injEq, Prod.mk.injEq]
    rintro ⟨-, rfl⟩
    exact Nat.le_refl _

theorem length_scanPower_le {octets rest : List UInt8} {power : Option (Bool × List Nat)}
    (h : scanPower octets = some (power, rest)) : rest.length ≤ octets.length := by
  revert h
  fun_cases scanPower octets with
  | case1 => simp
  | case2 => simp
  | case3 _ tail _ _ _ _ hsplit =>
    have hle := length_splitDigits_le (splitPowerSign tail).2
    have hsign := length_splitPowerSign_le tail
    simp only [hsplit] at hle
    simp only [Option.some.injEq, Prod.mk.injEq, List.length_cons]
    rintro ⟨-, rfl⟩
    omega
  | case4 =>
    simp only [Option.some.injEq, Prod.mk.injEq]
    rintro ⟨-, rfl⟩
    exact Nat.le_refl _

/-- What follows a number is shorter than the text that starts with it. -/
theorem length_scan_lt {octets rest : List UInt8} {spelling : Spelling}
    (h : scan octets = some (spelling, rest)) : rest.length < octets.length := by
  unfold scan at h
  split at h
  · simp at h
  · next hwhole =>
    split at h
    · simp at h
    · next hfraction =>
      split at h
      · simp at h
      · next hpower =>
        have hminus := length_splitMinus_le octets
        have := length_scanWhole_lt hwhole
        have := length_scanFraction_le hfraction
        have := length_scanPower_le hpower
        simp only [Option.some.injEq, Prod.mk.injEq] at h
        obtain ⟨-, rfl⟩ := h
        omega

/-- Digits collected so far: the significand, the power of ten it is to be scaled by, and whether a
digit has already been left out. -/
structure Collected where
  /-- The significand, below `2 ^ 64`. -/
  significand : Nat
  /-- The power of ten. -/
  exponent : Int
  /-- Whether a digit did not fit. -/
  full : Bool

/-- A digit before the point. -/
def Collected.addWhole (c : Collected) (digit : Nat) : Collected :=
  if c.full ∨ UInt64.size ≤ c.significand * 10 + digit then
    { c with exponent := c.exponent + 1, full := true }
  else { c with significand := c.significand * 10 + digit }

/-- A digit after the point. -/
def Collected.addFraction (c : Collected) (digit : Nat) : Collected :=
  if c.full ∨ UInt64.size ≤ c.significand * 10 + digit then { c with full := true }
  else { c with significand := c.significand * 10 + digit, exponent := c.exponent - 1 }

/-- The largest power of ten that the format can hold. -/
def maxPower : Nat :=
  308

/-- A number divided `n` times by the largest power of ten, or until it is zero. -/
def divideTimes : Nat → Binary64 → Binary64
  | 0, x => x
  | n + 1, x => if x.isZero then x else divideTimes n (x.div (Binary64.powerOfTen maxPower))

/-- A number divided by `10 ^ e`, in steps that the format can hold. -/
def scaleDown (x : Binary64) (e : Nat) : Binary64 :=
  let steps := (e - 1) / maxPower
  (divideTimes steps x).div (Binary64.powerOfTen (e - maxPower * steps))

/-- A significand scaled by a power of ten, if the result is finite. -/
def scale? (significand : Nat) (e : Int) : Option Binary64 :=
  let x := Binary64.ofInt significand
  if 0 ≤ e then
    if e ≤ maxPower then
      let y := x.mul (Binary64.powerOfTen e.toNat)
      if y.isInfinite then none else some y
    else if x.isZero then some x
    else none
  else some (scaleDown x (-e).toNat)

/-- The value of a number with a point or a power of ten, or with digits left out. A power of ten
that is not a 31-bit number makes everything but zero too large, or zero. -/
def floatOf (negative : Bool) (c : Collected) (power : Option (Bool × List Nat)) : Document :=
  let signed (x : Binary64) : Document := .float (if negative then x.neg else x)
  let scaled (e : Int) : Document :=
    match scale? c.significand e with
    | some x => signed x
    | none => .unreadable
  match power with
  | none => scaled c.exponent
  | some (negativePower, digits) =>
    let n : Nat := digits.foldl (fun n d ↦ n * 10 + d) 0
    if n < twoTo 31 then
      scaled (if negativePower then c.exponent - (n : Int) else c.exponent + (n : Int))
    else if c.significand = 0 ∨ negativePower then signed Binary64.zero
    else .unreadable

/-- The document a number stands for. -/
def Spelling.value (s : Spelling) : Document :=
  let whole := s.whole.foldl Collected.addWhole ⟨0, 0, false⟩
  match s.fraction, s.power with
  | none, none =>
    if whole.full then floatOf s.negative whole none
    else if !s.negative then .integer whole.significand
    else if whole.significand = 0 ∨ twoTo 63 < whole.significand then
      .float (Binary64.ofInt whole.significand).neg
    else .integer (-whole.significand)
  | fraction, power =>
    let digits := fraction.getD []
    floatOf s.negative (digits.foldl Collected.addFraction { whole with full := false }) power

end BlockScript.Figure
