import BlockScript.Settings
import Mathlib.Order.MinMax

/-!
# Budgets of a frame rate

The length of a frame and the part of it that threads may use are quotients of whole seconds, and
`Settings` takes them in nanoseconds without a bound. A machine takes them in words: a `Span` is
seconds in 64 bits with nanoseconds in 32 bits, `Span.divide?` is long division from the one to the
other, and four times the frame rate is held at the largest word. Each of these could go wrong.

`Settings.budgets_ofFrameRate` says that none does, at any rate. A divisor of zero, or a word that
is too small for what comes up on the way, is where `Span.divide?` gives nothing, and it gives
something for every rate; and that is the quotient of the unbounded numbers, also where the divisor
was held. The two quotients are rounded down apart from each other, and still the budget is three
quarters of the frame to within a nanosecond, and never longer than the frame.
-/

namespace BlockScript

/-! ### Lengths of time in words -/

/-- A length of time: whole seconds, and the nanoseconds beyond them. -/
structure Span where
  /-- The whole seconds. -/
  seconds : UInt64
  /-- The nanoseconds beyond the last whole second. -/
  nanoseconds : UInt32
  /-- They are less than a second. -/
  nanoseconds_lt : nanoseconds.toNat < Settings.second

namespace Span

/-- The length in nanoseconds. -/
def time (d : Span) : Time :=
  d.seconds.toNat * Settings.second + d.nanoseconds.toNat

/-- So many seconds. -/
def ofSeconds (n : UInt64) : Span where
  seconds := n
  nanoseconds := 0
  nanoseconds_lt := by decide

/-- The nanoseconds that the seconds and the nanoseconds leave when each are divided by themselves,
to be divided together. -/
def rest (d : Span) (n : UInt32) : Nat :=
  d.seconds.toNat % n.toNat * Settings.second + d.nanoseconds.toNat % n.toNat

/-- The nanoseconds of a quotient: those of the nanoseconds, and those of what was left. -/
def quotientNanoseconds (d : Span) (n : UInt32) : Nat :=
  d.nanoseconds.toNat / n.toNat + d.rest n / n.toNat

/-- Long division. There is no quotient by zero, none if what is left does not fit into 64 bits, and
none if the nanoseconds come to a second or more. -/
def divide? (d : Span) (n : UInt32) : Option Span :=
  if h : n ≠ 0 ∧ d.rest n < UInt64.size ∧ d.quotientNanoseconds n < Settings.second then
    some
      { seconds := d.seconds / n.toUInt64
        nanoseconds := .ofNat (d.quotientNanoseconds n)
        nanoseconds_lt := by
          rw [UInt32.toNat_ofNat']
          exact Nat.lt_of_le_of_lt (Nat.mod_le _ _) h.2.2 }
  else none

theorem second_lt_size : Settings.second < UInt32.size := by
  decide

theorem time_ofSeconds (n : UInt64) : (ofSeconds n).time = n.toNat * Settings.second := by
  rw [time, ofSeconds, UInt32.toNat_zero, Nat.add_zero]

section Division

variable (d : Span) {n : UInt32}

/-- The seconds that are left over come to less than the divisor, with the nanoseconds. -/
theorem leftOver_lt (h : 0 < n.toNat) :
    d.seconds.toNat % n.toNat * Settings.second + d.nanoseconds.toNat <
      n.toNat * Settings.second :=
  calc
    d.seconds.toNat % n.toNat * Settings.second + d.nanoseconds.toNat
    _ < d.seconds.toNat % n.toNat * Settings.second + Settings.second :=
      Nat.add_lt_add_left d.nanoseconds_lt _
    _ = (d.seconds.toNat % n.toNat + 1) * Settings.second := (Nat.succ_mul _ _).symm
    _ ≤ n.toNat * Settings.second := Nat.mul_le_mul_right _ (Nat.mod_lt _ h)

/-- **What is left fits into 64 bits.** -/
theorem rest_lt_size (h : 0 < n.toNat) : d.rest n < UInt64.size :=
  calc
    d.rest n ≤ d.seconds.toNat % n.toNat * Settings.second + d.nanoseconds.toNat :=
      Nat.add_le_add_left (Nat.mod_le _ _) _
    _ < n.toNat * Settings.second := d.leftOver_lt h
    _ ≤ UInt32.size * UInt32.size :=
      Nat.mul_le_mul (Nat.le_of_lt n.toNat_lt) (Nat.le_of_lt second_lt_size)
    _ = UInt64.size := rfl

/-- Dividing the nanoseconds before what is left is added to them, or after, makes no difference. -/
theorem quotientNanoseconds_eq (h : 0 < n.toNat) :
    d.quotientNanoseconds n =
      (d.seconds.toNat % n.toNat * Settings.second + d.nanoseconds.toNat) / n.toNat := by
  have hparts : d.seconds.toNat % n.toNat * Settings.second + d.nanoseconds.toNat =
      d.rest n + n.toNat * (d.nanoseconds.toNat / n.toNat) := by
    rw [rest, Nat.add_assoc, Nat.mod_add_div]
  rw [hparts, Nat.add_mul_div_left _ _ h, Nat.add_comm, quotientNanoseconds]

/-- **The nanoseconds of a quotient are less than a second.** -/
theorem quotientNanoseconds_lt (h : 0 < n.toNat) : d.quotientNanoseconds n < Settings.second := by
  rw [d.quotientNanoseconds_eq h, Nat.div_lt_iff_lt_mul h, Nat.mul_comm Settings.second]
  exact d.leftOver_lt h

/-- The seconds and the nanoseconds of a quotient make up the quotient of the whole. -/
theorem quotient_eq (h : 0 < n.toNat) :
    d.seconds.toNat / n.toNat * Settings.second + d.quotientNanoseconds n =
      d.time / n.toNat := by
  have hparts : d.time =
      d.seconds.toNat % n.toNat * Settings.second + d.nanoseconds.toNat +
        n.toNat * (d.seconds.toNat / n.toNat * Settings.second) := by
    rw [time, ← Nat.mul_assoc, Nat.add_right_comm, ← Nat.add_mul, Nat.mod_add_div]
  rw [hparts, Nat.add_mul_div_left _ _ h, d.quotientNanoseconds_eq h, Nat.add_comm]

/-- **Long division loses nothing**: there is a quotient by whatever is not zero, and it is that of
the lengths in nanoseconds. -/
theorem exists_divide? (h : 0 < n.toNat) :
    ∃ q, d.divide? n = some q ∧ q.time = d.time / n.toNat := by
  have hne : n ≠ 0 := by
    rintro rfl
    exact Nat.lt_irrefl _ h
  have hrest := d.rest_lt_size h
  have hnanoseconds := d.quotientNanoseconds_lt h
  refine ⟨_, dif_pos ⟨hne, hrest, hnanoseconds⟩, ?_⟩
  rw [← d.quotient_eq h, time]
  dsimp only
  rw [UInt64.toNat_div, UInt32.toNat_toUInt64,
    UInt32.toNat_ofNat_of_lt' (Nat.lt_trans hnanoseconds second_lt_size)]

end Division

end Span

namespace Settings

/-! ### Budgets in words -/

/-- The product of two words, held at the largest word. -/
def heldProduct (a b : UInt32) : UInt32 :=
  .ofNat (min (a.toNat * b.toNat) (UInt32.size - 1))

/-- The budget of a frame rate, found in words. -/
def workSpan? (rate : UInt32) : Option Span :=
  (Span.ofSeconds 3).divide? (heldProduct (max rate 1) 4)

/-- The length of a frame, found in words. -/
def frameSpan? (s : Settings) : Option Span :=
  (Span.ofSeconds 1).divide? (max s.frameRate 1)

theorem toNat_heldProduct (a b : UInt32) :
    (heldProduct a b).toNat = min (a.toNat * b.toNat) (UInt32.size - 1) :=
  UInt32.toNat_ofNat_of_lt' (Nat.lt_of_le_of_lt (Nat.min_le_right _ _) (by decide))

theorem frameRate_ofFrameRate (rate : UInt32) :
    (ofFrameRate rate).frameRate.toNat = max rate.toNat 1 := by
  rw [ofFrameRate, UInt32.toNat_max, UInt32.toNat_one]

/-- **The length of a frame can be found in words**, whatever the frame rate of the settings is. -/
theorem exists_frameSpan? (s : Settings) : ∃ d, s.frameSpan? = some d ∧ d.time = s.frameTime := by
  have hrate : (max s.frameRate 1).toNat = max s.frameRate.toNat 1 := UInt32.toNat_max _ _
  obtain ⟨d, hd, htime⟩ := (Span.ofSeconds 1).exists_divide? (n := max s.frameRate 1) (by omega)
  refine ⟨d, hd, ?_⟩
  rw [htime, Span.time_ofSeconds, UInt64.toNat_one, Nat.one_mul, hrate, frameTime]

/-- **The budget can be found in words**, and holding its divisor does not change that it is the one
that the settings have. -/
theorem exists_workSpan? (rate : UInt32) :
    ∃ d, workSpan? rate = some d ∧ d.time = (ofFrameRate rate).workTime := by
  have hrate : (heldProduct (max rate 1) 4).toNat =
      min (4 * (max rate 1).toNat) (UInt32.size - 1) := by
    rw [toNat_heldProduct, Nat.mul_comm]
    rfl
  have hpos : 0 < (heldProduct (max rate 1) 4).toNat := by
    rw [hrate, UInt32.toNat_max, UInt32.toNat_one]
    exact Nat.lt_min.2 ⟨by omega, by decide⟩
  obtain ⟨d, hd, htime⟩ := (Span.ofSeconds 3).exists_divide? hpos
  refine ⟨d, hd, ?_⟩
  rw [htime, Span.time_ofSeconds, hrate]
  rfl

/-! ### Budgets without bounds -/

theorem frameTime_ofFrameRate (rate : UInt32) :
    (ofFrameRate rate).frameTime = second / max rate.toNat 1 := by
  rw [frameTime, frameRate_ofFrameRate, Nat.max_assoc, Nat.max_self]

/-- A divisor that is held is more than the dividend, so that the quotient is zero anyway. -/
theorem div_min_size (n : Nat) : 3 * second / min n (UInt32.size - 1) = 3 * second / n := by
  have hsecond : 3 * second < UInt32.size - 1 := by decide
  rcases Nat.le_total n (UInt32.size - 1) with hn | hn
  · rw [Nat.min_eq_left hn]
  · rw [Nat.min_eq_right hn, Nat.div_eq_of_lt hsecond,
      Nat.div_eq_of_lt (Nat.lt_of_lt_of_le hsecond hn)]

theorem workTime_ofFrameRate (rate : UInt32) :
    (ofFrameRate rate).workTime = 3 * second / (4 * max rate.toNat 1) := by
  rw [ofFrameRate, div_min_size, UInt32.toNat_max, UInt32.toNat_one]

/-- Dividing before a product with three loses two at most. -/
theorem mul_div_bounds (n : Nat) {g : Nat} (hg : 0 < g) :
    3 * (n / g) ≤ 3 * n / g ∧ 3 * n / g ≤ 3 * (n / g) + 2 := by
  refine ⟨Nat.mul_div_le_mul_div_assoc 3 n g, Nat.lt_succ_iff.1 ?_⟩
  have hn : n < (n / g + 1) * g := (Nat.div_lt_iff_lt_mul hg).1 (Nat.lt_succ_self _)
  rw [Nat.div_lt_iff_lt_mul hg]
  calc
    3 * n < 3 * ((n / g + 1) * g) := Nat.mul_lt_mul_of_pos_left hn (by decide)
    _ = (3 * (n / g) + 2 + 1) * g := by rw [← Nat.mul_assoc, Nat.mul_add]

/-- A quarter of three times as much is three quarters, up to rounding. -/
theorem four_mul_div_bounds (n : Nat) {g : Nat} (hg : 0 < g) :
    3 * (n / g) ≤ 4 * (3 * n / (4 * g)) + 3 ∧ 4 * (3 * n / (4 * g)) ≤ 3 * (n / g) + 2 := by
  obtain ⟨hle, hge⟩ := mul_div_bounds n hg
  rw [Nat.mul_comm 4 g, ← Nat.div_div_eq_div_mul]
  omega

theorem three_quarters_le (n : Nat) {g : Nat} (hg : 0 < g) : 3 * n / (4 * g) ≤ n / g := by
  have hupper := (four_mul_div_bounds n hg).2
  omega

/-- What the budgets of a frame rate are. -/
structure ExactBudgets (rate : UInt32) : Prop where
  /-- The length of a frame is found in words. -/
  frameSpan : ∃ d, (ofFrameRate rate).frameSpan? = some d ∧ d.time = (ofFrameRate rate).frameTime
  /-- So is the budget. -/
  workSpan : ∃ d, workSpan? rate = some d ∧ d.time = (ofFrameRate rate).workTime
  /-- The length of a frame is a second by the rate, of which zero counts as one. -/
  frameTime_eq : (ofFrameRate rate).frameTime = second / max rate.toNat 1
  /-- The budget is three seconds by four times the rate, unbounded. -/
  workTime_eq : (ofFrameRate rate).workTime = 3 * second / (4 * max rate.toNat 1)
  /-- The budget is no more than the frame. -/
  work_le_frame : (ofFrameRate rate).workTime ≤ (ofFrameRate rate).frameTime
  /-- It is less than three quarters of the frame by three quarters of a nanosecond at most. -/
  frame_le_work : 3 * (ofFrameRate rate).frameTime ≤ 4 * (ofFrameRate rate).workTime + 3
  /-- It is more by half a nanosecond at most. -/
  four_work_le : 4 * (ofFrameRate rate).workTime ≤ 3 * (ofFrameRate rate).frameTime + 2
  /-- A greater rate does not give a longer frame. -/
  frame_antitone : ∀ faster, rate ≤ faster →
    (ofFrameRate faster).frameTime ≤ (ofFrameRate rate).frameTime
  /-- Nor does it give a greater budget. -/
  work_antitone : ∀ faster, rate ≤ faster →
    (ofFrameRate faster).workTime ≤ (ofFrameRate rate).workTime

/-- **The budgets of every frame rate are exact**, although words hold them, a divisor is held, and
both quotients are rounded. -/
theorem budgets_ofFrameRate (rate : UInt32) : ExactBudgets rate := by
  have hpos : 0 < max rate.toNat 1 := by omega
  have hframe := frameTime_ofFrameRate
  have hwork := workTime_ofFrameRate
  obtain ⟨hlower, hupper⟩ := four_mul_div_bounds second hpos
  have hfaster : ∀ {faster : UInt32}, rate ≤ faster → max rate.toNat 1 ≤ max faster.toNat 1 :=
    fun hle ↦ max_le_max_right 1 (UInt32.le_iff_toNat_le.1 hle)
  exact
    { frameSpan := exists_frameSpan? _
      workSpan := exists_workSpan? rate
      frameTime_eq := hframe rate
      workTime_eq := hwork rate
      work_le_frame := by
        rw [hframe, hwork]
        exact three_quarters_le second hpos
      frame_le_work := by
        rw [hframe, hwork]
        exact hlower
      four_work_le := by
        rw [hframe, hwork]
        exact hupper
      frame_antitone := fun faster hle ↦ by
        rw [hframe, hframe]
        exact Nat.div_le_div_left (hfaster hle) hpos
      work_antitone := fun faster hle ↦ by
        rw [hwork, hwork]
        exact Nat.div_le_div_left (Nat.mul_le_mul_left 4 (hfaster hle)) (by omega) }

end Settings

end BlockScript
