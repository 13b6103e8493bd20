import SymSolve.Proofs.Decimal.Nearest

/-!
# The shortest decimal of a double

**Theorem (`decode_nearestDecimal_shortest`).** The shortest decimal of a double reads back to the
double.

The numbers that are rounded to a double make up its cell (`InCell`): half a unit to either side,
ends included if the significand is even. Below a power of two the units are half as long, so the
cell goes down a quarter of a unit only. What `Cell.decimal?` finds was looked up in the cell, and
seventeen digits are close enough to be in it (`inCell_significant`).
-/

namespace SymSolve.Decimal

/-! ## Cells -/

/-- The lower end of the cell of a double. -/
def lowerEnd (m : Nat) (e : Int) : ℚ :=
  if m = leadingBit ∧ leastExponent < e then (m - 1 / 4) * 2 ^ e else (m - 1 / 2) * 2 ^ e

/-- The upper end of the cell of a double. -/
def upperEnd (m : Nat) (e : Int) : ℚ := (m + 1 / 2) * 2 ^ e

/-- The number is rounded to the double `m · 2 ^ e`. -/
structure InCell (m : Nat) (e : Int) (q : ℚ) : Prop where
  low : lowerEnd m e ≤ q
  high : q ≤ upperEnd m e
  even : q = lowerEnd m e ∨ q = upperEnd m e → m % 2 = 0

theorem half_le_lowerEnd (m : Nat) (e : Int) : (m - 1 / 2) * 2 ^ e ≤ lowerEnd m e := by
  have unit : (0 : ℚ) < 2 ^ e := zpow_pos two_pos e
  unfold lowerEnd
  split
  · gcongr
    norm_num
  · exact le_rfl

theorem lowerEnd_pos {m : Nat} (hm : m ≠ 0) (e : Int) : 0 < lowerEnd m e := by
  have unit : (0 : ℚ) < 2 ^ e := zpow_pos two_pos e
  have one : (1 : ℚ) ≤ m := by exact_mod_cast Nat.one_le_iff_ne_zero.2 hm
  refine lt_of_lt_of_le ?_ (half_le_lowerEnd m e)
  exact mul_pos (by linarith) unit

theorem lowerEnd_of_leadingBit {e : Int} (later : leastExponent < e) :
    lowerEnd leadingBit e = (((2 * leadingBit : Nat) : ℚ) - 1 / 2) * 2 ^ (e - 1) := by
  rw [lowerEnd, if_pos ⟨rfl, later⟩, zpow_sub_one₀ two_ne_zero]
  push_cast
  ring

theorem InCell.pos {m : Nat} {e : Int} {q : ℚ} (h : InCell m e q) (hm : m ≠ 0) : 0 < q :=
  (lowerEnd_pos hm e).trans_le h.low

theorem InCell.lt_dyadic {m : Nat} {e : Int} {q : ℚ} (h : InCell m e q) (shape : Representable m e) :
    q < dyadic (2 * leadingBit) e := by
  have unit : (0 : ℚ) < 2 ^ e := zpow_pos two_pos e
  have long : (m : ℚ) + 1 ≤ (2 * leadingBit : Nat) := by exact_mod_cast shape.lt
  refine h.high.trans_lt (mul_lt_mul_of_pos_right ?_ unit)
  linarith

/-- Where the units are as long as at the double, the number is rounded to its significand. -/
theorem InCell.nearestDyadic_eq {num den m : Nat} {e : Int} (h : InCell m e (num / den))
    (hd : den ≠ 0) (exponent : (nearestDyadic num den).2 = e) :
    nearestDyadic num den = (m, e) := by
  have unit : (0 : ℚ) < 2 ^ e := zpow_pos two_pos e
  apply nearestDyadic_eq_of_le hd exponent ((half_le_lowerEnd m e).trans h.low) h.high
  rintro (below | above)
  · apply h.even
    left
    apply le_antisymm _ h.low
    rw [below]
    exact half_le_lowerEnd m e
  · exact h.even (.inr above)

/-- Only the cell of a power of two reaches down to shorter units. -/
theorem InCell.eq_leadingBit {m : Nat} {e : Int} {q : ℚ} (h : InCell m e q)
    (long : leadingBit ≤ m) (short : q < dyadic leadingBit e) : m = leadingBit := by
  by_contra other
  have longer : (leadingBit : ℚ) + 1 ≤ m := by
    exact_mod_cast lt_of_le_of_ne long (Ne.symm other)
  have unit : (0 : ℚ) < 2 ^ e := zpow_pos two_pos e
  have above := (half_le_lowerEnd m e).trans (h.low.trans short.le)
  have := le_of_mul_le_mul_right above unit
  linarith

/-- There the number is rounded up to the power of two. -/
theorem InCell.nearestDyadic_carries {num den : Nat} {e : Int}
    (h : InCell leadingBit e (num / den)) (hn : num ≠ 0) (hd : den ≠ 0)
    (later : leastExponent < e) (short : (num : ℚ) / den < dyadic leadingBit e) :
    nearestDyadic num den = (2 * leadingBit, e - 1) := by
  have low := h.low
  rw [lowerEnd_of_leadingBit later] at low
  have unit : (0 : ℚ) < 2 ^ (e - 1) := zpow_pos two_pos (e - 1)
  have below : dyadic leadingBit (e - 1) ≤ num / den := by
    refine le_trans (mul_le_mul_of_nonneg_right ?_ unit.le) low
    push_cast
    norm_num [leadingBit]
  have twice : dyadic (2 * leadingBit) (e - 1) = dyadic leadingBit e := by
    rw [dyadic_double, sub_add_cancel]
  rw [← twice] at short
  have shorter : IsExponent (num / den) (e - 1) := ⟨by omega, short, .inr below⟩
  apply nearestDyadic_eq_of_le hd ((isExponent_nearestDyadic hn hd).unique shorter) low
  · refine short.le.trans (mul_le_mul_of_nonneg_right ?_ unit.le)
    linarith
  · intro
    rfl

/-- **Numbers in the cell of a double are rounded to it.** -/
theorem InCell.decode_nearest {num den m : Nat} {e : Int} (h : InCell m e (num / den))
    (shape : Representable m e) (hm : m ≠ 0) (hd : den ≠ 0) :
    decode (nearest num den) = .finite false m e := by
  have hn : num ≠ 0 := ne_zero_of_div_pos (h.pos hm)
  by_cases low : e = leastExponent ∨ dyadic leadingBit e ≤ num / den
  · have exponent := (isExponent_nearestDyadic hn hd).unique
      ⟨shape.least, h.lt_dyadic shape, low⟩
    exact Decimal.decode_nearest hn (h.nearestDyadic_eq hd exponent) shape
  · push Not at low
    obtain ⟨later, short⟩ := low
    have later : leastExponent < e := lt_of_le_of_ne shape.least (Ne.symm later)
    obtain rfl := h.eq_leadingBit (shape.normal.resolve_right later.ne') short
    have carries := h.nearestDyadic_carries hn hd later short
    have found := decode_nearest_of_carry hn carries (by omega)
      (lt_of_lt_of_le (by omega : e - 1 < e) shape.greatest)
    rwa [sub_add_cancel] at found

/-! ## Decimal digits -/

theorem digitCount_pos (n : Nat) : 0 < digitCount n := Nat.length_toDigits_pos

theorem digitCount_le_iff {n k : Nat} (hk : 0 < k) : digitCount n ≤ k ↔ n < Nat.pow 10 k :=
  Nat.length_toDigits_le_iff (by decide) hk

theorem pow_le_of_ne_zero {n : Nat} (hn : n ≠ 0) : Nat.pow 10 (digitCount n - 1) ≤ n := by
  by_contra short
  by_cases one : digitCount n = 1
  · rw [one] at short
    exact short (Nat.one_le_iff_ne_zero.2 hn)
  · have positive := digitCount_pos n
    have fewer := (digitCount_le_iff (by omega)).2 (not_le.1 short)
    omega

theorem digitCount_eq {n k : Nat} (hk : 0 < k) (low : Nat.pow 10 (k - 1) ≤ n)
    (high : n < Nat.pow 10 k) : digitCount n = k := by
  apply le_antisymm ((digitCount_le_iff hk).2 high)
  by_contra fewer
  by_cases one : k = 1
  · have positive := digitCount_pos n
    omega
  · have short := (digitCount_le_iff (n := n) (k := k - 1) (by omega)).1 (by omega)
    omega

/-- A positive integer lies between two powers of ten. -/
theorem ten_zpow_digitCount {n : Nat} (hn : n ≠ 0) :
    (10 : ℚ) ^ ((digitCount n : ℤ) - 1) ≤ n ∧ (n : ℚ) < 10 ^ (digitCount n : ℤ) := by
  have low := pow_le_of_ne_zero hn
  have high := (digitCount_le_iff (digitCount_pos n)).1 (le_refl (digitCount n))
  have positive := digitCount_pos n
  rw [show (digitCount n : ℤ) - 1 = (digitCount n - 1 : Nat) by omega, zpow_natCast, zpow_natCast]
  exact ⟨by exact_mod_cast low, by exact_mod_cast high⟩

/-- **The first digit** stands where it is said to. -/
theorem ten_zpow_leadingPower {num den : Nat} (hn : num ≠ 0) (hd : den ≠ 0) :
    (10 : ℚ) ^ leadingPower num den ≤ num / den ∧
      (num : ℚ) / den < 10 ^ (leadingPower num den + 1) := by
  obtain ⟨numLow, numHigh⟩ := ten_zpow_digitCount hn
  obtain ⟨denLow, denHigh⟩ := ten_zpow_digitCount hd
  have ten : (10 : ℚ) ≠ 0 := by norm_num
  have positive : (0 : ℚ) < den := by exact_mod_cast Nat.pos_of_ne_zero hd
  unfold leadingPower
  dsimp only
  generalize hg : (digitCount num : Int) - digitCount den = g
  -- the guess is right or one too large
  have low : (10 : ℚ) ^ (g - 1) ≤ num / den := by
    rw [le_div_iff₀ positive]
    calc (10 : ℚ) ^ (g - 1) * den ≤ 10 ^ (g - 1) * 10 ^ (digitCount den : ℤ) := by gcongr
      _ = 10 ^ ((digitCount num : ℤ) - 1) := by
          rw [← zpow_add₀ ten]
          congr 1
          omega
      _ ≤ num := numLow
  have high : (num : ℚ) / den < 10 ^ (g + 1) := by
    rw [div_lt_iff₀ positive]
    calc (num : ℚ) < 10 ^ (digitCount num : ℤ) := numHigh
      _ = 10 ^ (g + 1) * 10 ^ ((digitCount den : ℤ) - 1) := by
          rw [← zpow_add₀ ten]
          congr 1
          omega
      _ ≤ 10 ^ (g + 1) * den := by gcongr
  have scaled := scaleDown_eq (show 0 < 10 by decide) num den g
  have scale := scaleDown_pos (show 0 < 10 by decide) num (Nat.pos_of_ne_zero hd) g
  have unit : (0 : ℚ) < 10 ^ g := by positivity
  have scale : (0 : ℚ) < (scaleDown 10 num den g).2 := by exact_mod_cast scale
  rw [Nat.cast_ofNat] at scaled
  have test : (scaleDown 10 num den g).2 ≤ (scaleDown 10 num den g).1 ↔
      (10 : ℚ) ^ g ≤ num / den := by
    rw [← one_le_div unit, ← scaled, one_le_div scale]
    norm_cast
  split
  · next reached => exact ⟨test.1 reached, high⟩
  · next missed =>
    rw [test, not_le] at missed
    rw [sub_add_cancel]
    exact ⟨low, missed⟩

/-- The number that the digits stand for. -/
def Digits.value (d : Digits) : ℚ := d.digits * 10 ^ (d.power + 1 - digitCount d.digits)

/-- **Digits that are carried keep their value.** -/
theorem Digits.value_carried {count r : Nat} (hc : 0 < count) (low : Nat.pow 10 (count - 1) ≤ r)
    (high : r ≤ Nat.pow 10 count) (power : Int) :
    (Digits.carried count r power).value = r * 10 ^ (power + 1 - count) := by
  obtain ⟨k, rfl⟩ : ∃ k, count = k + 1 := ⟨count - 1, by omega⟩
  have grows : Nat.pow 10 k < Nat.pow 10 (k + 1) := Nat.pow_lt_pow_right (by decide) (by omega)
  unfold Digits.carried
  split
  · next carries =>
    have digits : digitCount (Nat.pow 10 k) = k + 1 := digitCount_eq hc le_rfl grows
    have ten : (10 : ℚ) ≠ 0 := by norm_num
    unfold Digits.value
    rw [Nat.add_sub_cancel, digits, carries]
    push_cast [Nat.pow_eq]
    rw [← zpow_natCast, ← zpow_natCast, ← zpow_add₀ ten, ← zpow_add₀ ten]
    congr 1
    push_cast
    ring
  · next stays =>
    have digits : digitCount r = k + 1 := digitCount_eq hc low (lt_of_le_of_ne high stays)
    unfold Digits.value
    rw [digits]

/-- A fraction in units of the last of `count` digits has that many digits before its point. -/
theorem scaleDown_leadingPower {num den count : Nat} (hn : num ≠ 0) (hd : den ≠ 0)
    (hc : 0 < count) {n d : Nat}
    (scaled : scaleDown 10 num den (leadingPower num den + 1 - count) = (n, d)) :
    0 < d ∧ (n : ℚ) / d = num / den / 10 ^ (leadingPower num den + 1 - count) ∧
      Nat.pow 10 (count - 1) ≤ n / d ∧ n / d < Nat.pow 10 count := by
  obtain ⟨low, high⟩ := ten_zpow_leadingPower hn hd
  generalize leadingPower num den = power at *
  have ten : (10 : ℚ) ≠ 0 := by norm_num
  have unit : (0 : ℚ) < 10 ^ (power + 1 - count) := by positivity
  have positive := scaleDown_pos (show 0 < 10 by decide) num (Nat.pos_of_ne_zero hd)
    (power + 1 - count)
  have same := scaleDown_eq (show 0 < 10 by decide) num den (power + 1 - count)
  rw [scaled] at positive same
  rw [Nat.cast_ofNat] at same
  have positive' : (0 : ℚ) < d := by exact_mod_cast positive
  refine ⟨positive, same, ?_, ?_⟩
  · rw [Nat.le_div_iff_mul_le positive]
    have reached : (10 : ℚ) ^ (count - 1 : Nat) ≤ n / d := by
      have sum : ((count - 1 : Nat) : ℤ) + (power + 1 - count) = power := by omega
      rwa [same, le_div_iff₀ unit, ← zpow_natCast, ← zpow_add₀ ten, sum]
    rw [le_div_iff₀ positive'] at reached
    exact_mod_cast reached
  · rw [Nat.div_lt_iff_lt_mul positive]
    have missed : (n : ℚ) / d < 10 ^ count := by
      have sum : (count : ℤ) + (power + 1 - count) = power + 1 := by omega
      rwa [same, div_lt_iff₀ unit, ← zpow_natCast, ← zpow_add₀ ten, sum]
    rw [div_lt_iff₀ positive'] at missed
    exact_mod_cast missed

/-! ## The search in a cell -/

theorem low_cell {m : Nat} (hm : m ≠ 0) (e : Int) :
    ((Cell.of m e).low : ℚ) * 2 ^ (e - 2) = lowerEnd m e := by
  have two : (2 : ℚ) ≠ 0 := two_ne_zero
  unfold Cell.of lowerEnd
  dsimp only
  split
  · rw [Nat.cast_sub (by omega), zpow_sub₀ two]
    push_cast
    ring
  · rw [Nat.cast_sub (by omega), zpow_sub₀ two]
    push_cast
    ring

theorem high_cell (m : Nat) (e : Int) :
    ((Cell.of m e).high : ℚ) * 2 ^ (e - 2) = upperEnd m e := by
  unfold Cell.of upperEnd
  rw [zpow_sub₀ two_ne_zero]
  push_cast
  ring

theorem contains_iff {m : Nat} (hm : m ≠ 0) (e : Int) (x : Nat) {y : Nat} (hy : 0 < y) :
    (Cell.of m e).contains x y = true ↔ InCell m e (x / y * 2 ^ (e - 2)) := by
  have unit : (0 : ℚ) < 2 ^ (e - 2) := zpow_pos two_pos _
  have hy : (0 : ℚ) < y := by exact_mod_cast hy
  have low : (Cell.of m e).low * y ≤ x ↔ lowerEnd m e ≤ x / y * 2 ^ (e - 2) := by
    rw [← low_cell hm, mul_le_mul_iff_of_pos_right unit, le_div_iff₀ hy]
    exact_mod_cast Iff.rfl
  have high : x ≤ (Cell.of m e).high * y ↔ x / y * 2 ^ (e - 2) ≤ upperEnd m e := by
    rw [← high_cell, mul_le_mul_iff_of_pos_right unit, div_le_iff₀ hy]
    exact_mod_cast Iff.rfl
  have low' : (Cell.of m e).low * y < x ↔ lowerEnd m e < x / y * 2 ^ (e - 2) := by
    rw [← low_cell hm, mul_lt_mul_iff_of_pos_right unit, lt_div_iff₀ hy]
    exact_mod_cast Iff.rfl
  have high' : x < (Cell.of m e).high * y ↔ x / y * 2 ^ (e - 2) < upperEnd m e := by
    rw [← high_cell, mul_lt_mul_iff_of_pos_right unit, div_lt_iff₀ hy]
    exact_mod_cast Iff.rfl
  have closed : (Cell.of m e).closed = decide (m % 2 = 0) := rfl
  unfold Cell.contains
  rw [closed]
  by_cases even : m % 2 = 0
  · simp only [decide_eq_true even, if_true, decide_eq_true_eq]
    rw [low, high]
    exact ⟨fun inside => ⟨inside.1, inside.2, fun _ => even⟩, fun inside => ⟨inside.low, inside.high⟩⟩
  · simp only [decide_eq_false even, Bool.false_eq_true, if_false, decide_eq_true_eq]
    rw [low', high']
    constructor
    · rintro ⟨above, below⟩
      exact ⟨above.le, below.le, fun ends => absurd ends (by
        rintro (equal | equal)
        · exact above.ne' equal
        · exact below.ne equal)⟩
    · intro inside
      exact ⟨lt_of_le_of_ne inside.low fun equal => even (inside.even (.inl equal.symm)),
        lt_of_le_of_ne inside.high fun equal => even (inside.even (.inr equal))⟩

/-- A dyadic number as a fraction. -/
theorem scaleDown_dyadic {m : Nat} (hm : m ≠ 0) {e : Int} {num den : Nat}
    (h : scaleDown 2 m 1 (-e) = (num, den)) :
    num ≠ 0 ∧ den ≠ 0 ∧ (num : ℚ) / den = dyadic m e := by
  have positive := scaleDown_pos two_pos m one_pos (-e)
  have same := scaleDown_eq two_pos m 1 (-e)
  rw [h, Nat.cast_one, div_one, Nat.cast_two, zpow_neg, div_inv_eq_mul] at same
  rw [h] at positive
  have same : (num : ℚ) / den = dyadic m e := same
  have nonzero : (0 : ℚ) < num / den := same ▸ dyadic_pos hm e
  exact ⟨ne_zero_of_div_pos nonzero, positive.ne', same⟩

/-- A point of the decimal grid in units of a cell. -/
def gridPlace (point : Nat) (step unit : Int) : Nat × Nat :=
  let (x, y) := scaleDown 10 point 1 (-step)
  scaleDown 2 x y unit

theorem gridPlace_eq (point : Nat) (step unit : Int) :
    0 < (gridPlace point step unit).2 ∧
      ((gridPlace point step unit).1 : ℚ) / (gridPlace point step unit).2 * 2 ^ unit =
        point * 10 ^ step := by
  have first := scaleDown_pos (show 0 < 10 by decide) point one_pos (-step)
  have second := scaleDown_pos two_pos (scaleDown 10 point 1 (-step)).1 first unit
  refine ⟨second, ?_⟩
  have decimal := scaleDown_eq (show 0 < 10 by decide) point 1 (-step)
  have dyadic := scaleDown_eq two_pos (scaleDown 10 point 1 (-step)).1
    (scaleDown 10 point 1 (-step)).2 unit
  have nonzero : (2 : ℚ) ^ unit ≠ 0 := zpow_ne_zero _ two_ne_zero
  rw [decimal, Nat.cast_one, div_one, Nat.cast_ofNat, Nat.cast_two, zpow_neg,
    div_inv_eq_mul] at dyadic
  unfold gridPlace
  dsimp only
  rw [dyadic, div_mul_cancel₀ _ nonzero]

/-- What the search in a cell comes to. -/
theorem exists_of_decimal?_eq_some {c : Cell} {count : Nat} {found : Digits}
    (h : c.decimal? count = some found) {num den n d : Nat}
    (middle : scaleDown 2 c.middle 1 (-c.unit) = (num, den))
    (grid : scaleDown 10 num den (leadingPower num den + 1 - count) = (n, d)) :
    ∃ r, (r = n / d ∨ r = n / d + 1) ∧
      c.contains (gridPlace r (leadingPower num den + 1 - count) c.unit).1
        (gridPlace r (leadingPower num den + 1 - count) c.unit).2 = true ∧
      found = .carried count r (leadingPower num den) := by
  unfold Cell.decimal? at h
  rw [middle] at h
  dsimp only at h
  rw [grid] at h
  obtain ⟨r, choice, rfl⟩ := Option.map_eq_some_iff.1 h
  -- whichever of the two neighbours was chosen, it was looked up
  have chosen : (r = n / d ∨ r = n / d + 1) ∧
      c.contains (gridPlace r (leadingPower num den + 1 - count) c.unit).1
        (gridPlace r (leadingPower num den + 1 - count) c.unit).2 = true := by
    split at choice
    · next below above =>
      cases choice
      split
      · exact ⟨.inl rfl, below⟩
      · exact ⟨.inr rfl, above⟩
    · next below _ =>
      cases choice
      exact ⟨.inl rfl, below⟩
    · next _ above =>
      cases choice
      exact ⟨.inr rfl, above⟩
    · cases choice
  exact ⟨r, chosen.1, chosen.2, rfl⟩

/-- **What is found in the search is in the cell.** -/
theorem inCell_of_decimal? {m : Nat} (hm : m ≠ 0) {e : Int} {count : Nat} (hc : 0 < count)
    {found : Digits} (h : (Cell.of m e).decimal? count = some found) : InCell m e found.value := by
  obtain ⟨⟨num, den⟩, middle⟩ : ∃ q, scaleDown 2 (Cell.of m e).middle 1 (-(Cell.of m e).unit) = q :=
    ⟨_, rfl⟩
  have nonzero : (Cell.of m e).middle ≠ 0 := Nat.mul_ne_zero (by decide) hm
  obtain ⟨hn, hd, -⟩ := scaleDown_dyadic nonzero middle
  obtain ⟨⟨n, d⟩, grid⟩ : ∃ q, scaleDown 10 num den (leadingPower num den + 1 - count) = q :=
    ⟨_, rfl⟩
  obtain ⟨-, -, low, high⟩ := scaleDown_leadingPower hn hd hc grid
  obtain ⟨r, near, inside, rfl⟩ := exists_of_decimal?_eq_some h middle grid
  obtain ⟨positive, place⟩ := gridPlace_eq r (leadingPower num den + 1 - count) (Cell.of m e).unit
  rw [contains_iff hm e _ positive] at inside
  rw [Digits.value_carried hc (by omega) (by omega), ← place]
  exact inside

/-! ## Seventeen digits -/

/-- **Rounding to `count` digits** is off by half a unit of the last digit at most. -/
theorem abs_significant_sub_le {num den count : Nat} (hn : num ≠ 0) (hd : den ≠ 0)
    (hc : 0 < count) : |(significant count num den).value - num / den| ≤
      1 / 2 * 10 ^ (leadingPower num den + 1 - count) := by
  obtain ⟨⟨n, d⟩, grid⟩ : ∃ q, scaleDown 10 num den (leadingPower num den + 1 - count) = q :=
    ⟨_, rfl⟩
  obtain ⟨positive, scaled, low, high⟩ := scaleDown_leadingPower hn hd hc grid
  obtain ⟨near, close⟩ := roundHalfEven_near n positive
  have rounded : significant count num den =
      .carried count (roundHalfEven n d) (leadingPower num den) := by
    unfold significant
    dsimp only
    rw [grid]
  rw [rounded, Digits.value_carried hc (by omega) (by omega)]
  have step : (0 : ℚ) < 10 ^ (leadingPower num den + 1 - count) := by positivity
  rw [eq_div_iff step.ne'] at scaled
  rw [← scaled, ← sub_mul, abs_mul, abs_of_pos step]
  exact mul_le_mul_of_nonneg_right close step.le

/-- **Seventeen digits are in the cell**, because there are fewer significands than that. -/
theorem inCell_significant {num den m : Nat} {e : Int} (shape : Representable m e) (hn : num ≠ 0)
    (hd : den ≠ 0) (same : (num : ℚ) / den = dyadic m e) :
    InCell m e (significant 17 num den).value := by
  have close := abs_significant_sub_le hn hd (show 0 < 17 by decide)
  obtain ⟨reached, -⟩ := ten_zpow_leadingPower hn hd
  rw [same] at close reached
  have unit : (0 : ℚ) < 2 ^ e := zpow_pos two_pos e
  -- a unit of the last digit, in units of the double
  have fine : (10 : ℚ) ^ (leadingPower num den + 1 - (17 : Nat)) ≤ m / 10 ^ 16 * 2 ^ e := by
    have sum : leadingPower num den + 1 - (17 : Nat) + (16 : Nat) = leadingPower num den := by omega
    rwa [div_mul_eq_mul_div, le_div_iff₀ (by positivity), ← zpow_natCast, ← zpow_add₀ (by norm_num),
      sum]
  have short : (m : ℚ) / 10 ^ 16 < 1 := by
    have few : (m : ℚ) < 2 * leadingBit := by exact_mod_cast shape.lt
    rw [div_lt_one (by positivity)]
    refine few.trans ?_
    norm_num [leadingBit]
  generalize (significant 17 num den).value = v at *
  obtain ⟨above, below⟩ := abs_le.1 close
  unfold dyadic at above below
  have low : lowerEnd m e < v := by
    unfold lowerEnd
    split
    · next leading =>
      have short : (m : ℚ) / 10 ^ 16 < 1 / 2 := by
        rw [leading.1]
        norm_num [leadingBit]
      nlinarith
    · nlinarith
  have high : v < upperEnd m e := by
    unfold upperEnd
    nlinarith
  exact ⟨low.le, high.le, by
    rintro (equal | equal)
    · exact absurd equal low.ne'
    · exact absurd equal high.ne⟩

theorem inCell_shortest {m : Nat} {e : Int} (shape : Representable m e) (hm : m ≠ 0) :
    InCell m e (shortest m e).value := by
  unfold shortest
  dsimp only
  cases h : (List.range' 1 16).findSome? (Cell.of m e).decimal? with
  | some found =>
    obtain ⟨count, tried, h⟩ := List.exists_of_findSome?_eq_some h
    have positive : 0 < count := (List.mem_range'_1.1 tried).1
    exact inCell_of_decimal? hm positive h
  | none =>
    obtain ⟨⟨num, den⟩, fraction⟩ : ∃ q, scaleDown 2 m 1 (-e) = q := ⟨_, rfl⟩
    obtain ⟨hn, hd, same⟩ := scaleDown_dyadic hm fraction
    rw [fraction]
    exact inCell_significant shape hn hd same

/-! ## Reading back -/

theorem zpow_lt_zpow_of_pow_lt {a b k l : Nat} (h : Nat.pow a k < Nat.pow b l) :
    (a : ℚ) ^ (k : ℤ) < (b : ℚ) ^ (l : ℤ) := by
  rw [zpow_natCast, zpow_natCast]
  exact_mod_cast h

/-- The cells of doubles are far from the powers of ten that need not be formed. -/
theorem InCell.bounds {m : Nat} {e : Int} {q : ℚ} (h : InCell m e q) (shape : Representable m e)
    (hm : m ≠ 0) : (10 : ℚ) ^ (-330 : ℤ) < q ∧ q < 10 ^ (330 : ℤ) := by
  have one : (1 : ℚ) ≤ m := by exact_mod_cast Nat.one_le_iff_ne_zero.2 hm
  have small : (2 : ℚ) ^ (1075 : ℤ) < 10 ^ (330 : ℤ) := by
    have powers : Nat.pow 2 1075 < Nat.pow 10 330 := by decide +kernel
    simpa only [Nat.cast_ofNat] using zpow_lt_zpow_of_pow_lt powers
  have large : (2 : ℚ) ^ (1024 : ℤ) < 10 ^ (330 : ℤ) :=
    (zpow_le_zpow_right₀ one_le_two (by decide)).trans_lt small
  constructor
  · have least : (2 : ℚ) ^ leastExponent ≤ 2 ^ e := zpow_le_zpow_right₀ one_le_two shape.least
    have unit : (0 : ℚ) < 2 ^ leastExponent := zpow_pos two_pos _
    calc (10 : ℚ) ^ (-330 : ℤ) < 2 ^ (-1075 : ℤ) := by
          rw [zpow_neg, zpow_neg]
          exact inv_strictAnti₀ (zpow_pos two_pos _) small
      _ = 1 / 2 * 2 ^ leastExponent := by
          rw [leastExponent, show (-1074 : ℤ) = -1075 + 1 by rfl, zpow_add_one₀ two_ne_zero]
          generalize (2 : ℚ) ^ (-1075 : ℤ) = x
          ring
      _ ≤ (m - 1 / 2) * 2 ^ e := mul_le_mul (by linarith) least unit.le (by linarith)
      _ ≤ q := (half_le_lowerEnd m e).trans h.low
  · calc q < dyadic (2 * leadingBit) e := h.lt_dyadic shape
      _ ≤ dyadic (2 * leadingBit) greatestExponent := dyadic_le_of_exponent_le _ shape.greatest
      _ = 2 ^ (1024 : ℤ) := by
          rw [dyadic_double, dyadic_leadingBit]
          rfl
      _ < 10 ^ (330 : ℤ) := large

/-- **A decimal in the cell of a double reads back to the double.** -/
theorem InCell.decode_nearestDecimal {m r : Nat} {e p : Int} (h : InCell m e (r * 10 ^ p))
    (shape : Representable m e) (hm : m ≠ 0) :
    decode (nearestDecimal r p) = .finite false m e := by
  have positive := h.pos hm
  obtain ⟨tiny, huge⟩ := h.bounds shape hm
  have ten : (10 : ℚ) ≠ 0 := by norm_num
  have unit : (0 : ℚ) < 10 ^ p := by positivity
  have hr : r ≠ 0 := by
    rintro rfl
    rw [Nat.cast_zero, zero_mul] at positive
    exact lt_irrefl _ positive
  obtain ⟨low, high⟩ := ten_zpow_digitCount hr
  have above : -330 < p + digitCount r := by
    rw [← zpow_lt_zpow_iff_right₀ (show (1 : ℚ) < 10 by norm_num), zpow_add₀ ten, mul_comm]
    exact tiny.trans (mul_lt_mul_of_pos_right high unit)
  have below : p + digitCount r ≤ 330 := by
    have first : (10 : ℚ) ^ (digitCount r - 1 + p) < 10 ^ (330 : ℤ) := by
      rw [zpow_add₀ ten]
      exact lt_of_le_of_lt (mul_le_mul_of_nonneg_right low unit.le) huge
    rw [zpow_lt_zpow_iff_right₀ (by norm_num)] at first
    omega
  have fraction := scaleDown_eq (show 0 < 10 by decide) r 1 (-p)
  have scale := scaleDown_pos (show 0 < 10 by decide) r one_pos (-p)
  rw [Nat.cast_one, div_one, Nat.cast_ofNat, zpow_neg, div_inv_eq_mul] at fraction
  have inside : ¬ (r = 0 ∨ p + digitCount r < -330) := by omega
  unfold nearestDecimal
  dsimp only
  rw [if_neg inside, if_neg (not_lt.2 below)]
  rw [← fraction] at h
  exact h.decode_nearest shape hm scale.ne'

/-- **The shortest decimal of a double reads back to the double.** -/
theorem decode_nearestDecimal_shortest {m : Nat} {e : Int} (shape : Representable m e) (hm : m ≠ 0) :
    decode (nearestDecimal (shortest m e).digits
      ((shortest m e).power + 1 - digitCount (shortest m e).digits)) = .finite false m e :=
  (inCell_shortest shape hm).decode_nearestDecimal shape hm

end SymSolve.Decimal
