import SymSolve.Proofs.Decimal.Doubles

/-!
# The nearest double

`nearest num den` picks the exponent first and rounds the significand to it. There is one exponent
that fits a fraction (`IsExponent.unique`), and at that exponent the fraction is rounded to the
significand that it is within a half of (`nearestDyadic_eq_of_le`). The bits of the two are those of
the double, also where the significand carries into the exponent (`bitsOf_carry`).

**Theorem (`decode_ofInt_of_le`).** An integer up to `2 ^ 53` is its double.

**Theorem (`le_wholePart_product`).** A product of an integer word and a factor above one has an
integer part that is not smaller than the word.

A larger integer than `2 ^ 53` may be rounded down, by less than a unit (`decode_ofInt_of_lt`). A
factor above one makes up for that: before it is rounded, the product is a unit larger
(`dyadic_succ_le_product`).
-/

namespace SymSolve.Decimal

open Float.Model Float.Model.UnpackedFloat

/-! ## Fractions -/

theorem ne_zero_of_div_pos {num den : Nat} (h : (0 : ℚ) < num / den) : num ≠ 0 := by
  rintro rfl
  rw [Nat.cast_zero, zero_div] at h
  exact lt_irrefl _ h

theorem scaleDown_pos {base : Nat} (hb : 0 < base) (n : Nat) {d : Nat} (hd : 0 < d) (e : Int) :
    0 < (scaleDown base n d e).2 := by
  unfold scaleDown
  split
  · exact Nat.mul_pos hd (Nat.pow_pos hb)
  · exact hd

theorem scaleDown_eq {base : Nat} (hb : 0 < base) (n d : Nat) (e : Int) :
    ((scaleDown base n d e).1 : ℚ) / (scaleDown base n d e).2 = n / d / (base : ℚ) ^ e := by
  have nonzero : (base : ℚ) ≠ 0 := by exact_mod_cast hb.ne'
  unfold scaleDown
  split
  · next h =>
    obtain ⟨k, rfl⟩ := Int.eq_ofNat_of_zero_le h
    push_cast [Nat.pow_eq]
    rw [zpow_natCast, div_div]
    rfl
  · next h =>
    obtain ⟨k, rfl⟩ : ∃ k : Nat, e = -k := ⟨(-e).toNat, by omega⟩
    rw [zpow_neg, zpow_natCast, div_inv_eq_mul, Int.neg_neg]
    push_cast [Nat.pow_eq]
    rw [div_mul_eq_mul_div]
    rfl

theorem le_scaleDown_iff (k num : Nat) {den : Nat} (hd : 0 < den) (e : Int) :
    k ≤ (scaleDown 2 num den e).1 / (scaleDown 2 num den e).2 ↔ dyadic k e ≤ (num : ℚ) / den := by
  have scaled := scaleDown_eq two_pos num den e
  have scale := scaleDown_pos two_pos num hd e
  have scale' : (0 : ℚ) < (scaleDown 2 num den e).2 := by exact_mod_cast scale
  have unit : (0 : ℚ) < 2 ^ e := zpow_pos two_pos e
  rw [Nat.le_div_iff_mul_le scale, dyadic, ← le_div_iff₀ unit, ← Nat.cast_two (R := ℚ), ← scaled,
    le_div_iff₀ scale']
  exact_mod_cast Iff.rfl

/-- **A fraction is rounded to `k`** if it is within a half of it, and at a half only to an even
one. -/
theorem roundHalfEven_eq {n d k : Nat} (hd : 0 < d) (low : 2 * (k * d) ≤ 2 * n + d)
    (high : 2 * n ≤ 2 * (k * d) + d)
    (tie : 2 * (k * d) = 2 * n + d ∨ 2 * n = 2 * (k * d) + d → k % 2 = 0) :
    roundHalfEven n d = k := by
  have split : d * (n / d) + n % d = n := Nat.div_add_mod n d
  have small : n % d < d := Nat.mod_lt n hd
  unfold roundHalfEven
  dsimp only
  generalize n / d = q at *
  generalize n % d = r at *
  -- the quotient is `k` or the number before it
  have above : k < q + 2 := by
    by_contra far
    have product : (q + 2) * d ≤ k * d := Nat.mul_le_mul_right d (by omega)
    have expanded : (q + 2) * d = d * q + 2 * d := by ring
    omega
  have below : q ≤ k := by
    by_contra far
    have product : (k + 1) * d ≤ q * d := Nat.mul_le_mul_right d (by omega)
    have expanded : (k + 1) * d = k * d + d := by ring
    have swapped : q * d = d * q := Nat.mul_comm q d
    omega
  obtain rfl | rfl : k = q ∨ k = q + 1 := by omega
  · have swapped : k * d = d * k := Nat.mul_comm k d
    split_ifs <;> omega
  · have expanded : (q + 1) * d = d * q + d := by ring
    split_ifs <;> omega

theorem roundHalfEven_eq_of_le {n d k : Nat} (hd : 0 < d) (low : (k : ℚ) - 1 / 2 ≤ n / d)
    (high : (n : ℚ) / d ≤ k + 1 / 2)
    (tie : (n : ℚ) / d = k - 1 / 2 ∨ (n : ℚ) / d = k + 1 / 2 → k % 2 = 0) :
    roundHalfEven n d = k := by
  have hd' : (0 : ℚ) < d := by exact_mod_cast hd
  rw [le_div_iff₀ hd'] at low
  rw [div_le_iff₀ hd'] at high
  rw [div_eq_iff hd'.ne', div_eq_iff hd'.ne'] at tie
  apply roundHalfEven_eq hd
  · have low : 2 * ((k : ℚ) * d) ≤ 2 * n + d := by linarith
    exact_mod_cast low
  · have high : 2 * (n : ℚ) ≤ 2 * (k * d) + d := by linarith
    exact_mod_cast high
  · intro h
    apply tie
    rcases h with h | h
    · left
      have h : 2 * ((k : ℚ) * d) = 2 * n + d := by exact_mod_cast h
      linarith
    · right
      have h : 2 * (n : ℚ) = 2 * (k * d) + d := by exact_mod_cast h
      linarith

/-- A rounded fraction is off by a half at most, and next to it. -/
theorem roundHalfEven_near (n : Nat) {d : Nat} (hd : 0 < d) :
    (roundHalfEven n d = n / d ∨ roundHalfEven n d = n / d + 1) ∧
      |(roundHalfEven n d : ℚ) - n / d| ≤ 1 / 2 := by
  have split : d * (n / d) + n % d = n := Nat.div_add_mod n d
  have small : n % d < d := Nat.mod_lt n hd
  have hd' : (0 : ℚ) < d := by exact_mod_cast hd
  have next : (n / d + 1) * d = d * (n / d) + d := by ring
  have here : n / d * d = d * (n / d) := Nat.mul_comm _ _
  have near : (roundHalfEven n d = n / d ∨ roundHalfEven n d = n / d + 1) ∧
      2 * (roundHalfEven n d * d) ≤ 2 * n + d ∧ 2 * n ≤ 2 * (roundHalfEven n d * d) + d := by
    unfold roundHalfEven
    dsimp only
    split_ifs <;> omega
  obtain ⟨neighbour, low, high⟩ := near
  refine ⟨neighbour, ?_⟩
  have low : 2 * ((roundHalfEven n d : ℚ) * d) ≤ 2 * n + d := by exact_mod_cast low
  have high : 2 * (n : ℚ) ≤ 2 * (roundHalfEven n d * d) + d := by exact_mod_cast high
  rw [abs_le]
  constructor
  · rw [neg_le_sub_iff_le_add, div_le_iff₀ hd']
    linarith
  · rw [sub_le_iff_le_add, ← sub_le_iff_le_add', le_div_iff₀ hd']
    linarith

/-! ## The exponent -/

/-- Where the exponent of a rounded number is. -/
structure IsExponent (q : ℚ) (e : Int) : Prop where
  least : leastExponent ≤ e
  lt : q < dyadic (2 * leadingBit) e
  le : e = leastExponent ∨ dyadic leadingBit e ≤ q

theorem dyadic_double (m : Nat) (e : Int) : dyadic (2 * m) e = dyadic m (e + 1) := by
  have doubled := dyadic_mul m 1 e
  rwa [show m * Nat.pow 2 1 = 2 * m from Nat.mul_comm m 2] at doubled

theorem IsExponent.le_of_isExponent {q : ℚ} {e f : Int} (he : IsExponent q e)
    (hf : IsExponent q f) : f ≤ e := by
  by_contra later
  have least := he.least
  have low : dyadic leadingBit f ≤ q := hf.le.resolve_left (by omega)
  have high := he.lt
  rw [dyadic_double] at high
  have apart := dyadic_le_of_exponent_le leadingBit (show e + 1 ≤ f by omega)
  linarith

theorem IsExponent.unique {q : ℚ} {e f : Int} (he : IsExponent q e) (hf : IsExponent q f) :
    e = f :=
  le_antisymm (hf.le_of_isExponent he) (he.le_of_isExponent hf)

theorem two_zpow_log2_le {n : Nat} (hn : n ≠ 0) :
    (2 : ℚ) ^ (n.log2 : ℤ) ≤ n ∧ (n : ℚ) < 2 ^ (n.log2 + 1 : ℤ) := by
  have low : Nat.pow 2 n.log2 ≤ n := Nat.log2_self_le hn
  have high : n < Nat.pow 2 (n.log2 + 1) := Nat.lt_log2_self
  constructor
  · rw [zpow_natCast]
    exact_mod_cast low
  · rw [← Nat.cast_succ, zpow_natCast]
    exact_mod_cast high

theorem dyadic_leadingBit (e : Int) : dyadic leadingBit e = 2 ^ (e + 52) := by
  unfold dyadic
  rw [zpow_add₀ two_ne_zero, mul_comm]
  norm_num [leadingBit]

theorem isExponent_max {q : ℚ} {e : Int} (low : dyadic leadingBit e ≤ q)
    (high : q < dyadic (2 * leadingBit) e) : IsExponent q (max e leastExponent) := by
  by_cases h : leastExponent ≤ e
  · rw [max_eq_left h]
    exact ⟨h, high, .inr low⟩
  · rw [max_eq_right (by omega)]
    exact ⟨le_rfl, high.trans_le (dyadic_le_of_exponent_le _ (by omega)), .inl rfl⟩

theorem isExponent_nearestDyadic {num den : Nat} (hn : num ≠ 0) (hd : den ≠ 0) :
    IsExponent (num / den) (nearestDyadic num den).2 := by
  obtain ⟨numLow, numHigh⟩ := two_zpow_log2_le hn
  obtain ⟨denLow, denHigh⟩ := two_zpow_log2_le hd
  have positive : (0 : ℚ) < den := by exact_mod_cast Nat.pos_of_ne_zero hd
  unfold nearestDyadic
  dsimp only
  generalize hg : (num.log2 : Int) - den.log2 - 53 = g
  -- the guess is right or one too small
  have low : dyadic leadingBit g ≤ (num : ℚ) / den := by
    rw [dyadic_leadingBit, le_div_iff₀ positive]
    calc (2 : ℚ) ^ (g + 52) * den ≤ 2 ^ (g + 52) * 2 ^ (den.log2 + 1 : ℤ) := by gcongr
      _ = 2 ^ (num.log2 : ℤ) := by
          rw [← zpow_add₀ two_ne_zero]
          congr 1
          omega
      _ ≤ num := numLow
  have high : (num : ℚ) / den < dyadic (2 * leadingBit) (g + 1) := by
    rw [dyadic_double, dyadic_leadingBit, div_lt_iff₀ positive]
    calc (num : ℚ) < 2 ^ (num.log2 + 1 : ℤ) := numHigh
      _ = 2 ^ (g + 1 + 1 + 52) * 2 ^ (den.log2 : ℤ) := by
          rw [← zpow_add₀ two_ne_zero]
          congr 1
          omega
      _ ≤ 2 ^ (g + 1 + 1 + 52) * den := by gcongr
  have test := le_scaleDown_iff (2 * leadingBit) num (Nat.pos_of_ne_zero hd) g
  split
  · next more =>
    rw [test, dyadic_double] at more
    exact isExponent_max more high
  · next fits =>
    rw [test, not_le] at fits
    exact isExponent_max low fits

/-- The significand is what is rounded at that exponent. -/
theorem nearestDyadic_eq_of_le {num den k : Nat} (hd : den ≠ 0) {e : Int}
    (exponent : (nearestDyadic num den).2 = e)
    (low : ((k : ℚ) - 1 / 2) * 2 ^ e ≤ num / den) (high : (num : ℚ) / den ≤ (k + 1 / 2) * 2 ^ e)
    (tie : (num : ℚ) / den = (k - 1 / 2) * 2 ^ e ∨ (num : ℚ) / den = (k + 1 / 2) * 2 ^ e →
      k % 2 = 0) : nearestDyadic num den = (k, e) := by
  have unit : (0 : ℚ) < 2 ^ e := zpow_pos two_pos e
  have scaled := scaleDown_eq two_pos num den e
  have scale := scaleDown_pos two_pos num (Nat.pos_of_ne_zero hd) e
  have rounded : (nearestDyadic num den).1 =
      roundHalfEven (scaleDown 2 num den e).1 (scaleDown 2 num den e).2 := by
    rw [← exponent]
    rfl
  rw [Nat.cast_two] at scaled
  apply Prod.ext _ exponent
  rw [rounded]
  apply roundHalfEven_eq_of_le scale
  · rwa [scaled, le_div_iff₀ unit]
  · rwa [scaled, div_le_iff₀ unit]
  · rwa [scaled, div_eq_iff unit.ne', div_eq_iff unit.ne']

theorem Representable.isExponent {m : Nat} {e : Int} (h : Representable m e) :
    IsExponent (dyadic m e) e where
  least := h.least
  lt := by
    have unit : (0 : ℚ) < 2 ^ e := zpow_pos two_pos e
    exact mul_lt_mul_of_pos_right (by exact_mod_cast h.lt) unit
  le := h.normal.symm.imp_right fun long => dyadic_le_dyadic long e

theorem dyadic_pos {m : Nat} (hm : m ≠ 0) (e : Int) : 0 < dyadic m e := by
  unfold dyadic
  positivity

/-- A representable number is the nearest one to itself. -/
theorem nearestDyadic_of_eq {num den m : Nat} {e : Int} (hd : den ≠ 0) (hm : m ≠ 0)
    (shape : Representable m e) (same : (num : ℚ) / den = dyadic m e) :
    nearestDyadic num den = (m, e) := by
  have unit : (0 : ℚ) < 2 ^ e := zpow_pos two_pos e
  have positive : (0 : ℚ) < num / den := same ▸ dyadic_pos hm e
  have hn := ne_zero_of_div_pos positive
  have exponent := isExponent_nearestDyadic hn hd
  rw [same] at exponent
  apply nearestDyadic_eq_of_le hd (exponent.unique shape.isExponent)
  all_goals rw [same, dyadic]
  · gcongr
    linarith
  · gcongr
    linarith
  · rintro (h | h) <;> exact absurd (mul_right_cancel₀ unit.ne' h) (by linarith)

/-! ## The double -/

theorem toNat_toUInt64 {n : Nat} (h : n ≤ infinityBits) : n.toUInt64.toNat = n := by
  have small : n < 18446744073709551616 := by
    unfold infinityBits leadingBit at h
    omega
  simp only [Nat.toUInt64_eq, UInt64.toNat_ofNat']
  exact Nat.mod_eq_of_lt small

/-- Bits up to those of infinity are those of a number. -/
theorem toNat_ofBits {n : Nat} (h : n ≤ infinityBits) :
    (Float.ofBits n.toUInt64).toBits.toNat = n := by
  have stored := toNat_toUInt64 h
  have number : @isNaNBits Format.binary64 n.toUInt64.toBitVec = false := by
    have exponent := unpackExponent_eq_iff n.toUInt64 (-1#11)
    have mantissa := unpackMantissa_eq_zero_iff n.toUInt64
    rw [stored] at exponent mantissa
    refine decide_eq_false fun nan => nan.2 (mantissa.2 ?_)
    have field : n / leadingBit % 2048 = 2047 := exponent.1 nan.1
    unfold infinityBits leadingBit at *
    omega
  have packed : (Float.ofBits n.toUInt64).toBits.toBitVec = n.toUInt64.toBitVec := by
    show (UnpackedFloat.unpack Format.binary64 n.toUInt64.toBitVec).pack Format.binary64 = _
    rw [pack_unpack, number]
    rfl
  rw [← UInt64.toNat_toBitVec, packed, UInt64.toNat_toBitVec, stored]

theorem decode_ofBits_of_lt {n : Nat} (h : n < infinityBits) :
    decode (Float.ofBits n.toUInt64) =
      if n / leadingBit = 0 then .finite false (n % leadingBit) leastExponent
      else .finite false (leadingBit + n % leadingBit) ((n / leadingBit : Nat) + leastExponent - 1) := by
  have field : n / leadingBit < 2047 := (Nat.div_lt_iff_lt_mul (by decide)).2 h
  have fraction : n % leadingBit < leadingBit := Nat.mod_lt _ (by decide)
  have split : (Float.ofBits n.toUInt64).toBits.toNat =
      signOf .positive + n / leadingBit * leadingBit + n % leadingBit := by
    rw [toNat_ofBits h.le, Nat.mul_comm, show signOf .positive = 0 from rfl, Nat.zero_add,
      Nat.div_add_mod]
  exact decode_of_toNat field fraction split

theorem decode_infinityBits : decode (Float.ofBits infinityBits.toUInt64) = .infinite false := by
  decide +kernel

/-- Bits up to those of infinity are those of a number that is not negative. -/
theorem decode_ofBits_cases {n : Nat} (h : n ≤ infinityBits) :
    decode (Float.ofBits n.toUInt64) = .infinite false ∨
      ∃ m e, decode (Float.ofBits n.toUInt64) = .finite false m e := by
  by_cases finite : n < infinityBits
  · right
    rw [decode_ofBits_of_lt finite]
    split <;> exact ⟨_, _, rfl⟩
  · left
    rw [show n = infinityBits by omega, decode_infinityBits]

/-- The bits of a significand and an exponent. -/
def bitsOf (m : Nat) (e : Int) : Nat :=
  if m < leadingBit then m else (e - leastExponent + 1).toNat * leadingBit + (m - leadingBit)

theorem decode_bitsOf {m : Nat} {e : Int} (shape : Representable m e) :
    bitsOf m e < infinityBits ∧
      decode (Float.ofBits (bitsOf m e).toUInt64) = .finite false m e := by
  obtain ⟨lt, least, greatest, normal⟩ := shape
  unfold bitsOf greatestExponent leastExponent at *
  by_cases short : m < leadingBit
  · have finite : m < infinityBits := short.trans (by decide)
    have lowest : -1074 = e := by omega
    rw [if_pos short, decode_ofBits_of_lt finite, Nat.div_eq_of_lt short, if_pos rfl,
      Nat.mod_eq_of_lt short]
    exact ⟨finite, congrArg _ lowest⟩
  · rw [if_neg short]
    generalize hf : (e - -1074 + 1).toNat = field
    have below : field < 2047 := by omega
    have quotient : (field * leadingBit + (m - leadingBit)) / leadingBit = field := by
      rw [Nat.mul_comm, Nat.mul_add_div (by decide), Nat.div_eq_of_lt (by omega), Nat.add_zero]
    have remainder : (field * leadingBit + (m - leadingBit)) % leadingBit = m - leadingBit := by
      rw [Nat.mul_comm, Nat.mul_add_mod, Nat.mod_eq_of_lt (by omega)]
    have finite : field * leadingBit + (m - leadingBit) < infinityBits :=
      (Nat.div_lt_iff_lt_mul (by decide)).1 (quotient.trans_lt below)
    have whole : leadingBit + (m - leadingBit) = m := by omega
    have shifted : (field : Int) + leastExponent - 1 = e := by
      unfold leastExponent
      omega
    have positive : ¬ field = 0 := by omega
    rw [decode_ofBits_of_lt finite, quotient, remainder, if_neg positive, whole, shifted]
    exact ⟨finite, rfl⟩

/-- A significand that has become too long carries into the exponent. -/
theorem bitsOf_carry {e : Int} (least : leastExponent ≤ e) :
    bitsOf (2 * leadingBit) e = bitsOf leadingBit (e + 1) := by
  have field : (e + 1 - leastExponent + 1).toNat = (e - leastExponent + 1).toNat + 1 := by omega
  unfold bitsOf
  rw [if_neg (by decide), if_neg (lt_irrefl _), field, Nat.sub_self, Nat.add_mul, Nat.one_mul,
    Nat.two_mul, Nat.add_sub_cancel, Nat.add_zero]

theorem nearest_eq {num den m : Nat} {e : Int} (hn : num ≠ 0)
    (rounded : nearestDyadic num den = (m, e)) :
    nearest num den = Float.ofBits (min (bitsOf m e) infinityBits).toUInt64 := by
  unfold nearest nearestBits
  rw [if_neg hn, rounded]
  rfl

theorem decode_nearest {num den m : Nat} {e : Int} (hn : num ≠ 0)
    (rounded : nearestDyadic num den = (m, e)) (shape : Representable m e) :
    decode (nearest num den) = .finite false m e := by
  obtain ⟨finite, decoded⟩ := decode_bitsOf shape
  rw [nearest_eq hn rounded, min_eq_left finite.le]
  exact decoded

theorem decode_nearest_of_carry {num den : Nat} {e : Int} (hn : num ≠ 0)
    (rounded : nearestDyadic num den = (2 * leadingBit, e)) (least : leastExponent ≤ e)
    (small : e < greatestExponent) :
    decode (nearest num den) = .finite false leadingBit (e + 1) := by
  have shape : Representable leadingBit (e + 1) :=
    ⟨by decide, by omega, by omega, .inl le_rfl⟩
  obtain ⟨finite, decoded⟩ := decode_bitsOf shape
  rw [nearest_eq hn rounded, bitsOf_carry least, min_eq_left finite.le]
  exact decoded

theorem decode_zero : decode 0.0 = .finite false 0 leastExponent := by
  decide +kernel

/-- Nothing is rounded to a negative number. -/
theorem decode_nearestDecimal_cases (significand : Nat) (exponent : Int) :
    decode (nearestDecimal significand exponent) = .infinite false ∨
      ∃ m e, decode (nearestDecimal significand exponent) = .finite false m e := by
  unfold nearestDecimal
  dsimp only
  split
  · exact .inr ⟨_, _, decode_zero⟩
  split
  · exact .inl decode_infinityBits
  unfold nearest
  split
  · exact .inr ⟨_, _, decode_zero⟩
  · exact decode_ofBits_cases (Nat.min_le_right _ _)

/-! ## Integers -/

/-- Integers up to this one are doubles. -/
def exactIntegers : Nat := 2 * leadingBit

/-- **Integers up to `2 ^ 53` are doubles.** -/
theorem exists_representable {n : Nat} (hn : n ≠ 0) (small : n ≤ exactIntegers) :
    ∃ m e, Representable m e ∧ m ≠ 0 ∧ dyadic m e = n := by
  by_cases last : n = exactIntegers
  · refine ⟨leadingBit, 1, ⟨by decide, by decide, by decide, .inl le_rfl⟩, by decide, ?_⟩
    rw [last, dyadic, zpow_one]
    norm_num [exactIntegers, leadingBit]
  · have below : n < 2 * leadingBit := lt_of_le_of_ne small last
    have log : n.log2 ≤ 52 := by
      by_cases short : n < leadingBit
      · exact (log2_of_short short).le
      · exact (log2_of_normal (by omega) below).le
    obtain ⟨k, hk⟩ : ∃ k, n.log2 + k = 52 := ⟨52 - n.log2, by omega⟩
    have power : 0 < Nat.pow 2 k := Nat.pow_pos two_pos
    have low : Nat.pow 2 n.log2 ≤ n := Nat.log2_self_le hn
    have high : n < Nat.pow 2 (n.log2 + 1) := Nat.lt_log2_self
    have whole : Nat.pow 2 n.log2 * Nat.pow 2 k = leadingBit := by
      rw [leadingBit_eq, ← hk]
      exact (Nat.pow_add 2 _ _).symm
    have twice : Nat.pow 2 (n.log2 + 1) * Nat.pow 2 k = 2 * leadingBit := by
      rw [← whole, ← Nat.mul_assoc]
      congr 1
      exact Nat.pow_succ'
    refine ⟨n * Nat.pow 2 k, -k, ⟨?_, ?_, ?_, .inl ?_⟩, (Nat.mul_pos (by omega) power).ne', ?_⟩
    · exact lt_of_lt_of_eq (Nat.mul_lt_mul_of_pos_right high power) twice
    · unfold leastExponent
      omega
    · unfold greatestExponent
      omega
    · exact whole.symm.trans_le (Nat.mul_le_mul_right _ low)
    · rw [dyadic_mul, neg_add_cancel, dyadic, zpow_zero, mul_one]

theorem ofInt_eq_nearestDecimal {i : Int} (nonneg : 0 ≤ i) :
    (Scalar.ofInt i : Float) = nearestDecimal i.natAbs 0 := if_neg (by omega)

/-- What the double of an integer denotes. -/
theorem decode_ofInt_cases {i : Int} (nonneg : 0 ≤ i) :
    decode (Scalar.ofInt i) = .infinite false ∨
      ∃ m e, decode (Scalar.ofInt i) = .finite false m e := by
  rw [ofInt_eq_nearestDecimal nonneg]
  exact decode_nearestDecimal_cases i.natAbs 0

theorem nearestDecimal_eq_nearest {n : Nat} (hn : n ≠ 0) (small : n < wordCount) :
    nearestDecimal n 0 = nearest n 1 := by
  have digits : digitCount n ≤ 20 := by
    refine (Nat.length_toDigits_le_iff (by decide) (by decide)).2 (small.trans ?_)
    decide
  unfold nearestDecimal
  dsimp only
  rw [if_neg (by omega), if_neg (by omega)]
  rfl

/-- **An integer up to `2 ^ 53` is its double.** -/
theorem decode_ofInt_of_le {n : Nat} (small : n ≤ exactIntegers) :
    ∃ m e, decode (Scalar.ofInt n) = .finite false m e ∧ wholePart m e = n := by
  rw [ofInt_eq_nearestDecimal (Int.natCast_nonneg n), Int.natAbs_natCast]
  by_cases hn : n = 0
  · subst hn
    exact ⟨0, leastExponent, decode_zero, by decide +kernel⟩
  · obtain ⟨m, e, shape, positive, same⟩ := exists_representable hn small
    have rounded : nearestDyadic n 1 = (m, e) :=
      nearestDyadic_of_eq one_ne_zero positive shape (by rw [same, Nat.cast_one, div_one])
    refine ⟨m, e, ?_, ?_⟩
    · rw [nearestDecimal_eq_nearest hn (small.trans_lt (by decide))]
      exact decode_nearest hn rounded shape
    · rw [wholePart_eq_floor, same, Nat.floor_natCast]

/-- A rounded fraction stays between the grid points that it lies between, and is less than a unit
above what it is rounded to. -/
theorem nearestDyadic_near (num : Nat) {den : Nat} (hd : 0 < den) {m : Nat} {e : Int}
    (rounded : nearestDyadic num den = (m, e)) :
    (num : ℚ) / den < dyadic (m + 1) e ∧ (∀ k, dyadic k e ≤ (num : ℚ) / den → k ≤ m) ∧
      ∀ k, (num : ℚ) / den < dyadic k e → m ≤ k := by
  have scale := scaleDown_pos two_pos num hd e
  have fits (k : Nat) := le_scaleDown_iff k num hd e
  obtain ⟨neighbour, -⟩ := roundHalfEven_near (scaleDown 2 num den e).1 scale
  have significand : roundHalfEven (scaleDown 2 num den e).1 (scaleDown 2 num den e).2 = m := by
    obtain ⟨rfl, rfl⟩ := Prod.mk.inj rounded
    rfl
  rw [significand] at neighbour
  refine ⟨not_le.1 ((fits (m + 1)).not.1 (by omega)), fun k hk => ?_, fun k hk => ?_⟩
  · have := (fits k).2 hk
    omega
  · have := (fits k).not.2 (not_le.2 hk)
    omega

/-- **An integer word is less than a unit above its double.** -/
theorem decode_ofInt_of_lt {n : Nat} (hn : n ≠ 0) (small : n < wordCount) :
    ∃ m e, decode (Scalar.ofInt n) = .finite false m e ∧ leadingBit ≤ m ∧
      (n : ℚ) ≤ dyadic (m + 1) e := by
  rw [ofInt_eq_nearestDecimal (Int.natCast_nonneg n), Int.natAbs_natCast,
    nearestDecimal_eq_nearest hn small]
  have one_le : (1 : ℚ) ≤ n := by exact_mod_cast Nat.one_le_iff_ne_zero.2 hn
  obtain ⟨m, e, rounded⟩ : ∃ m e, nearestDyadic n 1 = (m, e) := ⟨_, _, rfl⟩
  have exponent := isExponent_nearestDyadic hn one_ne_zero
  obtain ⟨near, above, below⟩ := nearestDyadic_near n one_pos rounded
  simp only [rounded, Nat.cast_one, div_one] at exponent near above below
  have normal : dyadic leadingBit e ≤ n := by
    refine exponent.le.resolve_left fun least => ?_
    have short : dyadic (2 * leadingBit) e ≤ dyadic (2 * leadingBit) (-53) :=
      dyadic_le_of_exponent_le _ (by
        rw [least]
        decide)
    have unit : dyadic (2 * leadingBit) (-53) = 1 := by norm_num [dyadic, leadingBit]
    linarith [exponent.lt]
  have early : e < 12 := by
    by_contra late
    have large : dyadic leadingBit 12 ≤ dyadic leadingBit e :=
      dyadic_le_of_exponent_le _ (by omega)
    have words : dyadic leadingBit 12 = wordCount := by norm_num [dyadic, leadingBit, wordCount]
    have fits : (n : ℚ) < wordCount := by exact_mod_cast small
    linarith
  by_cases short : m < 2 * leadingBit
  · have shape : Representable m e :=
      ⟨short, exponent.least, by unfold greatestExponent; omega, .inl (above _ normal)⟩
    exact ⟨m, e, decode_nearest hn rounded shape, above _ normal, near.le⟩
  · obtain rfl : m = 2 * leadingBit := le_antisymm (below _ exponent.lt) (not_lt.1 short)
    refine ⟨leadingBit, e + 1, decode_nearest_of_carry hn rounded exponent.least
      (early.trans (by decide)), le_rfl, ?_⟩
    have inside := exponent.lt
    rw [dyadic_double] at inside
    exact inside.le.trans (dyadic_le_dyadic (Nat.le_succ _) _)

/-! ## Products with integers -/

theorem decode_one : decode 1.0 = .finite false leadingBit (-52) := by
  decide +kernel

/-- Finite doubles from the one after one on. -/
theorem decode_of_one_lt {x : Float} (finite : x.isFinite = true) (h : 1.0 < x) :
    ∃ m e, decode x = .finite false m e ∧ leadingBit ≤ m ∧ -52 ≤ e ∧
      (m = leadingBit → -52 < e) := by
  have le : 1.0 ≤ x := le_iff.2 ⟨.lt, lt_iff.1 h, rfl⟩
  obtain ⟨m, e, decoded, hm, he⟩ := decode_of_one_le finite le
  refine ⟨m, e, decoded, hm, he, ?_⟩
  rintro rfl
  refine lt_of_le_of_ne he ?_
  rintro rfl
  obtain rfl : x = 1.0 := decode_injective (decoded.trans decode_one.symm)
  exact absurd h (by decide +kernel)

/-- A factor above one makes a number larger by a unit, before it is rounded. -/
theorem dyadic_succ_le_product {m n : Nat} {d : Int} (hm : leadingBit ≤ m) (hd : -52 ≤ d)
    (more : m = leadingBit → -52 < d) (hn : leadingBit ≤ n) (e : Int) :
    dyadic (n + 1) e ≤ dyadic (m * n) (d + e) := by
  obtain ⟨k, rfl⟩ : ∃ k : Nat, d = k - 52 := ⟨(d + 52).toNat, by omega⟩
  have factor : leadingBit + 1 ≤ m * Nat.pow 2 k := by
    cases k with
    | zero =>
      have : m ≠ leadingBit := fun same => absurd (more same) (by decide)
      show leadingBit + 1 ≤ m * 1
      omega
    | succ k =>
      have doubled : m * 2 ≤ m * Nat.pow 2 (k + 1) :=
        Nat.mul_le_mul_left m (Nat.le_self_pow (Nat.succ_ne_zero k) 2)
      have one : 1 ≤ leadingBit := by decide
      omega
  calc dyadic (n + 1) e = dyadic (n + 1) (e - 52 + (52 : Nat)) := by
        congr 1
        omega
    _ = dyadic ((n + 1) * leadingBit) (e - 52) := (dyadic_mul _ 52 _).symm
    _ ≤ dyadic ((leadingBit + 1) * n) (e - 52) := dyadic_le_dyadic (by linarith) _
    _ ≤ dyadic (m * n * Nat.pow 2 k) (e - 52) := dyadic_le_dyadic (by
        rw [Nat.mul_right_comm]
        exact Nat.mul_le_mul_right n factor) _
    _ = dyadic (m * n) (k - 52 + e) := by
        rw [dyadic_mul]
        congr 1
        omega

/-- **A factor above one does not make an integer word smaller**, although both the word and the
product are rounded. -/
theorem le_wholePart_product {f : Float} (finite : f.isFinite = true) (one_lt : 1.0 < f) {n : Nat}
    (small : n < wordCount) (product : (f * (Scalar.ofInt n : Float)).isFinite = true) :
    ∃ m e, decode (f * Scalar.ofInt n) = .finite false m e ∧ n ≤ wholePart m e := by
  obtain ⟨m, d, hf, hm, hd, more⟩ := decode_of_one_lt finite one_lt
  by_cases hn : n = 0
  · subst hn
    obtain ⟨r, e, decoded, -⟩ := decode_mul hf hm decode_zero product (Nat.zero_le _) le_rfl
      (dyadic_le_product hm hd 0 leastExponent)
    exact ⟨r, e, decoded, Nat.zero_le _⟩
  · obtain ⟨n', e, hy, long, near⟩ := decode_ofInt_of_lt hn small
    obtain ⟨lt, least, -, -⟩ := representable_of_decode hy
    obtain ⟨r, q, decoded, le⟩ := decode_mul hf hm hy product lt least
      (dyadic_succ_le_product hm hd more long e)
    refine ⟨r, q, decoded, ?_⟩
    rw [wholePart_eq_floor]
    exact Nat.le_floor (near.trans le)

end SymSolve.Decimal
