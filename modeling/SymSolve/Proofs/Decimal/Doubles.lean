import Mathlib
import SymSolve.Scalar

/-!
# Doubles and what they denote

`decode` reads sign, significand and exponent off the bits of a double. The arithmetic of doubles is
told in the same three parts, by unpacking, computing and packing again, and the two readings agree
(`decode_eq`). So a double is what it denotes (`decode_injective`), and arithmetic on bits is
arithmetic on numbers `m · 2 ^ e` (`dyadic`).

**Theorem (`wholePart_le_product`).** A finite product of a factor from one on and a number that is
not negative has an integer part that is not smaller than that of the number.

A product is exact until it is packed, and packing rounds it to the nearest double or to infinity
(`decode_roundWithAccuracy`). Rounding may lose up to a unit, so the exact product being larger is
not enough. Where the units of the product are no longer than those of the number, the number is on
the grid of the product; where they are longer, the product has 53 digits and the number has fewer
on that grid (`dyadic_le_rounded`).
-/

namespace SymSolve.Decimal

open Float.Model Float.Model.UnpackedFloat

/-! ## Two readings of the bits -/

/-- What an unpacked double denotes. -/
def Datum.ofUnpacked : UnpackedFloat → Datum
  | .notANumber => .notANumber
  | .infinity s => .infinite (s == .negative)
  | .zero s => .finite (s == .negative) 0 leastExponent
  | .finite s m e _ => .finite (s == .negative) m e

section Bits

variable (bits : UInt64)

theorem toNat_unpackExponent :
    (@unpackExponent Format.binary64 bits.toBitVec).toNat =
      bits.toNat / leadingBit % 2048 := by
  simp [unpackExponent, leadingBit, Nat.shiftRight_eq_div_pow]

theorem toNat_unpackMantissa :
    (@unpackMantissa Format.binary64 bits.toBitVec).toNat = bits.toNat % leadingBit := by
  simp [unpackMantissa, leadingBit]

theorem toNat_unpackSign :
    (@unpackSign Format.binary64 bits.toBitVec).toNat = bits.toNat / signBit := by
  have small : bits.toNat < 18446744073709551616 := bits.toNat_lt
  have bit : bits.toNat / signBit < 2 := by
    unfold signBit
    omega
  simp only [unpackSign, BitVec.toNat_cast, BitVec.extractLsb_toNat, Nat.shiftRight_eq_div_pow]
  exact Nat.mod_eq_of_lt bit

theorem ofBitVec_unpackSign :
    (Sign.ofBitVec (@unpackSign Format.binary64 bits.toBitVec) == .negative) =
      decide (signBit ≤ bits.toNat) := by
  have sign := toNat_unpackSign bits
  have zero : @unpackSign Format.binary64 bits.toBitVec = 0#1 ↔
      bits.toNat / signBit = 0 := by
    rw [← BitVec.toNat_inj, sign]
    rfl
  by_cases negative : signBit ≤ bits.toNat
  · have nonzero : ¬ bits.toNat / signBit = 0 := by
      unfold signBit at *
      omega
    rw [Sign.ofBitVec, if_neg (zero.not.2 nonzero), decide_eq_true negative]
    rfl
  · have none : bits.toNat / signBit = 0 := by
      unfold signBit at *
      omega
    rw [Sign.ofBitVec, if_pos (zero.2 none), decide_eq_false negative]
    rfl

theorem unpackExponent_eq_iff (field : BitVec 11) :
    @unpackExponent Format.binary64 bits.toBitVec = field ↔
      bits.toNat / leadingBit % 2048 = field.toNat := by
  rw [← BitVec.toNat_inj, toNat_unpackExponent]

theorem unpackMantissa_eq_zero_iff :
    @unpackMantissa Format.binary64 bits.toBitVec = 0#52 ↔
      bits.toNat % leadingBit = 0 := by
  rw [← BitVec.toNat_inj, toNat_unpackMantissa]
  rfl

end Bits

theorem decode_eq (x : Float) : decode x = .ofUnpacked x.toModel.unpack := by
  rw [show x.toModel.unpack = UnpackedFloat.unpack Format.binary64 x.toBits.toBitVec from rfl, decode]
  generalize x.toBits = bits
  have sign := ofBitVec_unpackSign bits
  have mantissa := toNat_unpackMantissa bits
  have exponent := toNat_unpackExponent bits
  have all := unpackExponent_eq_iff bits (-1#11)
  have none := unpackExponent_eq_iff bits 0#11
  have zero := unpackMantissa_eq_zero_iff bits
  have bias : (Format.binary64.exponentBias + Format.binary64.mantissaBitsWithoutImplicit : Int) =
      1075 := by decide
  simp only [UnpackedFloat.unpack]
  by_cases h₁ : bits.toNat / leadingBit % 2048 = 2047
  · rw [if_pos h₁, if_pos (all.2 h₁)]
    by_cases h₂ : bits.toNat % leadingBit = 0
    · rw [if_pos h₂, if_pos (zero.2 h₂)]
      exact congrArg Datum.infinite sign.symm
    · rw [if_neg h₂, if_neg (zero.not.2 h₂)]
      rfl
  · rw [if_neg h₁, if_neg (all.not.2 h₁)]
    by_cases h₂ : bits.toNat / leadingBit % 2048 = 0
    · rw [if_pos h₂, if_pos (none.2 h₂)]
      by_cases h₃ : bits.toNat % leadingBit = 0
      · rw [dif_pos (zero.2 h₃), h₃]
        simp only [Datum.ofUnpacked, sign]
      · rw [dif_neg (zero.not.2 h₃)]
        simp only [Datum.ofUnpacked, sign, mantissa, exponent, h₂, bias]
        rfl
    · rw [if_neg h₂, if_neg (none.not.2 h₂)]
      have whole : (1#1 ++ @unpackMantissa Format.binary64 bits.toBitVec).toNat =
          leadingBit + bits.toNat % leadingBit := by
        have small : bits.toNat % leadingBit < Nat.pow 2 52 := Nat.mod_lt _ (by decide)
        rw [BitVec.toNat_append, mantissa, ← Nat.shiftLeft_add_eq_or_of_lt small]
        rfl
      simp only [Datum.ofUnpacked, sign, whole, exponent, bias, leastExponent]
      congr 1
      omega

/-! ## Representable numbers -/

/-- The greatest exponent of a finite double. -/
def greatestExponent : Int := 971

/-- A significand and an exponent that stand for a finite double. -/
structure Representable (m : Nat) (e : Int) : Prop where
  lt : m < 2 * leadingBit
  least : leastExponent ≤ e
  greatest : e ≤ greatestExponent
  /-- Only the least exponent goes with a short significand. -/
  normal : leadingBit ≤ m ∨ e = leastExponent

theorem representable_of_decode {x : Float} {negative : Bool} {m : Nat} {e : Int}
    (h : decode x = .finite negative m e) : Representable m e := by
  have fraction : x.toBits.toNat % leadingBit < leadingBit := Nat.mod_lt _ (by decide)
  have field : x.toBits.toNat / leadingBit % 2048 < 2048 := Nat.mod_lt _ (by decide)
  unfold decode at h
  dsimp only at h
  split at h
  · split at h <;> cases h
  split at h
  · cases h
    exact ⟨by omega, by decide, by decide, .inr rfl⟩
  · cases h
    exact ⟨by omega, by unfold leastExponent; omega,
      by unfold leastExponent greatestExponent; omega, .inl (by omega)⟩

theorem log2_of_normal {m : Nat} (low : leadingBit ≤ m) (high : m < 2 * leadingBit) :
    m.log2 = 52 := by
  unfold leadingBit at low high
  rw [Nat.log2_eq_iff (by omega)]
  constructor <;> omega

theorem log2_of_short {m : Nat} (short : m < leadingBit) : m.log2 < 52 := by
  by_cases zero : m = 0
  · rw [zero]
    decide
  · exact (Nat.log2_lt zero).2 short

/-- The bit of a sign. -/
def signOf (s : Sign) : Nat := if s == .negative then signBit else 0

theorem toNat_packComponents (s : Sign) (E : BitVec 11) (M : BitVec 52) :
    (packComponents Format.binary64 s E M).toNat =
      signOf s + E.toNat * leadingBit + M.toNat := by
  have hE := E.isLt
  have hM : M.toNat < Nat.pow 2 52 := M.isLt
  unfold packComponents
  rw [BitVec.toNat_append, ← Nat.shiftLeft_add_eq_or_of_lt hM, BitVec.toNat_append,
    ← Nat.shiftLeft_add_eq_or_of_lt hE, Nat.shiftLeft_eq, Nat.shiftLeft_eq]
  cases s
  · show (1 * 2 ^ 11 + E.toNat) * 2 ^ 52 + M.toNat = signBit + E.toNat * leadingBit + M.toNat
    unfold signBit leadingBit
    omega
  · show (0 * 2 ^ 11 + E.toNat) * 2 ^ 52 + M.toNat = 0 + E.toNat * leadingBit + M.toNat
    unfold leadingBit
    omega

theorem decode_of_toNat {x : Float} {s : Sign} {field fraction : Nat} (hfield : field < 2047)
    (hfraction : fraction < leadingBit)
    (h : x.toBits.toNat = signOf s + field * leadingBit + fraction) :
    decode x = if field = 0 then .finite (s == .negative) fraction leastExponent
      else .finite (s == .negative) (leadingBit + fraction) (field + leastExponent - 1) := by
  have sign : decide (signBit ≤ x.toBits.toNat) = (s == .negative) := by
    rw [h]
    unfold signOf signBit leadingBit at *
    cases s
    · exact decide_eq_true (by simp only [beq_self_eq_true, if_true]; omega)
    · exact decide_eq_false (by
        show ¬ 9223372036854775808 ≤ 0 + field * 4503599627370496 + fraction
        omega)
  have first : x.toBits.toNat / leadingBit % 2048 = field := by
    rw [h]
    unfold signOf signBit leadingBit at *
    split <;> omega
  have second : x.toBits.toNat % leadingBit = fraction := by
    rw [h]
    unfold signOf signBit leadingBit at *
    split <;> omega
  have finite : ¬ field = 2047 := by omega
  unfold decode
  simp only [sign, first, second, if_neg finite]

theorem pack_finite (s : Sign) (m : Nat) (e : Int) (positive : 0 < m) :
    UnpackedFloat.pack Format.binary64 (.finite s m e positive) =
      if 2047 ≤ (e + 1075).toNat then packedInfinity Format.binary64 s
      else if m.log2 = 52 then
        packComponents Format.binary64 s (BitVec.ofNat 11 (e + 1075).toNat) (BitVec.ofNat 52 m)
      else packComponents Format.binary64 s 0#11 (BitVec.ofNat 52 m) := by
  have biased : (e + Format.binary64.exponentBias + (52 : Nat)).toNat = (e + 1075).toNat := by
    congr 1
    show e + 1023 + 52 = e + 1075
    omega
  have large : Nat.pow 2 11 ≤ (e + 1075).toNat + 1 ↔ 2047 ≤ (e + 1075).toNat :=
    Nat.succ_le_succ_iff
  have long : m.log2 + 1 = Format.binary64.mantissaBits ↔ m.log2 = 52 := Nat.succ_inj
  rw [UnpackedFloat.pack]
  simp only [biased, ← large, ← long]

/-- **A representable number is packed without loss.** -/
theorem decode_pack {s : Sign} {m : Nat} {e : Int} (positive : 0 < m) (h : Representable m e) :
    decode (.ofModel (.pack (.finite s m e positive))) = .finite (s == .negative) m e := by
  obtain ⟨lt, least, greatest, normal⟩ := h
  unfold greatestExponent leastExponent at *
  have fits : ¬ 2047 ≤ (e + 1075).toNat := by omega
  have bits : (Float.ofModel (.pack (.finite s m e positive))).toBits.toNat =
      (UnpackedFloat.pack Format.binary64 (.finite s m e positive)).toNat := rfl
  rw [pack_finite, if_neg fits] at bits
  by_cases short : m < leadingBit
  · have log : ¬ m.log2 = 52 := (log2_of_short short).ne
    have fraction : (BitVec.ofNat 52 m).toNat = m := Nat.mod_eq_of_lt short
    rw [if_neg log, toNat_packComponents, fraction] at bits
    have unpacked : decode _ = if 0 = 0 then _ else _ := decode_of_toNat (by decide) short bits
    rw [unpacked, if_pos rfl]
    congr 1
    unfold leastExponent
    omega
  · have log : m.log2 = 52 := log2_of_normal (by omega) lt
    have field : (BitVec.ofNat 11 (e + 1075).toNat).toNat = (e + 1075).toNat :=
      Nat.mod_eq_of_lt (by omega)
    have fraction : (BitVec.ofNat 52 m).toNat = m - leadingBit := by
      have stored : m % Nat.pow 2 52 = m - leadingBit := by
        rw [← leadingBit_eq]
        unfold leadingBit at *
        omega
      exact stored
    rw [if_pos log, toNat_packComponents, field, fraction] at bits
    have unpacked := decode_of_toNat (by omega) (by omega) bits
    have normal : ¬ (e + 1075).toNat = 0 := by omega
    have whole : leadingBit + (m - leadingBit) = m := by omega
    have shifted : ((e + 1075).toNat : Int) + leastExponent - 1 = e := by
      unfold leastExponent
      omega
    simp only [if_neg normal, whole, shifted] at unpacked
    exact unpacked

theorem decode_pack_of_large {s : Sign} {m : Nat} {e : Int} (positive : 0 < m)
    (large : greatestExponent < e) :
    decode (.ofModel (.pack (.finite s m e positive))) = .infinite (s == .negative) := by
  have overflows : 2047 ≤ (e + 1075).toNat := by
    unfold greatestExponent at large
    omega
  have infinite : Float.Model.pack (.finite s m e positive) = .pack (.infinity s) := by
    unfold Float.Model.pack
    simp only [pack_finite, if_pos overflows]
    rfl
  rw [infinite]
  cases s <;> decide +kernel

theorem decode_pack_zero (s : Sign) :
    decode (.ofModel (.pack (.zero s))) = .finite (s == .negative) 0 leastExponent := by
  cases s <;> decide +kernel

theorem Datum.ofUnpacked_injective {a b : UnpackedFloat}
    (h : Datum.ofUnpacked a = .ofUnpacked b) : a = b := by
  have signs {s t : Sign} (h : (s == .negative) = (t == .negative)) : s = t := by
    cases s <;> cases t <;> first | rfl | cases h
  cases a <;> cases b <;> simp only [Datum.ofUnpacked, reduceCtorEq, Datum.infinite.injEq,
    Datum.finite.injEq] at h
  · rw [signs h]
  · rfl
  · rw [signs h.1]
  · omega
  · omega
  · obtain ⟨hs, rfl, rfl⟩ := h
    rw [signs hs]

/-- **A double is what it denotes**; there is one that is not a number. -/
theorem decode_injective {x y : Float} (h : decode x = decode y) : x = y := by
  rw [decode_eq, decode_eq] at h
  have unpacked := Datum.ofUnpacked_injective h
  obtain ⟨⟨⟨a⟩, ha⟩⟩ := x
  obtain ⟨⟨⟨b⟩, hb⟩⟩ := y
  obtain rfl := (unpack_inj_of_valid ha hb).1 unpacked
  rfl

theorem decode_neg {x : Float} {negative : Bool} {m : Nat} {e : Int}
    (h : decode x = .finite negative m e) : decode (-x) = .finite (!negative) m e := by
  have shape := representable_of_decode h
  rw [decode_eq] at h
  have unfolded : -x = .ofModel (.pack (UnpackedFloat.neg x.toModel.unpack)) := rfl
  have flip (s : Sign) : (-s == .negative) = !(s == .negative) := by cases s <;> rfl
  rw [unfolded]
  cases unpacked : x.toModel.unpack with
  | notANumber =>
    rw [unpacked] at h
    cases h
  | infinity s =>
    rw [unpacked] at h
    cases h
  | zero s =>
    rw [unpacked] at h
    cases h
    rw [← flip]
    exact decode_pack_zero (-s)
  | finite s n f positive =>
    rw [unpacked] at h
    cases h
    rw [← flip]
    exact decode_pack positive shape

/-! ## Comparisons -/

theorem compare_swap (a b : UnpackedFloat) :
    b.compare a = (a.compare b).map Ordering.swap := by
  have signs (s t : Sign) : compare t s = (compare s t).swap := by
    cases s <;> cases t <;> rfl
  cases a with
  | notANumber => cases b <;> rfl
  | infinity s =>
    cases b with
    | infinity t => exact congrArg some (signs s t)
    | notANumber => cases s <;> rfl
    | zero t => cases s <;> rfl
    | finite t n f hn => cases s <;> cases t <;> rfl
  | zero s =>
    cases b with
    | infinity t => cases t <;> rfl
    | notANumber => rfl
    | zero t => rfl
    | finite t n f hn => cases t <;> rfl
  | finite s m e hm =>
    cases b with
    | infinity t => cases t <;> cases s <;> rfl
    | notANumber => cases s <;> rfl
    | zero t => cases s <;> rfl
    | finite t n f hn =>
      have magnitudes : (compare f e).then (compare n m) =
          ((compare e f).then (compare m n)).swap := by
        rw [Ordering.swap_then, Int.compare_swap, Nat.compare_swap]
      cases s <;> cases t <;> simp [UnpackedFloat.compare, magnitudes]

theorem isFinite_iff {x : Float} :
    x.isFinite = true ↔ ∃ negative m e, decode x = .finite negative m e := by
  rw [decode_eq]
  show x.toModel.unpack.isFinite = true ↔ _
  cases x.toModel.unpack <;> simp [UnpackedFloat.isFinite, Datum.ofUnpacked]

theorem lt_iff {a b : Float} : a < b ↔ a.toModel.unpack.compare b.toModel.unpack = some .lt := by
  have unfolded : a < b ↔ a.toModel.unpack.lt b.toModel.unpack = true := decide_eq_true_iff
  rw [unfolded, UnpackedFloat.lt, beq_iff_eq]

theorem le_iff {a b : Float} :
    a ≤ b ↔ ∃ o, a.toModel.unpack.compare b.toModel.unpack = some o ∧ o.isLE = true := by
  have unfolded : a ≤ b ↔ a.toModel.unpack.le b.toModel.unpack = true := decide_eq_true_iff
  rw [unfolded, UnpackedFloat.le, Option.any_eq_true]

/-- Doubles that are numbers can be compared. -/
theorem exists_compare {a b : UnpackedFloat} (ha : a.isNaN = false) (hb : b.isNaN = false) :
    ∃ o, a.compare b = some o := by
  cases a with
  | notANumber => cases ha
  | infinity s =>
    cases b with
    | notANumber => cases hb
    | _ => cases s <;> exact ⟨_, rfl⟩
  | zero s =>
    cases b with
    | notANumber => cases hb
    | zero t => exact ⟨_, rfl⟩
    | infinity t => cases t <;> exact ⟨_, rfl⟩
    | finite t n f hn => cases t <;> exact ⟨_, rfl⟩
  | finite s m e hm =>
    cases b with
    | notANumber => cases hb
    | zero t => cases s <;> exact ⟨_, rfl⟩
    | infinity t => cases s <;> cases t <;> exact ⟨_, rfl⟩
    | finite t n f hn => cases s <;> cases t <;> exact ⟨_, rfl⟩

/-- Among numbers, what is not less is greater or equal. -/
theorem not_lt_iff_le {a b : Float} (ha : a.isNaN = false) (hb : b.isNaN = false) :
    ¬ a < b ↔ b ≤ a := by
  obtain ⟨o, compared⟩ := exists_compare (a := a.toModel.unpack) (b := b.toModel.unpack) ha hb
  rw [lt_iff, le_iff, compare_swap a.toModel.unpack, compared]
  cases o <;> simp [Ordering.isLE]

theorem isNaN_of_isFinite {x : Float} (h : x.isFinite = true) : x.isNaN = false := by
  change x.toModel.unpack.isFinite = true at h
  show x.toModel.unpack.isNaN = false
  cases unpacked : x.toModel.unpack with
  | notANumber =>
    rw [unpacked] at h
    cases h
  | _ => rfl

theorem unpack_one : (1.0 : Float).toModel.unpack = .finite .positive leadingBit (-52) (by decide) := by
  rfl

/-- Finite doubles from one on. -/
theorem decode_of_one_le {x : Float} (finite : x.isFinite = true) (h : 1.0 ≤ x) :
    ∃ m e, decode x = .finite false m e ∧ leadingBit ≤ m ∧ -52 ≤ e := by
  rw [le_iff, unpack_one] at h
  obtain ⟨o, compared, le⟩ := h
  change x.toModel.unpack.isFinite = true at finite
  obtain ⟨negative, m, e, found⟩ := isFinite_iff.1 finite
  have shape := representable_of_decode found
  rw [decode_eq] at found ⊢
  cases unpacked : x.toModel.unpack with
  | notANumber =>
    rw [unpacked] at finite
    cases finite
  | infinity s =>
    rw [unpacked] at finite
    cases finite
  | zero s =>
    rw [unpacked] at compared
    cases compared
    cases le
  | finite s n f hn =>
    rw [unpacked] at compared found
    cases found
    cases s with
    | negative =>
      cases compared
      cases le
    | positive =>
      refine ⟨m, e, rfl, ?_⟩
      have ordered : ((compare (-52) e).then (compare leadingBit m)).isLE = true := by
        rw [← le]
        congr 1
        exact Option.some.inj compared
      have later : -52 < e ∨ -52 = e ∧ leadingBit ≤ m := by
        rcases lt_trichotomy (-52) e with lt | rfl | gt
        · exact .inl lt
        · exact .inr ⟨rfl, Nat.isLE_compare.1 (by simpa using ordered)⟩
        · simp [compare_gt_iff_gt.2 gt] at ordered
      have normal := shape.normal
      unfold leastExponent at normal
      omega

/-! ## Dyadic numbers -/

/-- The number that a significand and an exponent stand for. -/
def dyadic (m : Nat) (e : Int) : ℚ := m * 2 ^ e

theorem dyadic_mul (m k : Nat) (e : Int) : dyadic (m * Nat.pow 2 k) e = dyadic m (e + k) := by
  unfold dyadic
  rw [zpow_add₀ two_ne_zero, zpow_natCast]
  push_cast [Nat.pow_eq]
  ring

theorem dyadic_le_dyadic {m n : Nat} (h : m ≤ n) (e : Int) : dyadic m e ≤ dyadic n e := by
  unfold dyadic
  gcongr

theorem dyadic_le_of_exponent_le (m : Nat) {e f : Int} (h : e ≤ f) : dyadic m e ≤ dyadic m f := by
  unfold dyadic
  gcongr
  exact one_le_two

/-- The integer part of a dyadic number. -/
def wholePart (m : Nat) (e : Int) : Nat :=
  if 0 ≤ e then m * Nat.pow 2 e.toNat else m / Nat.pow 2 (-e).toNat

theorem wholePart_eq_floor (m : Nat) (e : Int) : wholePart m e = ⌊dyadic m e⌋₊ := by
  unfold wholePart dyadic
  split
  · next h =>
    obtain ⟨k, rfl⟩ := Int.eq_ofNat_of_zero_le h
    rw [zpow_natCast]
    exact_mod_cast (Nat.floor_natCast (R := ℚ) (m * 2 ^ k)).symm
  · next h =>
    obtain ⟨k, rfl⟩ : ∃ k : Nat, e = -k := ⟨(-e).toNat, by omega⟩
    rw [zpow_neg, zpow_natCast, ← div_eq_mul_inv, Int.neg_neg]
    exact_mod_cast (Nat.floor_div_eq_div (K := ℚ) m (2 ^ k)).symm

theorem truncateFloat_of_decode {x : Float} {negative : Bool} {m : Nat} {e : Int}
    (h : decode x = .finite negative m e) :
    truncateFloat x =
      .ok (if negative then -(wholePart m e : Int) else (wholePart m e : Int)) := by
  unfold truncateFloat
  rw [h]
  rfl

theorem isFinite_of_truncateFloat {x : Float} {n : Int} (h : truncateFloat x = .ok n) :
    x.isFinite = true := by
  unfold truncateFloat at h
  cases decoded : decode x with
  | finite negative m e => exact isFinite_iff.2 ⟨negative, m, e, decoded⟩
  | _ =>
    rw [decoded] at h
    cases h

/-! ## Products -/

theorem mantissa_shift (em : ExtendedMantissa) (k : Nat) :
    (em >>> k).mantissa = em.mantissa / Nat.pow 2 k := by
  induction k with
  | zero => exact (Nat.div_one _).symm
  | succ k ih =>
    show (em >>> k).mantissa / 2 = _
    rw [ih, Nat.div_div_eq_div_mul]
    rfl

theorem mantissa_le_rounded (em : ExtendedMantissa) :
    em.mantissa ≤ em.roundedMantissa ∧ em.roundedMantissa ≤ em.mantissa + 1 := by
  obtain ⟨m, half, more⟩ := em
  have even : m % 2 ≤ 1 := by omega
  cases half <;> cases more <;>
    simp only [ExtendedMantissa.roundedMantissa, ExtendedMantissa.accuracy,
      Accuracy.roundToNearestEven] <;> omega

/-- The exponent that a number is rounded to. -/
def roundedExponent (m : Nat) (e : Int) : Int := max (m.log2 + e - 52) leastExponent

theorem targetExponent_eq (m : Nat) (e : Int) :
    Format.binary64.targetExponent (totalExponent m e) = roundedExponent m e := by
  unfold Format.targetExponent totalExponent roundedExponent leastExponent
  show max ((m.log2 : Int) + 1 + e - 53) (-1074) = max ((m.log2 : Int) + e - 52) (-1074)
  omega

theorem shiftToTargetExponent_eq (m : Nat) (e : Int) :
    shiftToTargetExponent Format.binary64 m e .exact =
      (ExtendedMantissa.mk m false false >>> (roundedExponent m e - e).toNat,
        e + (roundedExponent m e - e).toNat) := by
  rw [shiftToTargetExponent, targetExponent_eq]
  rfl

/-- A significand that fits stays as it is. -/
theorem shiftToTargetExponent_of_lt {r : Nat} {e : Int} (fits : r < 2 * leadingBit)
    (least : leastExponent ≤ e) :
    shiftToTargetExponent Format.binary64 r e .exact = (ExtendedMantissa.mk r false false, e) := by
  have log : r.log2 ≤ 52 := by
    by_cases short : r < leadingBit
    · exact (log2_of_short short).le
    · exact (log2_of_normal (by omega) fits).le
  have stays : (roundedExponent r e - e).toNat = 0 := by
    unfold roundedExponent
    omega
  rw [shiftToTargetExponent_eq, stays, Int.natCast_zero, Int.add_zero]
  rfl

/-- A significand that has become too long loses a zero. -/
theorem shiftToTargetExponent_of_carry {e : Int} (least : leastExponent ≤ e) :
    shiftToTargetExponent Format.binary64 (2 * leadingBit) e .exact =
      (ExtendedMantissa.mk leadingBit false false, e + 1) := by
  have log : (2 * leadingBit).log2 = 53 := by
    rw [Nat.log2_eq_iff (by decide)]
    decide
  have carried : (roundedExponent (2 * leadingBit) e - e).toNat = 1 := by
    unfold roundedExponent
    rw [log]
    omega
  rw [shiftToTargetExponent_eq, carried]
  rfl

/-- What a product is rounded from. -/
theorem roundWithAccuracy_eq (s : Sign) {m : Nat} {e : Int} (hm : m ≠ 0)
    (wide : e ≤ roundedExponent m e) :
    ∃ r, m / Nat.pow 2 (roundedExponent m e - e).toNat ≤ r ∧ r ≤ 2 * leadingBit ∧
      (leadingBit ≤ r ∨ roundedExponent m e = leastExponent) ∧
      roundWithAccuracy Format.binary64 s m e .exact =
        if h : r = 0 then .zero s
        else if r < 2 * leadingBit then .finite s r (roundedExponent m e) (Nat.pos_of_ne_zero h)
        else .finite s leadingBit (roundedExponent m e + 1) (by decide) := by
  have least : leastExponent ≤ roundedExponent m e := le_max_right _ _
  have arrives : e + ((roundedExponent m e - e).toNat : Int) = roundedExponent m e := by omega
  generalize hk : (roundedExponent m e - e).toNat = k at *
  have first := shiftToTargetExponent_eq m e
  rw [hk, arrives] at first
  generalize hem : ExtendedMantissa.mk m false false >>> k = em at first
  have quotient : em.mantissa = m / Nat.pow 2 k := by
    rw [← hem]
    exact mantissa_shift _ k
  obtain ⟨low, high⟩ := mantissa_le_rounded em
  rw [quotient] at low high
  have logs : m.log2 ≤ 52 + k := by
    unfold roundedExponent at arrives
    omega
  have power : 0 < Nat.pow 2 k := Nat.pow_pos two_pos
  have short : m / Nat.pow 2 k < 2 * leadingBit := by
    apply Nat.div_lt_of_lt_mul
    have below : m < Nat.pow 2 (m.log2 + 1) := Nat.lt_log2_self
    have grown : Nat.pow 2 (m.log2 + 1) ≤ Nat.pow 2 (k + 53) :=
      Nat.pow_le_pow_right two_pos (by omega)
    have split : Nat.pow 2 (k + 53) = Nat.pow 2 k * (2 * leadingBit) := Nat.pow_add 2 k 53
    omega
  have long : leadingBit ≤ m / Nat.pow 2 k ∨ roundedExponent m e = leastExponent := by
    by_cases lowest : roundedExponent m e = leastExponent
    · exact .inr lowest
    · refine .inl ((Nat.le_div_iff_mul_le power).2 ?_)
      have logs : m.log2 = 52 + k := by
        unfold roundedExponent at *
        omega
      have above : Nat.pow 2 m.log2 ≤ m := Nat.log2_self_le hm
      have split : Nat.pow 2 (52 + k) = leadingBit * Nat.pow 2 k := Nat.pow_add 2 52 k
      rw [logs] at above
      omega
  refine ⟨em.roundedMantissa, low, by omega, long.imp_left low.trans', ?_⟩
  rw [roundWithAccuracy, first]
  by_cases fits : em.roundedMantissa < 2 * leadingBit
  · simp only [shiftToTargetExponent_of_lt fits least, if_pos fits]
  · have carry : em.roundedMantissa = 2 * leadingBit := by omega
    simp only [carry, shiftToTargetExponent_of_carry least]
    rfl

/-- **Products are rounded to a double or to infinity**, and down by less than a unit. -/
theorem decode_roundWithAccuracy (s : Sign) {m : Nat} {e : Int} (hm : m ≠ 0)
    (wide : e ≤ roundedExponent m e) :
    ∃ r, m / Nat.pow 2 (roundedExponent m e - e).toNat ≤ r ∧
      (decode (.ofModel (.pack (roundWithAccuracy Format.binary64 s m e .exact))) =
          .infinite (s == .negative) ∨
        ∃ n f, decode (.ofModel (.pack (roundWithAccuracy Format.binary64 s m e .exact))) =
          .finite (s == .negative) n f ∧ dyadic n f = dyadic r (roundedExponent m e)) := by
  obtain ⟨r, low, high, long, rounded⟩ := roundWithAccuracy_eq s hm wide
  have least : leastExponent ≤ roundedExponent m e := le_max_right _ _
  refine ⟨r, low, ?_⟩
  rw [rounded]
  by_cases zero : r = 0
  · right
    refine ⟨0, leastExponent, ?_, ?_⟩
    · rw [dif_pos zero, decode_pack_zero]
    · simp [dyadic, zero]
  rw [dif_neg zero]
  by_cases fits : r < 2 * leadingBit
  · rw [if_pos fits]
    by_cases large : greatestExponent < roundedExponent m e
    · exact .inl (decode_pack_of_large _ large)
    · exact .inr ⟨r, _, decode_pack _ ⟨fits, least, by omega, long⟩, rfl⟩
  · have carry : r = leadingBit * Nat.pow 2 1 := by
      show r = leadingBit * 2
      omega
    have same : dyadic leadingBit (roundedExponent m e + 1) = dyadic r (roundedExponent m e) := by
      rw [carry, dyadic_mul]
      rfl
    rw [if_neg fits]
    by_cases large : greatestExponent < roundedExponent m e + 1
    · exact .inl (decode_pack_of_large _ large)
    · refine .inr ⟨leadingBit, _, decode_pack _ ⟨by decide, ?_, by omega, .inl le_rfl⟩, same⟩
      omega

theorem le_of_dyadic_le {m n : Nat} {e : Int} (h : dyadic m e ≤ dyadic n e) : m ≤ n := by
  have unit : (0 : ℚ) < 2 ^ e := zpow_pos two_pos e
  exact_mod_cast le_of_mul_le_mul_right h unit

/-- **Rounding does not fall below a number of 53 digits** that was not above. -/
theorem dyadic_le_rounded {t p r : Nat} {g q : Int} (below : dyadic t g ≤ dyadic p q)
    (ht : t ≤ 2 * leadingBit) (hg : leastExponent ≤ g) (wide : q ≤ roundedExponent p q)
    (hr : p / Nat.pow 2 (roundedExponent p q - q).toNat ≤ r) :
    dyadic t g ≤ dyadic r (roundedExponent p q) := by
  generalize hR : roundedExponent p q = R at *
  generalize hk : (R - q).toNat = k at hr
  have power : 0 < Nat.pow 2 k := Nat.pow_pos two_pos
  by_cases coarse : R ≤ g
  · -- the number lies on the grid that is rounded to
    obtain ⟨j, rfl⟩ : ∃ j : Nat, g = R + j := ⟨(g - R).toNat, by omega⟩
    rw [← dyadic_mul]
    apply dyadic_le_dyadic
    refine le_trans ?_ hr
    rw [Nat.le_div_iff_mul_le power]
    apply le_of_dyadic_le (e := q)
    calc dyadic (t * Nat.pow 2 j * Nat.pow 2 k) q = dyadic t (q + k + j) := by
          rw [dyadic_mul, dyadic_mul]
      _ = dyadic t (R + j) := by
          congr 1
          omega
      _ ≤ dyadic p q := below
  · -- what is rounded has 53 digits, more than the number has on that grid
    have logs : p.log2 = 52 + k := by
      unfold roundedExponent at hR
      omega
    have nonzero : p ≠ 0 := by
      rintro rfl
      rw [Nat.log2_zero] at logs
      omega
    have long : leadingBit ≤ r := by
      refine le_trans ?_ hr
      rw [Nat.le_div_iff_mul_le power]
      have above : Nat.pow 2 p.log2 ≤ p := Nat.log2_self_le nonzero
      have split : Nat.pow 2 (52 + k) = leadingBit * Nat.pow 2 k := Nat.pow_add 2 52 k
      rw [logs] at above
      omega
    calc dyadic t g ≤ dyadic (leadingBit * Nat.pow 2 1) g := dyadic_le_dyadic (by
          show t ≤ leadingBit * 2
          omega) g
      _ = dyadic leadingBit (g + 1) := dyadic_mul leadingBit 1 g
      _ ≤ dyadic leadingBit R := dyadic_le_of_exponent_le leadingBit (by omega)
      _ ≤ dyadic r R := dyadic_le_dyadic long R

/-- A factor that is at least one makes a number larger, before it is rounded. -/
theorem dyadic_le_product {m : Nat} {d : Int} (hm : leadingBit ≤ m) (hd : -52 ≤ d) (n : Nat)
    (e : Int) : dyadic n e ≤ dyadic (m * n) (d + e) :=
  calc dyadic n e ≤ dyadic n (d + e + (52 : Nat)) :=
        dyadic_le_of_exponent_le n (by omega)
    _ = dyadic (n * leadingBit) (d + e) := (dyadic_mul n 52 (d + e)).symm
    _ ≤ dyadic (m * n) (d + e) := by
        rw [Nat.mul_comm m]
        exact dyadic_le_dyadic (Nat.mul_le_mul_left n hm) (d + e)

/-- An unpacked double that is finite and not negative. -/
theorem unpacked_cases {u : UnpackedFloat} {m : Nat} {e : Int}
    (h : Datum.ofUnpacked u = .finite false m e) :
    (u = .zero .positive ∧ m = 0) ∨ ∃ positive, u = .finite .positive m e positive := by
  cases u with
  | notANumber => cases h
  | infinity s => cases h
  | zero s =>
    cases s with
    | negative => cases h
    | positive =>
      cases h
      exact .inl ⟨rfl, rfl⟩
  | finite s n f positive =>
    cases s with
    | negative => cases h
    | positive =>
      cases h
      exact .inr ⟨positive, rfl⟩

/-- A finite product has finite factors. -/
theorem isFinite_of_isFinite_mul {f y : Float} (product : (f * y).isFinite = true) :
    f.isFinite = true ∧ y.isFinite = true := by
  have infinite (s : Sign) : (Float.ofModel (.pack (.infinity s))).isFinite = false := by
    cases s <;> decide +kernel
  have none : (Float.ofModel (.pack .notANumber)).isFinite = false := by decide +kernel
  change (Float.ofModel (.pack (UnpackedFloat.mul Format.binary64 f.toModel.unpack
    y.toModel.unpack))).isFinite = true at product
  show f.toModel.unpack.isFinite = true ∧ y.toModel.unpack.isFinite = true
  generalize f.toModel.unpack = u at *
  generalize y.toModel.unpack = v at *
  cases u <;> cases v <;>
    simp [UnpackedFloat.mul, UnpackedFloat.isFinite, infinite, none] at product ⊢

/-- **A finite product is not below a number of 53 digits** that the exact product is not below. -/
theorem decode_mul {f y : Float} {m n t : Nat} {d e g : Int} (hf : decode f = .finite false m d)
    (hm : leadingBit ≤ m) (hy : decode y = .finite false n e) (product : (f * y).isFinite = true)
    (ht : t ≤ 2 * leadingBit) (hg : leastExponent ≤ g)
    (below : dyadic t g ≤ dyadic (m * n) (d + e)) :
    ∃ n' e', decode (f * y) = .finite false n' e' ∧ dyadic t g ≤ dyadic n' e' := by
  have unfolded : f * y = .ofModel (.pack
      (UnpackedFloat.mul Format.binary64 f.toModel.unpack y.toModel.unpack)) := rfl
  rw [decode_eq] at hf hy
  rcases unpacked_cases hf with ⟨-, zero⟩ | ⟨hpos, hfu⟩
  · rw [zero] at hm
    exact absurd hm (by decide)
  rw [hfu] at unfolded
  rcases unpacked_cases hy with ⟨hyu, rfl⟩ | ⟨hnpos, hyu⟩
  · rw [hyu] at unfolded
    rw [unfolded]
    refine ⟨0, leastExponent, decode_pack_zero .positive, below.trans ?_⟩
    simp [dyadic]
  · rw [hyu] at unfolded
    have nonzero : m * n ≠ 0 := Nat.mul_ne_zero hpos.ne' hnpos.ne'
    have logs : 52 ≤ (m * n).log2 := by
      rw [Nat.le_log2 nonzero]
      exact hm.trans (Nat.le_mul_of_pos_right m hnpos)
    have wide : d + e ≤ roundedExponent (m * n) (d + e) := by
      unfold roundedExponent
      omega
    obtain ⟨r, low, infinite | ⟨n', e', decoded, same⟩⟩ :=
      decode_roundWithAccuracy .positive nonzero wide
    · obtain ⟨_, _, _, found⟩ := isFinite_iff.1 product
      rw [unfolded] at found
      cases found.symm.trans infinite
    · refine ⟨n', e', ?_, ?_⟩
      · rw [unfolded]
        exact decoded
      · rw [same]
        exact dyadic_le_rounded below ht hg wide low

/-- **A factor from one on does not make a length smaller.** -/
theorem wholePart_le_product {f y : Float} (finite : f.isFinite = true) (one_le : 1.0 ≤ f) {n : Nat}
    {e : Int} (hy : decode y = .finite false n e) (product : (f * y).isFinite = true) :
    ∃ n' e', decode (f * y) = .finite false n' e' ∧ wholePart n e ≤ wholePart n' e' := by
  obtain ⟨m, d, hf, hm, hd⟩ := decode_of_one_le finite one_le
  obtain ⟨lt, least, -, -⟩ := representable_of_decode hy
  obtain ⟨n', e', decoded, le⟩ :=
    decode_mul hf hm hy product lt.le least (dyadic_le_product hm hd n e)
  refine ⟨n', e', decoded, ?_⟩
  rw [wholePart_eq_floor, wholePart_eq_floor]
  exact Nat.floor_le_floor le

end SymSolve.Decimal
