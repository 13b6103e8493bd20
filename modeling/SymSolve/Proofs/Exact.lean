import Mathlib.Algebra.Order.Field.Basic
import Mathlib.Algebra.Order.Floor.Ring
import Mathlib.Data.Nat.Sqrt
import Mathlib.Data.Rat.Floor
import SymSolve.Engine.Buffer

/-!
# Exact scalars

In an ordered field whose elements have integer parts nothing is rounded, every scalar is finite
and equal to itself, and comparisons are what they are called. Over such a field the algorithms of
this library are the exact ones.

The machine constant keeps its value: it is a number like any other.
-/

namespace SymSolve

variable {K : Type} [Field K] [LinearOrder K] [FloorRing K]

/-- Exact arithmetic. -/
instance instScalarExact : Scalar K where
  toAdd := inferInstance
  toSub := inferInstance
  toMul := inferInstance
  toDiv := inferInstance
  toNeg := inferInstance
  toZero := inferInstance
  toOne := inferInstance
  lt a b := decide (a < b)
  le a b := decide (a ≤ b)
  eq a b := decide (a = b)
  abs a := |a|
  isFinite _ := true
  ofDecimal mantissa exponent := mantissa * 10 ^ exponent
  epsilon := 1 / 4503599627370496
  truncate a := .ok (if 0 ≤ a then ⌊a⌋ else ⌈a⌉)

attribute [instance (50)] Scalar.toAdd Scalar.toSub Scalar.toMul Scalar.toDiv Scalar.toNeg
  Scalar.toZero Scalar.toOne

namespace Scalar

@[simp] theorem lt_iff (a b : K) : Scalar.lt a b = true ↔ a < b := decide_eq_true_iff

@[simp] theorem le_iff (a b : K) : Scalar.le a b = true ↔ a ≤ b := decide_eq_true_iff

@[simp] theorem eq_iff (a b : K) : Scalar.eq a b = true ↔ a = b := decide_eq_true_iff

@[simp] theorem lt_eq_false_iff (a b : K) : Scalar.lt a b = false ↔ b ≤ a :=
  decide_eq_false_iff_not.trans not_lt

@[simp] theorem le_eq_false_iff (a b : K) : Scalar.le a b = false ↔ b < a :=
  decide_eq_false_iff_not.trans not_le

@[simp] theorem eq_eq_false_iff (a b : K) : Scalar.eq a b = false ↔ a ≠ b :=
  decide_eq_false_iff_not

@[simp] theorem abs_eq (a : K) : Scalar.abs a = |a| := rfl

@[simp] theorem isFinite_eq (a : K) : Scalar.isFinite a = true := rfl

@[simp] theorem isNaN_eq (a : K) : Scalar.isNaN a = false := by simp [Scalar.isNaN]

@[simp] theorem ofInt_eq (i : Int) : (Scalar.ofInt i : K) = i := by
  show (i : K) * 10 ^ (0 : Int) = i
  rw [zpow_zero, mul_one]

@[simp] theorem larger_eq (a b : K) : Scalar.larger a b = max a b := by
  simp [Scalar.larger, max_def_lt]

@[simp] theorem smaller_eq (a b : K) : Scalar.smaller a b = min a b := by
  simp only [Scalar.smaller, lt_iff, ← not_le, ite_not, min_def]

@[simp] theorem peak_eq (a b : K) : Scalar.peak a b = max a b := by simp [Scalar.peak]

@[simp] theorem trough_eq (a b : K) : Scalar.trough a b = min a b := by simp [Scalar.trough]

/-- The smallest of a list is the one of the library. -/
theorem minimum?_eq (as : List K) : Scalar.minimum? as = as.min? := by
  have same : (Scalar.trough : K → K → K) = min := by
    funext a b
    exact trough_eq a b
  cases as with
  | nil => rfl
  | cons a as => simp only [Scalar.minimum?, List.min?, same]

theorem foldl_peak_le_iff (a : K) (as : List K) (b : K) :
    as.foldl Scalar.peak a ≤ b ↔ a ≤ b ∧ ∀ c ∈ as, c ≤ b := by
  induction as generalizing a with
  | nil => simp
  | cons c as ih => simp [ih, and_assoc]

theorem maxAbs_nonneg [IsStrictOrderedRing K] (as : List K) : 0 ≤ Scalar.maxAbs as := by
  cases as with
  | nil => exact le_refl 0
  | cons a as =>
    exact (abs_nonneg a).trans ((foldl_peak_le_iff |a| (as.map Scalar.abs) _).1 le_rfl).1

theorem maxAbs_le_iff (as : List K) {b : K} (nonneg : 0 ≤ b) :
    Scalar.maxAbs as ≤ b ↔ ∀ a ∈ as, |a| ≤ b := by
  cases as with
  | nil => simpa [Scalar.maxAbs, Scalar.maximum?] using nonneg
  | cons a as =>
    refine (foldl_peak_le_iff |a| (as.map Scalar.abs) b).trans ?_
    simp

theorem truncate_of_nonneg {a : K} (h : 0 ≤ a) : Scalar.truncate a = .ok ⌊a⌋ :=
  congrArg Except.ok (if_pos h)

end Scalar

/-- A length grown by a factor is the integer part of the product. -/
theorem scaledLength_exact [IsStrictOrderedRing K] {factor : K} {base : Int} (hf : 0 ≤ factor)
    (hb : 0 ≤ base) : scaledLength factor base = .ok ⌊factor * base⌋ := by
  have hn : (0 : K) ≤ factor * base := mul_nonneg hf (Int.cast_nonneg hb)
  simp only [scaledLength, Scalar.isFinite_eq, if_true, Scalar.ofInt_eq]
  exact Scalar.truncate_of_nonneg hn

/-! ## Roots and powers

An exact field need not have them. What is proved about an algorithm that takes powers is proved
for all functions in their place. -/

/-- Functions that stand for roots and powers. -/
class Powers (K : Type) where
  sqrt : K → K
  pow : K → K → K

instance [Powers K] : RealScalar K where
  sqrt := Powers.sqrt
  pow := Powers.pow

/-- The root of `a` is what it is called: the number with the square `a` that is not negative. -/
structure ExactRoot [Powers K] (a : K) : Prop where
  nonneg : 0 ≤ RealScalar.sqrt a
  square : RealScalar.sqrt a * RealScalar.sqrt a = a

/-- Roots of squares and whole powers are exact. -/
instance : Powers ℚ where
  sqrt a := Nat.sqrt a.num.natAbs / Nat.sqrt a.den
  pow a b := a ^ ⌊b⌋

instance : Printable ℚ where
  scientific _ a := toString a
  general _ a := toString a
  exact a := toString a

end SymSolve
