import Mathlib.Algebra.Order.Field.Basic
import Mathlib.Data.Fintype.Sum
import Mathlib.Data.Matrix.Block
import Mathlib.LinearAlgebra.Matrix.NonsingularInverse
import Mathlib.Tactic.FieldSimp
import Mathlib.Tactic.LinearCombination
import Mathlib.Tactic.Linarith
import Mathlib.LinearAlgebra.Matrix.Notation

/-!
# Signs of symmetric matrices

`Signs M k` says that `M` is congruent to a diagonal matrix without zeros, `k` of whose entries are
negative. It is a notion for every ordered field. A symmetric matrix with two rows is diagonalized by completing the square
(`congruent_of_first`), or without a first entry as a difference of two squares
(`congruent_of_zero`).
-/

namespace SymSolve

open Matrix

variable {K : Type} [Field K]
variable {ι κ : Type} [Fintype ι] [DecidableEq ι] [Fintype κ] [DecidableEq κ]

/-! ## Congruence -/

/-- A change of basis takes one symmetric form to the other. -/
def Congruent (M N : Matrix ι ι K) : Prop := ∃ P Q : Matrix ι ι K, P * Q = 1 ∧ M = P * N * Pᵀ

namespace Congruent

variable {L M N : Matrix ι ι K}

theorem refl (M : Matrix ι ι K) : Congruent M M := ⟨1, 1, one_mul 1, by simp⟩

theorem symm (h : Congruent M N) : Congruent N M := by
  obtain ⟨P, Q, inverse, rfl⟩ := h
  have inverse' : Q * P = 1 := mul_eq_one_comm.1 inverse
  refine ⟨Q, P, inverse', ?_⟩
  have cancel : Pᵀ * Qᵀ = 1 := by rw [← transpose_mul, inverse', transpose_one]
  calc N = (Q * P) * N * (Pᵀ * Qᵀ) := by rw [inverse', cancel, one_mul, mul_one]
    _ = Q * (P * N * Pᵀ) * Qᵀ := by simp only [mul_assoc]

theorem trans (h : Congruent L M) (h' : Congruent M N) : Congruent L N := by
  obtain ⟨P, Q, inverse, rfl⟩ := h
  obtain ⟨P', Q', inverse', rfl⟩ := h'
  refine ⟨P * P', Q' * Q, ?_, by simp only [transpose_mul, mul_assoc]⟩
  calc P * P' * (Q' * Q) = P * (P' * Q') * Q := by simp only [mul_assoc]
    _ = 1 := by rw [inverse', mul_one, inverse]

/-- The indices may be renamed. -/
theorem submatrix (h : Congruent M N) (e : κ ≃ ι) :
    Congruent (M.submatrix e e) (N.submatrix e e) := by
  obtain ⟨P, Q, inverse, rfl⟩ := h
  refine ⟨P.submatrix e e, Q.submatrix e e, ?_, ?_⟩
  · rw [submatrix_mul_equiv, inverse, submatrix_one_equiv]
  · rw [transpose_submatrix, submatrix_mul_equiv, submatrix_mul_equiv]

/-- Direct sums. -/
theorem fromBlocks {M' N' : Matrix κ κ K} (h : Congruent M N) (h' : Congruent M' N') :
    Congruent (fromBlocks M 0 0 M') (Matrix.fromBlocks N 0 0 N') := by
  obtain ⟨P, Q, inverse, rfl⟩ := h
  obtain ⟨P', Q', inverse', rfl⟩ := h'
  refine ⟨Matrix.fromBlocks P 0 0 P', Matrix.fromBlocks Q 0 0 Q', ?_, ?_⟩
  · simp [fromBlocks_multiply, inverse, inverse']
  · simp [fromBlocks_multiply, fromBlocks_transpose]

theorem map {F : Type} [Field F] (h : Congruent M N) (f : K →+* F) :
    Congruent (M.map f) (N.map f) := by
  obtain ⟨P, Q, inverse, rfl⟩ := h
  refine ⟨P.map f, Q.map f, ?_, ?_⟩
  · rw [← Matrix.map_mul, inverse, Matrix.map_one _ f.map_zero f.map_one]
  · rw [Matrix.map_mul, Matrix.map_mul, transpose_map]

end Congruent

/-! ## Signs -/

variable [LinearOrder K]

/-- The matrix is nonsingular, and its form has that many negative signs. -/
def Signs (M : Matrix ι ι K) (negative : Nat) : Prop :=
  ∃ w : ι → K, Congruent M (diagonal w) ∧ (∀ i, w i ≠ 0) ∧
    Fintype.card {i // w i < 0} = negative

theorem Signs.det_ne_zero {M : Matrix ι ι K} {k : Nat} (h : Signs M k) : M.det ≠ 0 := by
  obtain ⟨w, ⟨P, Q, inverse, rfl⟩, nonzero, -⟩ := h
  have regular : P.det ≠ 0 := fun zero => by
    simpa [zero] using congrArg det inverse
  rw [det_mul, det_mul, det_transpose, det_diagonal]
  exact mul_ne_zero (mul_ne_zero regular (Finset.prod_ne_zero_iff.2 fun i _ => nonzero i)) regular

/-! ## Matrices with one row and with two -/

theorem transpose_two {α : Type} (a b c d : α) : !![a, b; c, d]ᵀ = !![a, c; b, d] := by
  ext i j
  fin_cases i <;> fin_cases j <;> rfl

omit [LinearOrder K] in
/-- The square of the first row is completed. -/
theorem congruent_of_first {a : K} (b c : K) (first : a ≠ 0) :
    Congruent !![a, b; b, c] (diagonal ![a, (a * c - b * b) / a]) := by
  refine ⟨!![1, 0; b / a, 1], !![1, 0; -(b / a), 1], ?_, ?_⟩
  · rw [mul_fin_two, one_fin_two]
    simp
  · rw [diagonal_vec2, transpose_two, mul_fin_two, mul_fin_two]
    congr! <;> field_simp <;> ring

variable [IsStrictOrderedRing K]

/-- Without a first entry the form is a difference of two squares. -/
theorem congruent_of_zero {b : K} (c : K) (coupled : b ≠ 0) :
    Congruent !![0, b; b, c] (diagonal ![1 / 4, -(1 / 4)]) := by
  refine ⟨!![2 * b, -2 * b; 1 + c, 1 - c],
    !![(1 - c) / (4 * b), 1 / 2; -(1 + c) / (4 * b), 1 / 2], ?_, ?_⟩
  · rw [mul_fin_two, one_fin_two]
    congr! <;> field_simp <;> ring
  · rw [diagonal_vec2, transpose_two, mul_fin_two, mul_fin_two]
    congr! <;> field_simp <;> ring

end SymSolve
