import Mathlib.Data.Matrix.ColumnRowPartitioned
import Mathlib.LinearAlgebra.Matrix.Nondegenerate
import SymSolve.Proofs.Ldl.Sylvester

/-!
# Saddle points

The matrix `[[1, Jᵀ], [J, 0]]`.

**Theorem (`saddle_solution_least`).** If the matrix is nonsingular, then the second half of a solution
with the right-hand side `(-g, 0)` is the only place where `|g + Jᵀ y|` is least (`misfit`).

**Theorem (`saddle_isGreatest`).** If the matrix is nonsingular, then the largest dimension of a subspace
on which its form is negative definite is the number of rows of `J`: the form is negative definite on
the vectors `(-Jᵀ v, v)`, and positive definite on the vectors `(u, 0)`, which leave no room for more.

Both rest on `Jᵀ` taking no vector to zero but zero.
-/

namespace SymSolve

open Matrix

variable {K : Type} [Field K] {ι κ : Type} [Fintype ι] [DecidableEq ι] [Fintype κ] [DecidableEq κ]
variable {J : Matrix κ ι K}

/-- The matrix with an identity block, `J` and its mirror image, and a zero block. -/
def saddle (J : Matrix κ ι K) : Matrix (ι ⊕ κ) (ι ⊕ κ) K := fromBlocks 1 Jᵀ J 0

omit [DecidableEq κ] in
theorem saddle_mulVec (J : Matrix κ ι K) (u : ι → K) (v : κ → K) :
    saddle J *ᵥ Sum.elim u v = Sum.elim (u + Jᵀ *ᵥ v) (J *ᵥ u) := by
  rw [saddle, fromBlocks_mulVec]
  simp

theorem transpose_mulVec_ne_zero (regular : (saddle J).det ≠ 0) {v : κ → K} (nonzero : v ≠ 0) :
    Jᵀ *ᵥ v ≠ 0 := by
  intro zero
  have image : saddle J *ᵥ Sum.elim 0 v = 0 := by
    rw [saddle_mulVec, zero, add_zero, mulVec_zero]
    exact Sum.elim_zero_zero
  have all := eq_zero_of_mulVec_eq_zero regular image
  apply nonzero
  funext i
  exact congrFun all (.inr i)

/-- The rows of `J` are independent. -/
theorem rank_of_saddle (regular : (saddle J).det ≠ 0) : J.rank = Fintype.card κ := by
  have apart : Function.Injective Jᵀ.mulVecLin := by
    rw [← LinearMap.ker_eq_bot]
    apply LinearMap.ker_eq_bot'.2
    intro v zero
    by_contra nonzero
    exact transpose_mulVec_ne_zero regular nonzero zero
  rw [← rank_transpose, Matrix.rank, LinearMap.finrank_range_of_inj apart,
    Module.finrank_fintype_fun_eq_card]

omit [DecidableEq ι] [DecidableEq κ] in
/-- `Jᵀ` is the adjoint of `J`. -/
theorem dotProduct_transpose_mulVec (J : Matrix κ ι K) (u : ι → K) (v : κ → K) :
    u ⬝ᵥ Jᵀ *ᵥ v = (J *ᵥ u) ⬝ᵥ v := by
  rw [dotProduct_mulVec, vecMul_transpose]

variable [LinearOrder K] [IsStrictOrderedRing K]

omit [DecidableEq ι] in
theorem dotProduct_self_pos {x : ι → K} (nonzero : x ≠ 0) : 0 < x ⬝ᵥ x := by
  have squares : 0 ≤ x ⬝ᵥ x := Finset.sum_nonneg fun i _ => mul_self_nonneg (x i)
  exact lt_of_le_of_ne squares fun zero => nonzero (dotProduct_self_eq_zero.1 zero.symm)

/-! ## The minimum -/

/-- The squared norm of `g + Jᵀ y`. -/
def misfit (J : Matrix κ ι K) (g : ι → K) (y : κ → K) : K := (g + Jᵀ *ᵥ y) ⬝ᵥ (g + Jᵀ *ᵥ y)

/-- **The minimum** of the misfit is at the second half of a solution, and nowhere else. -/
theorem saddle_solution_least (regular : (saddle J).det ≠ 0) {g w : ι → K} {y : κ → K}
    (solves : saddle J *ᵥ Sum.elim w y = Sum.elim (-g) 0) {z : κ → K} (other : z ≠ y) :
    misfit J g y < misfit J g z := by
  rw [saddle_mulVec] at solves
  have upper : w + Jᵀ *ᵥ y = -g := congrArg (· ∘ Sum.inl) solves
  have lower : J *ᵥ w = 0 := congrArg (· ∘ Sum.inr) solves
  have apart := transpose_mulVec_ne_zero regular (sub_ne_zero.2 other)
  -- the residual at `z` goes from the one at `y` at a right angle
  have crossed : w ⬝ᵥ Jᵀ *ᵥ (z - y) = 0 := by
    rw [dotProduct_transpose_mulVec, lower, zero_dotProduct]
  have here : g + Jᵀ *ᵥ y = -w := by
    rw [← neg_neg g, ← upper]
    abel
  have there : g + Jᵀ *ᵥ z = -w + Jᵀ *ᵥ (z - y) := by
    rw [← here, mulVec_sub]
    abel
  have positive := dotProduct_self_pos apart
  unfold misfit
  rw [here, there]
  simp only [add_dotProduct, dotProduct_add, neg_dotProduct, dotProduct_neg, crossed,
    dotProduct_comm _ w]
  linarith

/-! ## The inertia -/

omit [DecidableEq κ] [LinearOrder K] [IsStrictOrderedRing K] in
/-- The value of the form. -/
theorem saddle_form (J : Matrix κ ι K) (u : ι → K) (v : κ → K) :
    Sum.elim u v ⬝ᵥ saddle J *ᵥ Sum.elim u v = u ⬝ᵥ u + 2 * ((J *ᵥ u) ⬝ᵥ v) := by
  rw [saddle_mulVec, sumElim_dotProduct_sumElim, dotProduct_add, dotProduct_transpose_mulVec,
    dotProduct_comm v]
  ring

theorem negativeOn_saddle (regular : (saddle J).det ≠ 0) :
    NegativeOn (saddle J) (Fintype.card κ) := by
  let graph := (fromRows (-Jᵀ) (1 : Matrix κ κ K)).mulVecLin
  have image (v : κ → K) : graph v = Sum.elim (-(Jᵀ *ᵥ v)) v := by
    simp only [graph, mulVecLin_apply, fromRows_mulVec, neg_mulVec, one_mulVec]
  have apart : Function.Injective graph := by
    intro v v' same
    rw [image, image] at same
    funext i
    exact congrFun same (.inr i)
  refine ⟨LinearMap.range graph, ?_, ?_⟩
  · rw [LinearMap.finrank_range_of_inj apart, Module.finrank_fintype_fun_eq_card]
  · rintro - ⟨v, rfl⟩ nonzero
    have nonzero' : v ≠ 0 := by
      rintro rfl
      exact nonzero (map_zero graph)
    have positive := dotProduct_self_pos (transpose_mulVec_ne_zero regular nonzero')
    have crossed : (J *ᵥ -(Jᵀ *ᵥ v)) ⬝ᵥ v = -((Jᵀ *ᵥ v) ⬝ᵥ (Jᵀ *ᵥ v)) := by
      rw [← dotProduct_transpose_mulVec, neg_dotProduct]
    rw [image, saddle_form, crossed, neg_dotProduct_neg]
    linarith

omit [DecidableEq κ] in
theorem card_le_of_negativeOn {d : Nat} (h : NegativeOn (saddle J) d) : d ≤ Fintype.card κ := by
  obtain ⟨V, rfl, negative⟩ := h
  let flat := (fromRows (1 : Matrix ι ι K) (0 : Matrix κ ι K)).mulVecLin
  have image (u : ι → K) : flat u = Sum.elim u 0 := by
    simp only [flat, mulVecLin_apply, fromRows_mulVec, one_mulVec, zero_mulVec]
  have apart : Function.Injective flat := by
    intro u u' same
    rw [image, image] at same
    funext i
    exact congrFun same (.inl i)
  have disjoint : Disjoint V (LinearMap.range flat) := by
    rw [Submodule.disjoint_def]
    rintro - member ⟨u, rfl⟩
    by_contra nonzero
    have less := negative _ member nonzero
    rw [image, saddle_form, dotProduct_zero, mul_zero, add_zero] at less
    exact absurd less (not_lt.2 (Finset.sum_nonneg fun i _ => mul_self_nonneg (u i)))
  have room := Submodule.finrank_add_finrank_le_of_disjoint disjoint
  rw [LinearMap.finrank_range_of_inj apart, Module.finrank_fintype_fun_eq_card,
    Module.finrank_fintype_fun_eq_card, Fintype.card_sum] at room
  omega

/-- **The inertia** of a nonsingular saddle point is fixed by the shape of `J`. -/
theorem saddle_isGreatest (regular : (saddle J).det ≠ 0) :
    IsGreatest {d | NegativeOn (saddle J) d} (Fintype.card κ) :=
  ⟨negativeOn_saddle regular, fun _ => card_le_of_negativeOn⟩

end SymSolve
