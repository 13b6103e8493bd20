import Mathlib.LinearAlgebra.Matrix.Rank
import Mathlib.LinearAlgebra.QuadraticForm.Signature
import SymSolve.Ldl.Inertia
import SymSolve.Proofs.Ldl.Signs

/-!
# Sylvester's law of inertia

`HasInertia M p` says that `M` is congruent to a diagonal matrix with as many negative entries and as
many zeros as `p` counts.

**Theorem (`HasInertia.unique`).** A matrix has only one inertia.

**Theorem (`HasInertia.isGreatest`).** The negative entries count the dimension of a largest subspace
on which the form of the matrix is negative definite.

Both are about forms: congruent matrices have equivalent forms, and that of a diagonal matrix is a
weighted sum of squares, whose signature is known.

`HasInertiaUpTo M t p` counts numbers of magnitude at most `t` as zeros: the entries below `-t` are the
negative ones of `M + t`, and those that are not above `t` are the ones of `M - t` that are not positive.
-/

namespace SymSolve

open Matrix QuadraticMap

variable {K : Type} [Field K]
variable {ι κ : Type} [Fintype ι] [DecidableEq ι] [Fintype κ] [DecidableEq κ]

/-! ## Forms -/

theorem toQuadraticForm'_eq (M : Matrix ι ι K) (x : ι → K) :
    M.toQuadraticForm' x = x ⬝ᵥ M *ᵥ x :=
  toLinearMap₂'_apply' M x x

theorem toQuadraticForm'_diagonal (w : ι → K) :
    (diagonal w).toQuadraticForm' = weightedSumSquares K w := by
  ext x
  rw [toQuadraticForm'_eq, weightedSumSquares_apply, dotProduct]
  refine Finset.sum_congr rfl fun i _ => ?_
  rw [mulVec_diagonal, smul_eq_mul]
  ring

theorem Congruent.equivalent {M N : Matrix ι ι K} (h : Congruent M N) :
    Equivalent M.toQuadraticForm' N.toQuadraticForm' := by
  obtain ⟨P, Q, inverse, same⟩ := h
  have inverse' : Pᵀ * Qᵀ = 1 := by
    rw [← transpose_mul, mul_eq_one_comm.1 inverse, transpose_one]
  refine ⟨{ Matrix.toLin'OfInv (mul_eq_one_comm.1 inverse') inverse' with map_app' := fun x => ?_ }⟩
  show N.toQuadraticForm' (Pᵀ *ᵥ x) = M.toQuadraticForm' x
  rw [toQuadraticForm'_eq, toQuadraticForm'_eq, same, ← mulVec_mulVec, ← mulVec_mulVec,
    dotProduct_mulVec x, mulVec_transpose]

variable [LinearOrder K]

/-- On a subspace of that dimension the form of `M` is negative definite. -/
def NegativeOn (M : Matrix ι ι K) (d : Nat) : Prop :=
  ∃ V : Submodule K (ι → K), Module.finrank K V = d ∧ ∀ x ∈ V, x ≠ 0 → x ⬝ᵥ M *ᵥ x < 0

omit [DecidableEq ι] [DecidableEq κ] in
theorem NegativeOn.submatrix {M : Matrix ι ι K} {d : Nat} (h : NegativeOn M d)
    (e : κ ≃ ι) : NegativeOn (M.submatrix e e) d := by
  obtain ⟨V, dim, negative⟩ := h
  let turn := LinearEquiv.funCongrLeft K K e
  refine ⟨V.map turn.toLinearMap, (LinearEquiv.finrank_map_eq turn V).trans dim, ?_⟩
  rintro - ⟨x, hx, rfl⟩ nonzero
  have nonzero' : x ≠ 0 := by
    rintro rfl
    exact nonzero (map_zero turn)
  have same : (x ∘ e) ⬝ᵥ M.submatrix e e *ᵥ (x ∘ e) = x ⬝ᵥ M *ᵥ x := by
    rw [submatrix_mulVec_equiv, Function.comp_assoc, Equiv.self_comp_symm, Function.comp_id,
      comp_equiv_dotProduct_comp_equiv]
  exact lt_of_eq_of_lt same (negative x hx nonzero')

omit [DecidableEq ι] [DecidableEq κ] in
/-- The order of the coordinates does not matter. -/
theorem negativeOn_submatrix {M : Matrix ι ι K} {d : Nat} (e : κ ≃ ι) :
    NegativeOn (M.submatrix e e) d ↔ NegativeOn M d := by
  refine ⟨fun h => ?_, fun h => h.submatrix e⟩
  have back := h.submatrix e.symm
  rwa [submatrix_submatrix, Equiv.self_comp_symm, submatrix_id_id] at back

variable [IsStrictOrderedRing K]

theorem isGreatest_sigNeg (M : Matrix ι ι K) :
    IsGreatest {d | NegativeOn M d} (sigNeg M.toQuadraticForm') := by
  have definite (V : Submodule K (ι → K)) : ((-M.toQuadraticForm').restrict V).PosDef ↔
      ∀ x ∈ V, x ≠ 0 → x ⬝ᵥ M *ᵥ x < 0 := by
    constructor
    · intro positive x hx nonzero
      have := positive ⟨x, hx⟩ (by simpa using nonzero)
      simpa [toQuadraticForm'_eq] using this
    · intro negative x nonzero
      have := negative x x.2 (by simpa using nonzero)
      simpa [toQuadraticForm'_eq] using this
  simpa only [NegativeOn, definite] using sigNeg_isGreatest M.toQuadraticForm'

/-! ## Diagonal matrices -/

theorem Congruent.card_negative {w v : ι → K} (h : Congruent (diagonal w) (diagonal v)) :
    Fintype.card {i // w i < 0} = Fintype.card {i // v i < 0} := by
  have same := h.equivalent.sigNeg_eq
  rw [toQuadraticForm'_diagonal, toQuadraticForm'_diagonal,
    QuadraticForm.sigNeg_weightedSumSquares, QuadraticForm.sigNeg_weightedSumSquares] at same
  rwa [← Nat.card_coe_set_eq, ← Nat.card_coe_set_eq, Nat.card_eq_fintype_card,
    Nat.card_eq_fintype_card] at same

theorem Congruent.card_positive {w v : ι → K} (h : Congruent (diagonal w) (diagonal v)) :
    Fintype.card {i // 0 < w i} = Fintype.card {i // 0 < v i} := by
  have same := h.equivalent.sigPos_eq
  rw [toQuadraticForm'_diagonal, toQuadraticForm'_diagonal,
    QuadraticForm.sigPos_weightedSumSquares, QuadraticForm.sigPos_weightedSumSquares] at same
  rwa [← Nat.card_coe_set_eq, ← Nat.card_coe_set_eq, Nat.card_eq_fintype_card,
    Nat.card_eq_fintype_card] at same

omit [Field K] [DecidableEq ι] [IsStrictOrderedRing K] in
theorem card_signs [Zero K] (w : ι → K) :
    Fintype.card {i // w i < 0} + Fintype.card {i // w i = 0} + Fintype.card {i // 0 < w i} =
      Fintype.card ι := by
  simp only [Fintype.card_subtype, Finset.card_filter, ← Finset.sum_add_distrib]
  rw [Fintype.card_eq_sum_ones]
  refine Finset.sum_congr rfl fun i _ => ?_
  rcases lt_trichotomy (w i) 0 with negative | zero | positive
  · simp [negative, negative.ne, negative.le]
  · simp [zero]
  · simp [positive, positive.ne', positive.le]

theorem Congruent.card_zero {w v : ι → K} (h : Congruent (diagonal w) (diagonal v)) :
    Fintype.card {i // w i = 0} = Fintype.card {i // v i = 0} := by
  have negative := h.card_negative
  have positive := h.card_positive
  have all := card_signs w
  have all' := card_signs v
  omega

/-! ## Inertia -/

omit [IsStrictOrderedRing K] in
/-- Congruent to a diagonal matrix with so many negative entries and so many zeros. -/
def HasInertia (M : Matrix ι ι K) (p : Inertia) : Prop :=
  ∃ w : ι → K, Congruent M (diagonal w) ∧ Fintype.card {i // w i < 0} = p.negative ∧
    Fintype.card {i // w i = 0} = p.zero

namespace HasInertia

variable {M N : Matrix ι ι K} {p q : Inertia}

omit [IsStrictOrderedRing K]

theorem of_congruent (h : HasInertia N p) (same : Congruent M N) : HasInertia M p := by
  obtain ⟨w, diag, counts⟩ := h
  exact ⟨w, same.trans diag, counts⟩

theorem of_isEmpty [IsEmpty ι] (M : Matrix ι ι K) : HasInertia M ⟨0, 0⟩ := by
  refine ⟨isEmptyElim, ?_, Fintype.card_eq_zero, Fintype.card_eq_zero⟩
  rw [Subsingleton.elim M (diagonal _)]
  exact .refl _

theorem submatrix (h : HasInertia M p) (e : κ ≃ ι) : HasInertia (M.submatrix e e) p := by
  obtain ⟨w, diag, negative, zero⟩ := h
  refine ⟨w ∘ e, ?_, ?_, ?_⟩
  · rw [← submatrix_diagonal_equiv]
    exact diag.submatrix e
  · rw [← negative]
    exact Fintype.card_congr (e.subtypeEquiv fun i => Iff.rfl)
  · rw [← zero]
    exact Fintype.card_congr (e.subtypeEquiv fun i => Iff.rfl)

/-- Renaming the indices loses none. -/
theorem of_submatrix {e : ι → ι} (h : HasInertia (M.submatrix e e) p)
    (distinct : Function.Injective e) : HasInertia M p := by
  have onto := Finite.injective_iff_bijective.1 distinct
  have back := h.submatrix (Equiv.ofBijective e onto).symm
  have same : e ∘ (Equiv.ofBijective e onto).symm = id := (Equiv.ofBijective e onto).self_comp_symm
  rwa [submatrix_submatrix, same, submatrix_id_id] at back

theorem fromBlocks {M' : Matrix κ κ K} (h : HasInertia M p) (h' : HasInertia M' q) :
    HasInertia (fromBlocks M 0 0 M') (p.add q) := by
  obtain ⟨w, diag, negative, zero⟩ := h
  obtain ⟨w', diag', negative', zero'⟩ := h'
  refine ⟨Sum.elim w w', ?_, ?_, ?_⟩
  · rw [← fromBlocks_diagonal]
    exact diag.fromBlocks diag'
  · rw [Inertia.add, ← negative, ← negative', ← Fintype.card_sum]
    exact Fintype.card_congr Equiv.subtypeSum
  · rw [Inertia.add, ← zero, ← zero', ← Fintype.card_sum]
    exact Fintype.card_congr Equiv.subtypeSum

theorem map {F : Type} [Field F] [LinearOrder F] (h : HasInertia M p) (f : K →+* F)
    (mono : ∀ a, f a < 0 ↔ a < 0) : HasInertia (M.map f) p := by
  obtain ⟨w, diag, negative, zero⟩ := h
  refine ⟨f ∘ w, ?_, ?_, ?_⟩
  · have := diag.map f
    rwa [diagonal_map f.map_zero] at this
  · rw [← negative]
    exact Fintype.card_congr (Equiv.subtypeEquivRight fun i => mono _)
  · rw [← zero]
    exact Fintype.card_congr (Equiv.subtypeEquivRight fun i => map_eq_zero f)

theorem rank_add_zero (h : HasInertia M p) : M.rank + p.zero = Fintype.card ι := by
  obtain ⟨w, ⟨P, Q, inverse, rfl⟩, -, zero⟩ := h
  have unit : IsUnit P.det := isUnit_det_of_right_inverse inverse
  have unit' : IsUnit Pᵀ.det := by rwa [det_transpose]
  rw [rank_mul_eq_left_of_isUnit_det _ _ unit', rank_mul_eq_right_of_isUnit_det _ _ unit,
    rank_diagonal, ← zero, Fintype.card_subtype_compl]
  exact Nat.sub_add_cancel (Fintype.card_subtype_le _)

section Ordered

variable [IsStrictOrderedRing K]

/-- **A matrix has only one inertia.** -/
theorem unique (h : HasInertia M p) (h' : HasInertia M q) : p = q := by
  obtain ⟨w, diag, negative, zero⟩ := h
  obtain ⟨v, diag', negative', zero'⟩ := h'
  have same : Congruent (diagonal w) (diagonal v) := diag.symm.trans diag'
  have negatives := same.card_negative
  have zeros := same.card_zero
  cases p
  cases q
  simp only [Inertia.mk.injEq] at negative negative' zero zero' ⊢
  omega

theorem sigNeg_eq (h : HasInertia M p) : sigNeg M.toQuadraticForm' = p.negative := by
  obtain ⟨w, diag, negative, -⟩ := h
  rw [diag.equivalent.sigNeg_eq, toQuadraticForm'_diagonal, QuadraticForm.sigNeg_weightedSumSquares,
    ← negative, ← Nat.card_coe_set_eq, Nat.card_eq_fintype_card]
  rfl

/-- **Negative entries are dimensions** of subspaces on which the form is negative definite. -/
theorem isGreatest (h : HasInertia M p) : IsGreatest {d | NegativeOn M d} p.negative :=
  h.sigNeg_eq ▸ isGreatest_sigNeg M

/-- A smaller form has more negative entries. -/
theorem negative_le (h : HasInertia M p) (h' : HasInertia N q)
    (smaller : ∀ x, x ⬝ᵥ N *ᵥ x ≤ x ⬝ᵥ M *ᵥ x) : p.negative ≤ q.negative := by
  obtain ⟨V, dim, negative⟩ := h.isGreatest.1
  exact h'.isGreatest.2 ⟨V, dim, fun x hx nonzero => (smaller x).trans_lt (negative x hx nonzero)⟩

omit [IsStrictOrderedRing K] in
theorem le_card (h : HasInertia M p) : p.negative + p.zero ≤ Fintype.card ι := by
  obtain ⟨w, -, negative, zero⟩ := h
  have all := card_signs w
  omega

theorem neg (h : HasInertia M p) :
    HasInertia (-M) ⟨Fintype.card ι - (p.negative + p.zero), p.zero⟩ := by
  obtain ⟨w, ⟨P, Q, inverse, rfl⟩, negative, zero⟩ := h
  refine ⟨-w, ⟨P, Q, inverse, ?_⟩, ?_, ?_⟩
  · rw [show diagonal (-w) = -diagonal w from (diagonal_neg w).symm, mul_neg, neg_mul]
  · have all := card_signs w
    have positive : Fintype.card {i // (-w) i < 0} = Fintype.card {i // 0 < w i} :=
      Fintype.card_congr (Equiv.subtypeEquivRight fun i => by simp)
    show Fintype.card {i // (-w) i < 0} = Fintype.card ι - (p.negative + p.zero)
    omega
  · rw [← zero]
    exact Fintype.card_congr (Equiv.subtypeEquivRight fun i => by simp)

/-- A smaller form has more entries that are not positive. -/
theorem nonpositive_le (h : HasInertia M p) (h' : HasInertia N q)
    (smaller : ∀ x, x ⬝ᵥ N *ᵥ x ≤ x ⬝ᵥ M *ᵥ x) : p.negative + p.zero ≤ q.negative + q.zero := by
  have positive := h'.neg.negative_le h.neg fun x => by
    simpa [neg_mulVec, dotProduct_neg] using smaller x
  have all := h.le_card
  have all' := h'.le_card
  simp only at positive
  omega

theorem smul (h : HasInertia M p) {c : K} (positive : 0 < c) : HasInertia (c • M) p := by
  obtain ⟨w, ⟨P, Q, inverse, rfl⟩, negative, zero⟩ := h
  refine ⟨c • w, ⟨P, Q, inverse, ?_⟩, ?_, ?_⟩
  · rw [diagonal_smul, mul_smul_comm, smul_mul_assoc]
  · rw [← negative]
    refine Fintype.card_congr (Equiv.subtypeEquivRight fun i => ?_)
    simp [mul_neg_iff, positive, positive.le]
  · rw [← zero]
    refine Fintype.card_congr (Equiv.subtypeEquivRight fun i => ?_)
    simp [positive.ne']

end Ordered

end HasInertia

section Signs

omit [IsStrictOrderedRing K]

variable {M : Matrix ι ι K} {k : Nat}

/-- Signs are an inertia without zeros. -/
theorem signs_iff : Signs M k ↔ HasInertia M ⟨k, 0⟩ := by
  constructor
  · rintro ⟨w, diag, nonzero, count⟩
    exact ⟨w, diag, count, Fintype.card_eq_zero_iff.2 ⟨fun i => nonzero i i.2⟩⟩
  · rintro ⟨w, diag, count, zero⟩
    have none := Fintype.card_eq_zero_iff.1 zero
    exact ⟨w, diag, fun i here => none.elim ⟨i, here⟩, count⟩

theorem Signs.map {F : Type} [Field F] [LinearOrder F] (h : Signs M k) (f : K →+* F)
    (mono : ∀ a, f a < 0 ↔ a < 0) : Signs (M.map f) k :=
  signs_iff.2 ((signs_iff.1 h).map f mono)

end Signs

/-! ## Inertia up to a magnitude -/

/-- So many eigenvalues are below `-t`, and so many of magnitude at most `t`. -/
def HasInertiaUpTo (M : Matrix ι ι K) (t : K) (p : Inertia) : Prop :=
  ∃ low high, HasInertia (M + t • 1) low ∧ HasInertia (M - t • 1) high ∧
    p.negative = low.negative ∧ p.negative + p.zero = high.negative + high.zero

theorem le_add_smul_one {t : K} (nonneg : 0 ≤ t) (M : Matrix ι ι K) (x : ι → K) :
    x ⬝ᵥ M *ᵥ x ≤ x ⬝ᵥ (M + t • 1) *ᵥ x := by
  have squares : 0 ≤ x ⬝ᵥ x := Finset.sum_nonneg fun i _ => mul_self_nonneg (x i)
  rw [add_mulVec, smul_mulVec, one_mulVec, dotProduct_add, dotProduct_smul]
  exact le_add_of_nonneg_right (mul_nonneg nonneg squares)

theorem sub_smul_one_le {t : K} (nonneg : 0 ≤ t) (M : Matrix ι ι K) (x : ι → K) :
    x ⬝ᵥ (M - t • 1) *ᵥ x ≤ x ⬝ᵥ M *ᵥ x := by
  have moved := le_add_smul_one nonneg (M - t • 1) x
  rwa [sub_add_cancel] at moved

omit [LinearOrder K] [Fintype ι] [Fintype κ] [IsStrictOrderedRing K] in
theorem fromBlocks_add_smul_one (M : Matrix ι ι K) (M' : Matrix κ κ K) (t : K) :
    fromBlocks (M + t • 1) 0 0 (M' + t • 1) = fromBlocks M 0 0 M' + t • 1 := by
  rw [← fromBlocks_one, fromBlocks_smul, fromBlocks_add, smul_zero, smul_zero, add_zero, add_zero]

namespace HasInertiaUpTo

variable {M : Matrix ι ι K} {t : K} {p q r : Inertia}

section Sums

omit [IsStrictOrderedRing K]

theorem of_isEmpty [IsEmpty ι] (M : Matrix ι ι K) (t : K) : HasInertiaUpTo M t ⟨0, 0⟩ :=
  ⟨_, _, .of_isEmpty _, .of_isEmpty _, rfl, rfl⟩

theorem submatrix (h : HasInertiaUpTo M t p) (e : κ ≃ ι) :
    HasInertiaUpTo (M.submatrix e e) t p := by
  obtain ⟨low, high, below, above, negative, zero⟩ := h
  have unit : (1 : Matrix κ κ K) = (1 : Matrix ι ι K).submatrix e e := (submatrix_one_equiv e).symm
  refine ⟨low, high, ?_, ?_, negative, zero⟩
  · rw [unit]
    exact below.submatrix e
  · rw [unit]
    exact above.submatrix e

theorem fromBlocks {M' : Matrix κ κ K} (h : HasInertiaUpTo M t p) (h' : HasInertiaUpTo M' t q) :
    HasInertiaUpTo (fromBlocks M 0 0 M') t (p.add q) := by
  obtain ⟨low, high, below, above, negative, zero⟩ := h
  obtain ⟨low', high', below', above', negative', zero'⟩ := h'
  refine ⟨low.add low', high.add high', ?_, ?_, ?_, ?_⟩
  · rw [← fromBlocks_add_smul_one]
    exact below.fromBlocks below'
  · rw [sub_eq_add_neg, ← neg_smul] at above above' ⊢
    rw [← fromBlocks_add_smul_one]
    exact above.fromBlocks above'
  · simp only [Inertia.add]
    omega
  · simp only [Inertia.add]
    omega

end Sums

/-- Nothing is counted as zero but zero. -/
theorem hasInertia (h : HasInertiaUpTo M 0 p) : HasInertia M p := by
  obtain ⟨low, high, below, above, negative, zero⟩ := h
  rw [zero_smul, add_zero] at below
  rw [zero_smul, sub_zero] at above
  obtain rfl := below.unique above
  have same : p = low := by
    cases p
    cases low
    simp only [Inertia.mk.injEq] at negative zero ⊢
    omega
  exact same ▸ below

/-- Without entries of magnitude at most `t`, as many are negative as are below `-t`. -/
theorem signs (h : HasInertiaUpTo M t p) (nonneg : 0 ≤ t) (regular : p.zero = 0)
    (exact : HasInertia M r) : Signs M p.negative := by
  obtain ⟨low, high, below, above, negative, zero⟩ := h
  have down := below.negative_le exact (le_add_smul_one nonneg M)
  have up := exact.nonpositive_le above (sub_smul_one_le nonneg M)
  refine signs_iff.2 ?_
  have same : r = ⟨p.negative, 0⟩ := by
    cases r
    simp only [Inertia.mk.injEq] at down up ⊢
    omega
  exact same ▸ exact

end HasInertiaUpTo

end SymSolve
