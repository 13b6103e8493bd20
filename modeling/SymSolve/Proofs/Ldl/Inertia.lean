import Mathlib.Tactic.Linarith
import SymSolve.Proofs.Ldl.Factor
import SymSolve.Proofs.Ldl.Sylvester

/-!
# The inertia of a block diagonal

**Theorem (`Ldl.Factorizes.middle_inertia`).** `Ldl.inertia` counts the negative eigenvalues of the
block diagonal and those that are zero, with a cutoff those of magnitude at most the cutoff.

**Theorem (`Ldl.Factorizes.signs_middle`).** When no eigenvalue counts as zero, then the block diagonal
has as many negative signs as are counted.

The blocks follow one another along the diagonal, so the proof goes along `blocksOf`, a block at a
time, and the matrix is the direct sum of the block and what comes after it. A block with two rows is
told by its determinant and its trace, moved by the cutoff in both directions.
-/

namespace SymSolve

open Matrix

variable {K : Type} [Field K] [LinearOrder K] [FloorRing K]

/-! ## One row and two -/

omit [FloorRing K] in
theorem hasInertia_one (M : Matrix (Fin 1) (Fin 1) K) :
    HasInertia M ⟨if M 0 0 < 0 then 1 else 0, if M 0 0 = 0 then 1 else 0⟩ := by
  have same : M = diagonal fun i => M i i := by
    ext i j
    rw [Subsingleton.elim i 0, Subsingleton.elim j 0, diagonal_apply_eq]
  refine ⟨fun i => M i i, ?_, ?_, ?_⟩
  · rw [← same]
    exact .refl M
  · rw [Fintype.card_subtype, Finset.card_filter, Fin.sum_univ_one]
  · rw [Fintype.card_subtype, Finset.card_filter, Fin.sum_univ_one]

omit [FloorRing K] in
theorem hasInertia_of_two {M : Matrix (Fin 2) (Fin 2) K} {x y : K}
    (h : Congruent M (diagonal ![x, y])) :
    HasInertia M ⟨(if x < 0 then 1 else 0) + if y < 0 then 1 else 0,
      (if x = 0 then 1 else 0) + if y = 0 then 1 else 0⟩ := by
  refine ⟨_, h, ?_, ?_⟩
  · rw [Fintype.card_subtype, Finset.card_filter, Fin.sum_univ_two]
    rfl
  · rw [Fintype.card_subtype, Finset.card_filter, Fin.sum_univ_two]
    rfl

namespace Block

variable [IsStrictOrderedRing K]

omit [FloorRing K] in
/-- Without a negative determinant both entries of the diagonal have the sign of the trace. -/
theorem trace_of_first {a b c : K} (first : a ≠ 0) (determinant : 0 ≤ a * c - b * b) :
    a + c ≠ 0 ∧ (a + c < 0 ↔ a < 0) := by
  have product : 0 ≤ a * c := by linarith [mul_self_nonneg b]
  rcases lt_or_gt_of_ne first with negative | positive
  · have last : c ≤ 0 := nonpos_of_mul_nonneg_right product negative
    exact ⟨by linarith, iff_of_true (by linarith) negative⟩
  · have last : 0 ≤ c := nonneg_of_mul_nonneg_right product positive
    exact ⟨by linarith, iff_of_false (by linarith) (by linarith)⟩

/-- Determinant and trace tell the inertia of two rows. -/
theorem hasInertia_pair (a b c : K) : HasInertia !![a, b; b, c] (pairSigns a b c) := by
  by_cases first : a = 0
  · subst first
    by_cases coupled : b = 0
    · subst coupled
      have diag : Congruent !![0, 0; 0, c] (diagonal ![0, c]) := by
        rw [diagonal_vec2]
        exact .refl _
      convert! hasInertia_of_two diag using 1
      by_cases negative : c < 0 <;> by_cases zero : c = 0 <;> simp [pairSigns, negative, zero]
    · convert! hasInertia_of_two (congruent_of_zero c coupled) using 1
      have indefinite : 0 < b * b := mul_self_pos.2 coupled
      simp [pairSigns, indefinite]
  · convert! hasInertia_of_two (congruent_of_first b c first) using 1
    have traces := @trace_of_first K _ _ _ a b c first
    simp only [pairSigns, Scalar.lt_iff, Scalar.eq_iff]
    generalize a * c - b * b = determinant at traces ⊢
    generalize a + c = trace at traces ⊢
    rcases lt_trichotomy determinant 0 with indefinite | rfl | definite
    · rcases lt_or_gt_of_ne first with negative | positive
      · have second := div_pos_of_neg_of_neg indefinite negative
        simp [indefinite, negative, second.not_gt, second.ne', first]
      · have second := div_neg_of_neg_of_pos indefinite positive
        simp [indefinite, positive.not_gt, second, second.ne, first]
    · obtain ⟨nonzero, sign⟩ := traces le_rfl
      by_cases negative : a < 0 <;> simp [nonzero, sign, negative, first]
    · obtain ⟨nonzero, sign⟩ := traces definite.le
      rcases lt_or_gt_of_ne first with negative | positive
      · have second := div_neg_of_pos_of_neg definite negative
        simp [definite.not_gt, definite.ne', sign, negative, second, second.ne, first]
      · have second := div_pos definite positive
        simp [definite.not_gt, definite.ne', sign, positive.not_gt, second.not_gt, second.ne', first]

omit [LinearOrder K] [FloorRing K] [IsStrictOrderedRing K] in
theorem one_add_smul_one (a s : K) :
    (of fun _ _ : Fin 1 => a + s) = (of fun _ _ : Fin 1 => a) + s • 1 := by
  ext i j
  simp [Subsingleton.elim i j]

/-- One entry, moved by `t` in both directions. -/
theorem hasInertiaUpTo_one {t : K} (nonneg : 0 ≤ t) (a : K) :
    HasInertiaUpTo (of fun _ _ : Fin 1 => a) t ((one a).inertia t) := by
  have low : HasInertia (of fun _ _ : Fin 1 => a + t)
      ⟨if a + t < 0 then 1 else 0, if a + t = 0 then 1 else 0⟩ := hasInertia_one _
  have high : HasInertia (of fun _ _ : Fin 1 => a + -t)
      ⟨if a + -t < 0 then 1 else 0, if a + -t = 0 then 1 else 0⟩ := hasInertia_one _
  rw [one_add_smul_one] at low
  rw [one_add_smul_one, neg_smul, ← sub_eq_add_neg] at high
  refine ⟨_, _, low, high, ?_, ?_⟩
  · simp only [inertia, Scalar.le_iff, Scalar.abs_eq, Scalar.lt_iff]
    split_ifs <;> grind
  · simp only [inertia, Scalar.le_iff, Scalar.abs_eq, Scalar.lt_iff]
    split_ifs <;> grind

omit [LinearOrder K] [FloorRing K] [IsStrictOrderedRing K] in
theorem pair_add_smul_one (a b c s : K) : !![a + s, b; b, c + s] = !![a, b; b, c] + s • 1 := by
  ext i j
  fin_cases i <;> fin_cases j <;> simp

/-- Two rows, scaled and moved by `t` in both directions. -/
theorem hasInertiaUpTo_two {t : K} (nonneg : 0 ≤ t) {a b c : K} (coupled : b ≠ 0) :
    HasInertiaUpTo !![a, b; b, c] t ((two a b c).inertia t) := by
  have positive : 0 < max (max |a| |b|) |c| :=
    lt_max_of_lt_left (lt_max_of_lt_right (abs_pos.2 coupled))
  simp only [inertia, Scalar.larger_eq, Scalar.abs_eq, (Scalar.le_iff 0 t).2 nonneg, if_true]
  generalize max (max |a| |b|) |c| = size at positive ⊢
  have scaled (s : K) : size • !![a / size + s / size, b / size; b / size, c / size + s / size] =
      !![a, b; b, c] + s • 1 := by
    rw [← pair_add_smul_one]
    simp [smul_of, mul_add, mul_div_cancel₀, positive.ne']
  have low := (hasInertia_pair (a / size + t / size) (b / size) (c / size + t / size)).smul positive
  have high := (hasInertia_pair (a / size - t / size) (b / size) (c / size - t / size)).smul positive
  rw [scaled] at low
  rw [sub_eq_add_neg, sub_eq_add_neg, ← neg_div, scaled, neg_smul, ← sub_eq_add_neg] at high
  have order := low.negative_le high fun x =>
    (sub_smul_one_le nonneg _ x).trans (le_add_smul_one nonneg _ x)
  refine ⟨_, _, low, high, rfl, ?_⟩
  simp only [sub_eq_add_neg, ← neg_div] at order ⊢
  omega

end Block

/-! ## Direct sums along the diagonal -/

section Front

variable {m n : Nat}

/-- The first `m` places, and the places after them. -/
def front (m n : Nat) : Fin m ⊕ Fin n ≃ Fin (n + m) :=
  finSumFinEquiv.trans (finCongr (Nat.add_comm m n))

omit [FloorRing K] in
theorem HasInertiaUpTo.direct {M : Matrix (Fin (n + m)) (Fin (n + m)) K}
    {A : Matrix (Fin m) (Fin m) K} {B : Matrix (Fin n) (Fin n) K} {t : K} {p q : Inertia}
    (hA : HasInertiaUpTo A t p) (hB : HasInertiaUpTo B t q)
    (parts : M.submatrix (front m n) (front m n) = Matrix.fromBlocks A 0 0 B) :
    HasInertiaUpTo M t (p.add q) := by
  have := (hA.fromBlocks hB).submatrix (front m n).symm
  rwa [← parts, submatrix_submatrix, Equiv.self_comp_symm, submatrix_id_id] at this

theorem front_one_inl (i : Fin 1) : front 1 n (.inl i) = leading := by
  rw [Subsingleton.elim i 0]
  rfl

@[simp] theorem front_one_inr (i : Fin n) : front 1 n (.inr i) = i.succ :=
  Fin.ext (Nat.add_comm ..)

@[simp] theorem front_two_inl_zero : front 2 n (.inl 0) = leading := rfl

@[simp] theorem front_two_inl_one : front 2 n (.inl 1) = leading.succ := rfl

@[simp] theorem front_two_inr (i : Fin n) : front 2 n (.inr i) = i.succ.succ :=
  Fin.ext (Nat.add_comm ..)

omit [LinearOrder K] [FloorRing K] in
theorem tridiagonal_front_one (p : K) (diagonal coupling : Vector K n) :
    (tridiagonal (pushFront p diagonal) (pushFront 0 coupling)).submatrix (front 1 n) (front 1 n) =
      fromBlocks (of fun _ _ => p) 0 0 (tridiagonal diagonal coupling) := by
  ext (i | i) (j | j) <;> simp [front_one_inl]

omit [LinearOrder K] [FloorRing K] in
theorem tridiagonal_front_two (a b c : K) (diagonal coupling : Vector K n) :
    (tridiagonal (pushFront a (pushFront c diagonal))
        (pushFront b (pushFront 0 coupling))).submatrix (front 2 n) (front 2 n) =
      fromBlocks !![a, b; b, c] 0 0 (tridiagonal diagonal coupling) := by
  ext (i | i) (j | j)
  · fin_cases i <;> fin_cases j <;> simp
  · fin_cases i <;> simp
  · fin_cases j <;> simp
  · simp

end Front

/-! ## All blocks -/

/-- The inertia of several blocks. -/
def Inertia.total (cutoff : K) (blocks : List (Block K)) : Inertia :=
  (blocks.map (Block.inertia cutoff)).foldl Inertia.add ⟨0, 0⟩

instance : Std.Associative Inertia.add :=
  ⟨fun p q r => by simp [Inertia.add, Nat.add_assoc]⟩

theorem Inertia.total_cons (cutoff : K) (block : Block K) (blocks : List (Block K)) :
    total cutoff (block :: blocks) = (block.inertia cutoff).add (total cutoff blocks) := by
  have start : add ⟨0, 0⟩ (block.inertia cutoff) = add (block.inertia cutoff) ⟨0, 0⟩ := by
    simp [add]
  unfold total
  rw [List.map_cons, List.foldl_cons, start]
  exact List.foldl_assoc

namespace Ldl

variable {n : Nat}

theorem blocksOf_of_zero (a : K) (diagonal coupling : Vector K n) :
    blocksOf (pushFront a diagonal).toList (pushFront 0 coupling).toList =
      .one a :: blocksOf diagonal.toList coupling.toList := by
  cases n with
  | zero =>
    obtain rfl : diagonal = #v[] := Vector.eq_empty
    obtain rfl : coupling = #v[] := Vector.eq_empty
    rfl
  | succ n =>
    obtain ⟨c, diagonal, rfl⟩ := exists_pushFront diagonal
    obtain ⟨b, coupling, rfl⟩ := exists_pushFront coupling
    simp [toList_pushFront, blocksOf]

theorem blocksOf_of_ne_zero (a c : K) {b : K} (coupled : b ≠ 0) (diagonal coupling : Vector K n) :
    blocksOf (pushFront a (pushFront c diagonal)).toList
        (pushFront b (pushFront 0 coupling)).toList =
      .two a b c :: blocksOf diagonal.toList coupling.toList := by
  simp [toList_pushFront, blocksOf, coupled]

/-- **Along the blocks**: what holds for no rows, and passes from what comes after a block to the whole,
holds for every block diagonal. The last coupling has no place, so that a single last row is a case of
its own. -/
theorem blocks_induction {motive : (n : Nat) → Vector K n → Vector K n → List (Block K) → Prop}
    (none : motive 0 #v[] #v[] [])
    (last : ∀ a b, motive 1 (pushFront a #v[]) (pushFront b #v[]) [.one a])
    (one : ∀ n a (diagonal coupling : Vector K n) blocks, motive n diagonal coupling blocks →
      motive (n + 1) (pushFront a diagonal) (pushFront 0 coupling) (.one a :: blocks))
    (two : ∀ n a b c (diagonal coupling : Vector K n) blocks, b ≠ 0 →
      motive n diagonal coupling blocks →
      motive (n + 2) (pushFront a (pushFront c diagonal)) (pushFront b (pushFront 0 coupling))
        (.two a b c :: blocks))
    {n : Nat} (diagonal coupling : Vector K n)
    (separate : ∀ i j : Fin n, j.val = i.val + 1 → coupling.get i = 0 ∨ coupling.get j = 0) :
    motive n diagonal coupling (blocksOf diagonal.toList coupling.toList) := by
  induction n using Nat.twoStepInduction with
  | zero =>
    obtain rfl : diagonal = #v[] := Vector.eq_empty
    obtain rfl : coupling = #v[] := Vector.eq_empty
    exact none
  | one =>
    obtain ⟨a, diagonal, rfl⟩ := exists_pushFront diagonal
    obtain ⟨b, coupling, rfl⟩ := exists_pushFront coupling
    obtain rfl : diagonal = #v[] := Vector.eq_empty
    obtain rfl : coupling = #v[] := Vector.eq_empty
    exact last a b
  | more n ih ih' =>
    obtain ⟨a, diagonal, rfl⟩ := exists_pushFront diagonal
    obtain ⟨b, coupling, rfl⟩ := exists_pushFront coupling
    by_cases coupled : b = 0
    · subst coupled
      rw [blocksOf_of_zero]
      refine one _ a diagonal coupling _ (ih' diagonal coupling fun i j next => ?_)
      simpa using separate i.succ j.succ (by simpa using next)
    · obtain ⟨c, diagonal, rfl⟩ := exists_pushFront diagonal
      obtain ⟨b', coupling, rfl⟩ := exists_pushFront coupling
      have free : b' = 0 := by simpa [coupled] using separate leading leading.succ rfl
      subst free
      rw [blocksOf_of_ne_zero _ _ coupled]
      refine two _ a b c diagonal coupling _ coupled (ih diagonal coupling fun i j next => ?_)
      simpa using separate i.succ.succ j.succ.succ (by simpa using next)

variable [IsStrictOrderedRing K]

/-- The inertia of a tridiagonal matrix that is block diagonal. -/
theorem inertia_tridiagonal {t : K} (nonneg : 0 ≤ t) {n : Nat} (diagonal coupling : Vector K n)
    (separate : ∀ i j : Fin n, j.val = i.val + 1 → coupling.get i = 0 ∨ coupling.get j = 0) :
    HasInertiaUpTo (tridiagonal diagonal coupling) t
      (Inertia.total t (blocksOf diagonal.toList coupling.toList)) := by
  refine blocks_induction (motive := fun _ diagonal coupling blocks =>
    HasInertiaUpTo (tridiagonal diagonal coupling) t (Inertia.total t blocks))
    ?none ?last ?one ?two diagonal coupling separate
  case none => exact .of_isEmpty _ _
  case last =>
    intro a b
    have alone : tridiagonal (pushFront a #v[]) (pushFront b #v[]) = of fun _ _ => a := by
      ext i j
      obtain rfl : i = leading := Fin.ext (by omega)
      obtain rfl : j = leading := Fin.ext (by omega)
      exact tridiagonal_leading ..
    rw [Inertia.total_cons, alone]
    exact Block.hasInertiaUpTo_one nonneg a
  case one =>
    intro n a diagonal coupling blocks rest
    rw [Inertia.total_cons]
    exact (Block.hasInertiaUpTo_one nonneg a).direct rest (tridiagonal_front_one ..)
  case two =>
    intro n a b c diagonal coupling blocks coupled rest
    rw [Inertia.total_cons]
    exact (Block.hasInertiaUpTo_two nonneg coupled).direct rest (tridiagonal_front_two ..)

/-- **What is counted**: the negative eigenvalues of the block diagonal and those that are zero, where
magnitudes up to the cutoff count as zero. -/
theorem Factorizes.middle_inertia {F : Ldl n K} {A : Dense n K} (h : F.Factorizes A) {cutoff : K}
    (nonneg : 0 ≤ cutoff) : HasInertiaUpTo F.middle cutoff (F.inertia cutoff) :=
  inertia_tridiagonal nonneg F.diagonal F.coupling h.separate

/-- **No eigenvalue crosses zero**: without eigenvalues that count as zero the block diagonal has
as many negative signs as are counted. -/
theorem Factorizes.signs_middle {F : Ldl n K} {A : Dense n K} (h : F.Factorizes A) {cutoff : K}
    (nonneg : 0 ≤ cutoff) (regular : (F.inertia cutoff).zero = 0) :
    Signs F.middle (F.inertia cutoff).negative :=
  (h.middle_inertia nonneg).signs nonneg regular (h.middle_inertia le_rfl).hasInertia

omit [LinearOrder K] [FloorRing K] [IsStrictOrderedRing K] in
/-- The triangle changes the basis. -/
theorem Factorizes.congruent {F : Ldl n K} {A : Dense n K} (h : F.Factorizes A) :
    Congruent (A.toMatrix.submatrix F.perm.get F.perm.get) F.middle :=
  have unit : IsUnit F.lower.toMatrix.det := h.det_lower ▸ isUnit_one
  ⟨F.lower.toMatrix, F.lower.toMatrix⁻¹, mul_nonsing_inv _ unit, h.submatrix_eq⟩

omit [FloorRing K] [IsStrictOrderedRing K] in
/-- The table has the inertia of its block diagonal. -/
theorem Factorizes.hasInertia {F : Ldl n K} {A : Dense n K} (h : F.Factorizes A) {p : Inertia}
    (middle : HasInertia F.middle p) : HasInertia A.toMatrix p :=
  (middle.of_congruent h.congruent).of_submatrix h.distinct

end Ldl

end SymSolve
