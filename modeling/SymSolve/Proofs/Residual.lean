import Mathlib.Analysis.SpecialFunctions.Pow.Real
import SymSolve.Proofs.Matrices.Merging
import SymSolve.Residual

/-!
# Residuals are measured soundly

**Theorem (`measures_sound`).** A matrix is measured the same way whatever it is handed in as, with
vectors of its size and a positive `epsilon`. The largest magnitude of the residual `A x - b` is the
least bound of its components, the relative one is at least zero and less than one, and either of
them is zero exactly if `x` solves the system. Where the root is exact, so is the Euclidean norm: it
is at least the largest magnitude, and zero exactly for a solution.

The relative measure stays below one because no component of `A x` exceeds the largest sum of
magnitudes along a row, times the largest magnitude in `x` (`abs_mulVec_le`). The sums are those of
the matrix that is denoted, because entries are merged before their magnitudes are taken
(`Sparse.rowMagnitudes_eq`).
-/

namespace SymSolve

open Matrix

variable {K : Type} [Field K] [LinearOrder K] [FloorRing K] {m n : Nat}

/-! ## What an argument denotes -/

/-- The argument denotes a matrix: as triplets or as another view with these triplets, where an entry
off the diagonal stands for itself and its mirror image, or as a coordinate matrix, where it does
not. In either one, entries at the same position add up. -/
inductive MatrixArgument.Denotes (A : Matrix (Fin n) (Fin n) K) : MatrixArgument K → Prop
  | triplets (entries : List (Entry n n K)) (tag : Nat)
      (shares : ∀ i j, (entries.map fun e => e.share i j).sum = A i j) :
      Denotes A (.triplets ⟨n, entries, tag⟩)
  | view (entries : List (Entry n n K)) (tag : Nat)
      (shares : ∀ i j, (entries.map fun e => e.share i j).sum = A i j) :
      Denotes A (.view (SymTriplets.view ⟨n, entries, tag⟩))
  | sparse (entries : List (Entry n n K))
      (sums : Sparse.toMatrix ⟨n, n, entries⟩ = A) : Denotes A (.sparse ⟨n, n, entries⟩)

namespace MatrixArgument

theorem toSparse?_of_made {v : MatrixView K} {A : SymTriplets K} {after : TagSource}
    (made : (SymTriplets.ofTriplets v.dim (v.rows.map Int.ofNat) (v.cols.map Int.ofNat)
      (some v.values)).exec ⟨v.tag⟩ = (.ok A, after)) : (view v).toSparse? = .ok A.full := by
  unfold Tagged.exec at made
  simp only [toSparse?, made]

/-- Another view is read into the triplets that it shows. -/
theorem toSparse?_view (entries : List (Entry n n K)) (tag : Nat) :
    (view (SymTriplets.view ⟨n, entries, tag⟩)).toSparse? =
      .ok (SymTriplets.full ⟨n, entries, tag + 2⟩) := by
  let A : SymTriplets K := ⟨n, entries, tag⟩
  let places := entries.map fun e => (e.row, e.col)
  have rows : A.view.rows.map Int.ofNat = places.map fun p => (p.1.val : Int) := by
    simp [A, places, SymTriplets.view]
  have cols : A.view.cols.map Int.ofNat = places.map fun p => (p.2.val : Int) := by
    simp [A, places, SymTriplets.view]
  have filled := SymTriplets.exec_fill entries (tag + 1) ⟨tag + 1⟩ fun _ _ => rfl
  apply toSparse?_of_made
  rw [rows, cols]
  exact (SymTriplets.exec_ofTriplets places A.values ⟨tag⟩).trans filled

/-- An argument is turned into coordinates of the matrix that it denotes. -/
theorem Denotes.exists_entries {A : Matrix (Fin n) (Fin n) K} {a : MatrixArgument K}
    (denotes : a.Denotes A) : ∃ entries : List (Entry n n K),
      a.toSparse? = .ok ⟨n, n, entries⟩ ∧ Sparse.toMatrix ⟨n, n, entries⟩ = A := by
  cases denotes with
  | triplets entries tag shares => exact ⟨_, rfl, SymTriplets.toMatrix_full shares tag⟩
  | view entries tag shares =>
    exact ⟨_, toSparse?_view entries tag, SymTriplets.toMatrix_full shares (tag + 2)⟩
  | sparse entries sums => exact ⟨entries, rfl, sums⟩

end MatrixArgument

/-! ## Products -/

theorem Scalar.dot_ofFn (u v : Fin n → K) : Scalar.dot (List.ofFn u) (List.ofFn v) = u ⬝ᵥ v := by
  rw [dot, sum_eq, List.ofFn_eq_map, List.ofFn_eq_map, List.zipWith_map, List.zipWith_self,
    dotProduct, Fin.sum_univ_def]

/-- **The product** of a coordinate matrix with a vector is that of the matrix that is denoted. -/
theorem Sparse.mulVec?_ofFn (A : Sparse K) (x : Fin A.width → K) :
    A.mulVec? (List.ofFn x) = some (List.ofFn (A.toMatrix *ᵥ x)) := by
  rw [mulVec?, if_pos List.length_ofFn, List.ofFn_eq_map (f := A.toMatrix *ᵥ x)]
  refine congrArg some (List.map_congr_left fun i _ => ?_)
  have parts (e : Entry A.height A.width K) :
      (if e.row = i then e.value * ((List.ofFn x)[e.col.val]?).getD 0 else 0) =
        ∑ j, (if e.row = i ∧ e.col = j then e.value else 0) * x j := by
    simp [ite_and]
  rw [Scalar.sum_eq, inRow, sum_map_filter]
  simp only [decide_eq_true_eq, parts]
  rw [sum_map_finset_sum]
  refine Finset.sum_congr rfl fun j _ => ?_
  rw [List.sum_map_mul_right]
  exact congrArg (· * x j) (A.toMatrix_apply i j).symm

theorem Residual.components?_ofFn (A : Sparse K) (b : Fin A.height → K) (x : Fin A.width → K) :
    components? A (List.ofFn b) (List.ofFn x) = some (List.ofFn (A.toMatrix *ᵥ x - b)) := by
  rw [components?, A.mulVec?_ofFn, Option.bind_some, broadcast?_of_length _ (by simp)]
  simp only [List.ofFn_eq_map, List.zipWith_map, List.zipWith_self]
  rfl

/-! ## Largest magnitudes -/

/-- The largest magnitude in a vector. -/
def maxNorm (v : Fin n → K) : K := Scalar.maxAbs (List.ofFn v)

/-- The largest sum of magnitudes along a row of a matrix. -/
def maxRowSum (A : Matrix (Fin m) (Fin n) K) : K := maxNorm fun i => ∑ j, |A i j|

theorem maxNorm_le_iff (v : Fin n → K) {c : K} (nonneg : 0 ≤ c) :
    maxNorm v ≤ c ↔ ∀ i, |v i| ≤ c := by
  rw [maxNorm, Scalar.maxAbs_le_iff _ nonneg, List.forall_mem_ofFn_iff]

section Bounds

variable [IsStrictOrderedRing K]

theorem maxNorm_nonneg (v : Fin n → K) : 0 ≤ maxNorm v := Scalar.maxAbs_nonneg _

theorem abs_le_maxNorm (v : Fin n → K) (i : Fin n) : |v i| ≤ maxNorm v :=
  (maxNorm_le_iff v (maxNorm_nonneg v)).1 le_rfl i

theorem maxNorm_eq_zero_iff (v : Fin n → K) : maxNorm v = 0 ↔ v = 0 := by
  rw [← (maxNorm_nonneg v).ge_iff_eq', maxNorm_le_iff v le_rfl, funext_iff]
  simp

/-- No component of a product exceeds the row sum times the largest factor. -/
theorem abs_mulVec_le (A : Matrix (Fin m) (Fin n) K) (x : Fin n → K) (i : Fin m) :
    |(A *ᵥ x) i| ≤ maxRowSum A * maxNorm x :=
  calc |(A *ᵥ x) i|
      ≤ ∑ j, |A i j * x j| := Finset.abs_sum_le_sum_abs (fun j => A i j * x j) Finset.univ
    _ ≤ ∑ j, |A i j| * maxNorm x := by
        apply Finset.sum_le_sum
        intro j _
        rw [abs_mul]
        exact mul_le_mul_of_nonneg_left (abs_le_maxNorm x j) (abs_nonneg _)
    _ = (∑ j, |A i j|) * maxNorm x := (Finset.sum_mul ..).symm
    _ ≤ maxRowSum A * maxNorm x := by
        apply mul_le_mul_of_nonneg_right _ (maxNorm_nonneg x)
        exact (le_abs_self _).trans (abs_le_maxNorm (fun i => ∑ j, |A i j|) i)

theorem maxNorm_residual_le (A : Matrix (Fin n) (Fin n) K) (b x : Fin n → K) :
    maxNorm (A *ᵥ x - b) ≤ maxRowSum A * maxNorm x + maxNorm b := by
  have rows : 0 ≤ maxRowSum A := maxNorm_nonneg _
  have nonneg := add_nonneg (mul_nonneg rows (maxNorm_nonneg x)) (maxNorm_nonneg b)
  rw [maxNorm_le_iff _ nonneg]
  intro i
  calc |(A *ᵥ x - b) i|
      ≤ |(A *ᵥ x) i| + |b i| := abs_sub _ _
    _ ≤ maxRowSum A * maxNorm x + maxNorm b :=
        add_le_add (abs_mulVec_le A x i) (abs_le_maxNorm b i)

theorem maxNorm_residual_lt (A : Matrix (Fin n) (Fin n) K) (b x : Fin n → K) {epsilon : K}
    (positive : 0 < epsilon) :
    maxNorm (A *ᵥ x - b) < maxRowSum A * maxNorm x + maxNorm b + epsilon :=
  (maxNorm_residual_le A b x).trans_lt (lt_add_of_pos_right _ positive)

/-- The scale is that of the matrix that is denoted. -/
theorem Residual.scale_ofFn (A : Sparse K) (b : Fin A.height → K) (x : Fin A.width → K)
    (epsilon : K) : scale A (List.ofFn b) (List.ofFn x) epsilon =
      maxRowSum A.toMatrix * maxNorm x + maxNorm b + epsilon := by
  rw [scale, rowNorm, A.rowMagnitudes_eq]
  rfl

end Bounds

/-! ## Measures -/

namespace Residual

/-- What the measures of a residual tell about it. -/
structure Sound (A : Matrix (Fin n) (Fin n) K) (b x : Fin n → K) (measures : Residual K) : Prop where
  largest_le_iff : ∀ c, 0 ≤ c → (measures.largest ≤ c ↔ ∀ i, |(A *ᵥ x) i - b i| ≤ c)
  largest_eq_zero : measures.largest = 0 ↔ A *ᵥ x = b
  relative_nonneg : 0 ≤ measures.relative
  relative_lt_one : measures.relative < 1
  relative_eq_zero : measures.relative = 0 ↔ A *ᵥ x = b

/-- What the Euclidean norm of a residual tells about it. -/
structure EuclideanSound (A : Matrix (Fin n) (Fin n) K) (b x : Fin n → K) (measures : Residual K) :
    Prop where
  nonneg : 0 ≤ measures.euclidean
  square : measures.euclidean ^ 2 = ∑ i, ((A *ᵥ x) i - b i) ^ 2
  largest_le : measures.largest ≤ measures.euclidean
  eq_zero : measures.euclidean = 0 ↔ A *ᵥ x = b

variable [Powers K]

/-- The measures of the residual of `A x = b`, for the matrix and the vectors themselves. -/
def ofMatrix (A : Matrix (Fin n) (Fin n) K) (b x : Fin n → K) (epsilon : K) : Residual K where
  euclidean := RealScalar.sqrt ((A *ᵥ x - b) ⬝ᵥ (A *ᵥ x - b))
  largest := maxNorm (A *ᵥ x - b)
  relative := maxNorm (A *ᵥ x - b) / (maxRowSum A * maxNorm x + maxNorm b + epsilon)

variable [IsStrictOrderedRing K]

/-- **What is measured** does not depend on the form in which a matrix is handed in. -/
theorem ofArgument_eq {A : Matrix (Fin n) (Fin n) K} {a : MatrixArgument K} (denotes : a.Denotes A)
    (b x : Fin n → K) {epsilon : K} (positive : 0 < epsilon) :
    ofArgument a (List.ofFn b) (List.ofFn x) epsilon = .ok (ofMatrix A b x epsilon) := by
  obtain ⟨entries, read, rfl⟩ := denotes.exists_entries
  let S : Sparse K := ⟨n, n, entries⟩
  have scale_pos := (maxNorm_nonneg _).trans_lt (maxNorm_residual_lt S.toMatrix b x positive)
  have kept : Scalar.eq (maxRowSum S.toMatrix * maxNorm x + maxNorm b + epsilon) 0 = false := by
    simpa using scale_pos.ne'
  rw [ofArgument, read]
  show measure S (List.ofFn b) (List.ofFn x) epsilon = _
  simp only [measure, components?_ofFn S, scale_ofFn S, kept, norm, Scalar.dot_ofFn]
  rfl

theorem sound_ofMatrix (A : Matrix (Fin n) (Fin n) K) (b x : Fin n → K) {epsilon : K}
    (positive : 0 < epsilon) : Sound A b x (ofMatrix A b x epsilon) := by
  have below := maxNorm_residual_lt A b x positive
  have scale_pos := (maxNorm_nonneg _).trans_lt below
  have largest_eq_zero : maxNorm (A *ᵥ x - b) = 0 ↔ A *ᵥ x = b := by
    rw [maxNorm_eq_zero_iff, sub_eq_zero]
  constructor
  · exact fun c nonneg => maxNorm_le_iff (A *ᵥ x - b) nonneg
  · exact largest_eq_zero
  · exact div_nonneg (maxNorm_nonneg _) scale_pos.le
  · exact (div_lt_one scale_pos).2 below
  · rw [ofMatrix, div_eq_zero_iff, or_iff_left scale_pos.ne']
    exact largest_eq_zero

theorem euclideanSound_ofMatrix (A : Matrix (Fin n) (Fin n) K) (b x : Fin n → K) (epsilon : K)
    (root : ExactRoot ((A *ᵥ x - b) ⬝ᵥ (A *ᵥ x - b))) :
    EuclideanSound A b x (ofMatrix A b x epsilon) := by
  have square := root.square
  constructor
  · exact root.nonneg
  · rw [ofMatrix, pow_two, square]
    simp only [dotProduct, Pi.sub_apply, pow_two]
  · rw [ofMatrix, maxNorm_le_iff _ root.nonneg]
    intro i
    apply abs_le_of_sq_le_sq _ root.nonneg
    rw [pow_two, pow_two, square]
    exact Finset.single_le_sum (fun j _ => mul_self_nonneg ((A *ᵥ x - b) j)) (Finset.mem_univ i)
  · rw [ofMatrix, ← mul_self_eq_zero, square, dotProduct_self_eq_zero, sub_eq_zero]

/-- **Residuals are measured soundly**, in whatever form the matrix is handed in. -/
theorem measures_sound (A : Matrix (Fin n) (Fin n) K) (b x : Fin n → K) {epsilon : K}
    (positive : 0 < epsilon) :
    (∀ a : MatrixArgument K, a.Denotes A →
      ofArgument a (List.ofFn b) (List.ofFn x) epsilon = .ok (ofMatrix A b x epsilon)) ∧
    Sound A b x (ofMatrix A b x epsilon) ∧
    (ExactRoot ((A *ᵥ x - b) ⬝ᵥ (A *ᵥ x - b)) → EuclideanSound A b x (ofMatrix A b x epsilon)) := by
  refine ⟨?_, sound_ofMatrix A b x positive, euclideanSound_ofMatrix A b x epsilon⟩
  intro a denotes
  exact ofArgument_eq denotes b x positive

/-- One matrix in its three forms, with one result. -/
theorem measures_sound_repeated : 0 < (3 : ℚ) ∧ ∃ measures : Residual ℚ,
    (measures.euclidean = 5 ∧ measures.largest = 4 ∧ measures.relative = 1 / 7) ∧
      ofArgument (.triplets repeated) [11, 3] [1, 1] 3 = .ok measures ∧
      ofArgument (.view repeated.view) [11, 3] [1, 1] 3 = .ok measures ∧
      ofArgument (.sparse ⟨2, 2, [⟨0, 0, 9⟩, ⟨0, 1, 7⟩, ⟨1, 0, 7⟩, ⟨0, 0, -2⟩]⟩) [11, 3] [1, 1] 3 =
        .ok measures ∧
      EuclideanSound !![7, 7; 7, 0] ![11, 3] ![1, 1] measures := by
  have positive : (0 : ℚ) < 3 := by decide
  have shares : ∀ i j, (repeated.entries.map fun e => e.share i j).sum = !![7, 7; 7, 0] i j := by
    intro i j
    fin_cases i <;> fin_cases j <;> decide +kernel
  have sums : Sparse.toMatrix ⟨2, 2, [⟨0, 0, 9⟩, ⟨0, 1, 7⟩, ⟨1, 0, 7⟩, ⟨0, 0, -2⟩]⟩ =
      !![(7 : ℚ), 7; 7, 0] := by
    ext i j
    fin_cases i <;> fin_cases j <;> decide +kernel
  have root : ExactRoot ((!![7, 7; 7, 0] *ᵥ ![(1 : ℚ), 1] - ![11, 3]) ⬝ᵥ
      (!![7, 7; 7, 0] *ᵥ ![1, 1] - ![11, 3])) :=
    ⟨by decide +kernel, by decide +kernel⟩
  obtain ⟨same, -, euclidean⟩ := measures_sound !![7, 7; 7, 0] ![11, 3] ![1, 1] positive
  refine ⟨positive, ofMatrix !![7, 7; 7, 0] ![11, 3] ![1, 1] 3, ?_, ?_, ?_, ?_, euclidean root⟩
  · decide +kernel
  · exact same _ (.triplets repeated.entries 1 shares)
  · exact same _ (.view repeated.entries 1 shares)
  · exact same _ (.sparse _ sums)

end Residual

/-! ## Real numbers -/

noncomputable instance : Powers ℝ where
  sqrt := Real.sqrt
  pow := Real.rpow

/-- Over the reals every root that can be asked for is exact. -/
theorem exactRoot_real {a : ℝ} (nonneg : 0 ≤ a) : ExactRoot a :=
  ⟨Real.sqrt_nonneg a, Real.mul_self_sqrt nonneg⟩

/-- Over the reals the Euclidean norm of a residual is always what it is called. -/
theorem Residual.euclideanSound_real (A : Matrix (Fin n) (Fin n) ℝ) (b x : Fin n → ℝ)
    (epsilon : ℝ) : EuclideanSound A b x (ofMatrix A b x epsilon) := by
  apply euclideanSound_ofMatrix
  apply exactRoot_real
  exact Finset.sum_nonneg fun i _ => mul_self_nonneg ((A *ᵥ x - b) i)

end SymSolve
