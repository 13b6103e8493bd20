import Mathlib.LinearAlgebra.Matrix.Block
import Mathlib.Tactic.LinearCombination
import SymSolve.Ldl.Factor
import SymSolve.Proofs.Systems

/-!
# Symmetric indefinite factorization over exact scalars

**Theorem (`factor?_factorizes`).** The factors of a symmetric table multiply to the table with its
rows and columns permuted: `A[perm, perm] = L D Lᵀ`. The rows are permuted, none is lost; `L` is
unit lower triangular, and no two blocks of `D` overlap.

Each pass of the elimination splits off one row or two, and what is left is symmetric again. So the
proof has a lemma for the choice of the pivot, one for each kind of pass (`eliminate_spec`,
`eliminatePair?_spec`) and one for each way to put factors together (`Factorizes.extend`,
`Factorizes.extendPair`).
-/

namespace SymSolve

open Matrix

variable {K : Type} [Field K] {n : Nat}

@[elab_as_elim]
theorem pairCases {motive : Fin (n + 2) → Prop} (first : motive leading)
    (second : motive leading.succ) (later : ∀ i : Fin n, motive i.succ.succ) (i : Fin (n + 2)) :
    motive i :=
  leadingCases first (leadingCases second later) i

theorem det_submatrix_of_injective {e : Fin n → Fin n} (distinct : Function.Injective e)
    (M : Matrix (Fin n) (Fin n) K) : (M.submatrix e e).det = M.det :=
  have onto := Finite.injective_iff_bijective.1 distinct
  det_submatrix_equiv_self (Equiv.ofBijective e onto) M

/-! ## Symmetric tables -/

namespace Dense

/-- The table is equal to its transpose. -/
def Symmetric {α : Type} (A : Dense n α) : Prop := ∀ i j, A.get i j = A.get j i

theorem Symmetric.exchange {α : Type} {A : Dense n α} (h : A.Symmetric) (r s : Fin n) :
    (A.exchange r s).Symmetric := fun i j => by
  simpa [Dense.exchange] using h _ _

theorem Symmetric.select {α : Type} {A : Dense n α} (h : A.Symmetric) {m : Nat}
    (order : Vector (Fin n) m) : (A.select order).Symmetric := fun i j => by
  simpa [Dense.select] using h _ _

theorem get_exchange {α : Type} (A : Dense n α) (r s i j : Fin n) :
    (A.exchange r s).get i j = A.get (SymSolve.exchange r s i) (SymSolve.exchange r s j) := by
  simp [Dense.exchange]

end Dense

/-! ## The block diagonal -/

/-- The symmetric matrix with a diagonal and the entries of `coupling` below it. The last entry of
`coupling` has no place. -/
def tridiagonal (diagonal coupling : Vector K n) : Matrix (Fin n) (Fin n) K :=
  Matrix.of fun i j =>
    if i = j then diagonal.get i
    else if i.val = j.val + 1 then coupling.get j
    else if j.val = i.val + 1 then coupling.get i
    else 0

section Tridiagonal

variable (p c : K) (diagonal coupling : Vector K n)

@[simp] theorem tridiagonal_leading :
    tridiagonal (pushFront p diagonal) (pushFront c coupling) leading leading = p := by
  simp [tridiagonal]

@[simp] theorem tridiagonal_leading_succ (j : Fin n) :
    tridiagonal (pushFront p diagonal) (pushFront 0 coupling) leading j.succ = 0 := by
  simp [tridiagonal]

@[simp] theorem tridiagonal_succ_leading (i : Fin n) :
    tridiagonal (pushFront p diagonal) (pushFront 0 coupling) i.succ leading = 0 := by
  simp [tridiagonal]

@[simp] theorem tridiagonal_succ_succ (i j : Fin n) :
    tridiagonal (pushFront p diagonal) (pushFront c coupling) i.succ j.succ =
      tridiagonal diagonal coupling i j := by
  simp [tridiagonal]

section Pair

variable (diagonal coupling : Vector K (n + 1))

@[simp] theorem tridiagonal_leading_second :
    tridiagonal (pushFront p diagonal) (pushFront c coupling) leading leading.succ = c := by
  simp [tridiagonal]

@[simp] theorem tridiagonal_second_leading :
    tridiagonal (pushFront p diagonal) (pushFront c coupling) leading.succ leading = c := by
  simp [tridiagonal]

@[simp] theorem tridiagonal_leading_later (j : Fin n) :
    tridiagonal (pushFront p diagonal) (pushFront c coupling) leading j.succ.succ = 0 := by
  simp [tridiagonal]

@[simp] theorem tridiagonal_later_leading (i : Fin n) :
    tridiagonal (pushFront p diagonal) (pushFront c coupling) i.succ.succ leading = 0 := by
  simp [tridiagonal]

end Pair

end Tridiagonal

namespace Ldl

/-- The block diagonal `D`. -/
def middle (F : Ldl n K) : Matrix (Fin n) (Fin n) K := tridiagonal F.diagonal F.coupling

@[simp] theorem tridiagonal_factors (F : Ldl n K) :
    tridiagonal F.diagonal F.coupling = F.middle := rfl

/-- What the factors of a table are. -/
structure Factorizes (F : Ldl n K) (A : Dense n K) : Prop where
  /-- No row stands in two places. -/
  distinct : Function.Injective F.perm.get
  unit : ∀ i j, i ≤ j → F.lower.get i j = if i = j then 1 else 0
  /-- A place is in at most one block. -/
  separate : ∀ i j : Fin n, j.val = i.val + 1 → F.coupling.get i = 0 ∨ F.coupling.get j = 0
  product : ∀ i j, A.get (F.perm.get i) (F.perm.get j) =
    ∑ k, ∑ l, F.lower.get i k * F.middle k l * F.lower.get j l

namespace Factorizes

variable {F : Ldl n K} {A : Dense n K}

theorem submatrix_eq (h : F.Factorizes A) :
    A.toMatrix.submatrix F.perm.get F.perm.get =
      F.lower.toMatrix * F.middle * F.lower.toMatrixᵀ := by
  ext i j
  simp only [submatrix_apply, Dense.toMatrix_apply, h.product, mul_apply, transpose_apply,
    Finset.sum_mul]
  exact Finset.sum_comm

theorem det_lower (h : F.Factorizes A) : F.lower.toMatrix.det = 1 := by
  rw [det_of_isLowerTriangular]
  · exact Finset.prod_eq_one fun i _ => by simp [h.unit i i (le_refl i)]
  · intro i j (above : i < j)
    simp [h.unit i j above.le, above.ne]

/-- The table is as regular as its block diagonal. -/
theorem det_middle (h : F.Factorizes A) : F.middle.det = A.toMatrix.det := by
  rw [← det_submatrix_of_injective h.distinct A.toMatrix, h.submatrix_eq, det_mul, det_mul, det_transpose,
    h.det_lower, one_mul, mul_one]

/-- Substitution, the block diagonal and substitution again solve a system. -/
theorem solves (h : F.Factorizes A) {b x y z : Fin n → K}
    (forward : F.lower.toMatrix *ᵥ y = b ∘ F.perm.get) (middle : F.middle *ᵥ z = y)
    (backward : F.lower.toMatrixᵀ *ᵥ (x ∘ F.perm.get) = z) : A.toMatrix *ᵥ x = b := by
  refine Dense.mulVec_of_submatrix h.distinct ?_ rfl
  rw [h.submatrix_eq, ← mulVec_mulVec, ← mulVec_mulVec, backward, middle, forward]

end Factorizes

/-! ## Putting factors together -/

variable [LinearOrder K] [FloorRing K]

section Extend

variable (place : Fin (n + 1) → Fin (n + 1)) (pivot : K) (multiplier : Vector K n) (F : Ldl n K)

@[simp] theorem perm_extend_leading :
    (extend place pivot multiplier F).perm.get leading = place leading := pushFront_leading ..

@[simp] theorem perm_extend_succ (i : Fin n) :
    (extend place pivot multiplier F).perm.get i.succ = place (F.perm.get i).succ :=
  (pushFront_succ ..).trans (by simp [Vector.get])

@[simp] theorem lower_extend_leading (j : Fin (n + 1)) :
    (extend place pivot multiplier F).lower.get leading j = if j = leading then 1 else 0 := by
  simp [extend, leading_eq_zero]

@[simp] theorem lower_extend_succ_leading (i : Fin n) :
    (extend place pivot multiplier F).lower.get i.succ leading =
      multiplier.get (F.perm.get i) := by
  simp [extend, leading_eq_zero]

@[simp] theorem lower_extend_succ_succ (i j : Fin n) :
    (extend place pivot multiplier F).lower.get i.succ j.succ = F.lower.get i j := by
  simp [extend]

@[simp] theorem middle_extend :
    (extend place pivot multiplier F).middle =
      tridiagonal (pushFront pivot F.diagonal) (pushFront 0 F.coupling) := rfl

end Extend

section ExtendPair

variable (place : Fin (n + 2) → Fin (n + 2)) (pivot : Pair K) (multiplier : Vector (K × K) n)
  (F : Ldl n K)

@[simp] theorem perm_extendPair_leading :
    (extendPair place pivot multiplier F).perm.get leading = place leading := pushFront_leading ..

@[simp] theorem perm_extendPair_second :
    (extendPair place pivot multiplier F).perm.get leading.succ = place leading.succ :=
  (pushFront_succ ..).trans (pushFront_leading ..)

@[simp] theorem perm_extendPair_succ (i : Fin n) :
    (extendPair place pivot multiplier F).perm.get i.succ.succ = place (F.perm.get i).succ.succ :=
  ((pushFront_succ ..).trans (pushFront_succ ..)).trans (by simp [Vector.get])

@[simp] theorem lower_extendPair_leading (j : Fin (n + 2)) :
    (extendPair place pivot multiplier F).lower.get leading j = if j = leading then 1 else 0 := by
  simp [extendPair, leading_eq_zero]

@[simp] theorem lower_extendPair_second (j : Fin (n + 2)) :
    (extendPair place pivot multiplier F).lower.get leading.succ j =
      if j = leading.succ then 1 else 0 := Dense.get_ofFn ..

@[simp] theorem lower_extendPair_succ_leading (i : Fin n) :
    (extendPair place pivot multiplier F).lower.get i.succ.succ leading =
      (multiplier.get (F.perm.get i)).1 := by
  simp [extendPair, leading_eq_zero]

@[simp] theorem lower_extendPair_succ_second (i : Fin n) :
    (extendPair place pivot multiplier F).lower.get i.succ.succ leading.succ =
      (multiplier.get (F.perm.get i)).2 := Dense.get_ofFn ..

@[simp] theorem lower_extendPair_succ_succ (i j : Fin n) :
    (extendPair place pivot multiplier F).lower.get i.succ.succ j.succ.succ = F.lower.get i j := by
  simp [extendPair]

@[simp] theorem middle_extendPair :
    (extendPair place pivot multiplier F).middle =
      tridiagonal (pushFront pivot.a (pushFront pivot.d F.diagonal))
        (pushFront pivot.c (pushFront 0 F.coupling)) := rfl

end ExtendPair

variable {A : Dense (n + 1) K} {rest : Dense n K} {F : Ldl n K}

/-- The factors of what one eliminated row leaves give factors of the table. -/
theorem Factorizes.extend (h : F.Factorizes rest) {place : Fin (n + 1) → Fin (n + 1)}
    (moved : Function.Injective place) {pivot : K} {multiplier : Vector K n}
    (front : A.get (place leading) (place leading) = pivot)
    (row : ∀ i : Fin n, A.get (place leading) (place i.succ) = multiplier.get i * pivot)
    (column : ∀ i : Fin n, A.get (place i.succ) (place leading) = multiplier.get i * pivot)
    (left : ∀ i j : Fin n, A.get (place i.succ) (place j.succ) =
      rest.get i j + multiplier.get i * pivot * multiplier.get j) :
    (extend place pivot multiplier F).Factorizes A where
  distinct i j := by
    cases i using leadingCases <;> cases j using leadingCases <;>
      simp [moved.eq_iff, h.distinct.eq_iff]
  unit i j below := by
    cases i using leadingCases with
    | first => simp [eq_comm]
    | later i =>
      cases j using leadingCases with
      | first => simp [leading_eq_zero] at below
      | later j => simpa using h.unit i j (by simpa using below)
  separate i j next := by
    cases i using leadingCases with
    | first => exact .inl (pushFront_leading ..)
    | later i =>
      cases j using leadingCases with
      | first => simp at next
      | later j => simpa [Ldl.extend] using h.separate i j (by simpa using next)
  product i j := by
    cases i using leadingCases <;> cases j using leadingCases <;>
      simp [sum_leading, front, row, column, left, h.product]
    · exact mul_comm ..
    · exact add_comm ..

/-- The factors of what two eliminated rows leave give factors of the table. -/
theorem Factorizes.extendPair {A : Dense (n + 2) K} {rest : Dense n K} {F : Ldl n K}
    (h : F.Factorizes rest) {place : Fin (n + 2) → Fin (n + 2)}
    (moved : Function.Injective place) {p : Pair K} {multiplier : Vector (K × K) n}
    (front : A.get (place leading) (place leading) = p.a)
    (second : A.get (place leading.succ) (place leading.succ) = p.d)
    (coupled : A.get (place leading) (place leading.succ) = p.c)
    (symmetric : A.Symmetric)
    (column : ∀ i : Fin n, A.get (place i.succ.succ) (place leading) =
      (multiplier.get i).1 * p.a + (multiplier.get i).2 * p.c)
    (next : ∀ i : Fin n, A.get (place i.succ.succ) (place leading.succ) =
      (multiplier.get i).1 * p.c + (multiplier.get i).2 * p.d)
    (left : ∀ i j : Fin n, A.get (place i.succ.succ) (place j.succ.succ) = rest.get i j +
      ((multiplier.get i).1 * A.get (place j.succ.succ) (place leading) +
        (multiplier.get i).2 * A.get (place j.succ.succ) (place leading.succ))) :
    (extendPair place p multiplier F).Factorizes A where
  distinct i j := by
    cases i using pairCases <;> cases j using pairCases <;>
      simp [moved.eq_iff, h.distinct.eq_iff]
  unit i j below := by
    cases i using pairCases with
    | first => simp [eq_comm]
    | second => simp [eq_comm]
    | later i =>
      cases j using pairCases with
      | first => simp [Fin.le_def] at below
      | second => simp [Fin.le_def] at below
      | later j => simpa using h.unit i j (by simpa using below)
  separate i j next := by
    cases i using pairCases with
    | first =>
      cases j using pairCases with
      | first => simp at next
      | second => exact .inr ((pushFront_succ ..).trans (pushFront_leading ..))
      | later j => simp at next
    | second => exact .inl ((pushFront_succ ..).trans (pushFront_leading ..))
    | later i =>
      cases j using pairCases with
      | first => simp at next
      | second => simp at next
      | later j => simpa [Ldl.extendPair] using h.separate i j (by simpa using next)
  product i j := by
    have coupled' : A.get (place leading.succ) (place leading) = p.c :=
      (symmetric ..).trans coupled
    have row (i : Fin n) := (symmetric (place leading) (place i.succ.succ)).trans (column i)
    have row' (i : Fin n) := (symmetric (place leading.succ) (place i.succ.succ)).trans (next i)
    cases i using pairCases <;> cases j using pairCases <;>
      simp [sum_leading, front, second, coupled, coupled', row, row', column, next, left, h.product]
    all_goals ring

end Ldl

/-! ## One row -/

variable [LinearOrder K] [FloorRing K]

theorem Dense.eliminate_spec {B : Dense (n + 1) K}
    (zeros : B.get leading leading = 0 → ∀ i : Fin n, B.get i.succ leading = 0) :
    (∀ i : Fin n, B.get i.succ leading = B.eliminate.1.get i * B.get leading leading) ∧
      ∀ i j : Fin n, B.get i.succ j.succ =
        B.eliminate.2.get i j + B.eliminate.1.get i * B.get j.succ leading := by
  unfold eliminate
  by_cases zero : B.get leading leading = 0
  · simp [zero, zeros zero, trailing]
  · simp [zero]

theorem Dense.Symmetric.eliminate {B : Dense (n + 1) K} (h : B.Symmetric)
    (zeros : B.get leading leading = 0 → ∀ i : Fin n, B.get i.succ leading = 0) :
    B.eliminate.2.Symmetric := fun i j => by
  obtain ⟨column, left⟩ := B.eliminate_spec zeros
  have upper := left i j
  rw [h, left j i, column, column] at upper
  linear_combination -upper

variable [IsStrictOrderedRing K]

/-- What is looked up before a pivot is chosen: the row `r` of the largest entry below the first, and
the largest other entry in the column of that row. -/
structure Pivot.Candidate (A : Dense (n + 2) K) (r : Fin (n + 1)) (rival : K) : Prop where
  below : ∀ i : Fin (n + 1), |A.get i.succ leading| ≤ |A.get r.succ leading|
  beside : ∀ i, i ≠ r.succ → |A.get i r.succ| ≤ rival
  attained : ∃ i, i ≠ r.succ ∧ |A.get i r.succ| = rival

/-- The tests a pivot has passed, and those that failed before. -/
inductive Pivot.Accepts (bound : K) (A : Dense (n + 2) K) (r : Fin (n + 1)) (rival : K) :
    Pivot n → Prop
  /-- The first entry is large enough against those below it, or there are only zeros below it. -/
  | direct (accepted : A.get r.succ leading = 0 ∨
      A.get leading leading ≠ 0 ∧ bound * |A.get r.succ leading| ≤ |A.get leading leading|) :
      Accepts bound A r rival (.single leading)
  /-- The first entry is small, but the largest below it is small against its rival. -/
  | tested (regular : A.get leading leading ≠ 0)
      (accepted : bound * |A.get r.succ leading| * |A.get r.succ leading| ≤
        |A.get leading leading| * rival) :
      Accepts bound A r rival (.single leading)
  /-- The diagonal entry of the other row is large enough against the rival. -/
  | swapped (regular : A.get r.succ r.succ ≠ 0) (accepted : bound * rival ≤ |A.get r.succ r.succ|) :
      Accepts bound A r rival (.single r.succ)
  /-- Neither diagonal entry will do. -/
  | paired (coupled : A.get r.succ leading ≠ 0)
      (weak : A.get leading leading = 0 ∨ |A.get leading leading| * rival <
        bound * |A.get r.succ leading| * |A.get r.succ leading|)
      (unfit : A.get r.succ r.succ ≠ 0 → |A.get r.succ r.succ| < bound * rival) :
      Accepts bound A r rival (.pair r)

/-- How a pivot is chosen. -/
theorem Pivot.exists_accepts (bound : K) (A : Dense (n + 2) K) :
    ∃ r rival, Candidate A r rival ∧ Accepts bound A r rival (choose bound A) := by
  have largest := le_largestAt fun i : Fin (n + 1) => Scalar.abs (A.get i.succ leading)
  unfold choose
  extract_lets below r top first isZero others rival diagonal
  have beside (i : Fin (n + 2)) (other : i ≠ r.succ) : |A.get i r.succ| ≤ rival := by
    have le : others i ≤ rival := le_largestAt others i
    rwa [show others i = |A.get i r.succ| from if_neg other] at le
  have attained : ∃ i, i ≠ r.succ ∧ |A.get i r.succ| = rival := by
    by_cases own : largestAt others = r.succ
    · -- a rival of size zero is found at the candidate itself, and then every entry is zero
      have none : rival = 0 := if_pos own
      have front : leading ≠ r.succ := (Fin.succ_ne_zero r).symm
      exact ⟨leading, front, le_antisymm (beside leading front) (none ▸ abs_nonneg _)⟩
    · exact ⟨largestAt others, own, (if_neg own).symm⟩
  refine ⟨r, rival, ⟨largest, beside, attained⟩, ?_⟩
  have top_eq : top = |A.get r.succ leading| := rfl
  clear_value rival r
  simp only [isZero, first, diagonal, top_eq, Scalar.abs_eq, Bool.and_eq_true, Bool.or_eq_true,
    Bool.not_eq_true', Bool.and_eq_false_imp, Scalar.lt_iff, Scalar.eq_iff, Scalar.eq_eq_false_iff,
    Scalar.le_eq_false_iff, Scalar.le_iff, abs_pos]
  split_ifs with small weak fits
  · exact .swapped fits.1 fits.2
  · exact .paired small.1 weak fun regular => not_le.1 fun le => fits ⟨regular, le⟩
  · rw [not_or, not_lt] at weak
    exact .tested weak.1 weak.2
  · refine .direct ?_
    by_contra refused
    rw [not_or, not_and, not_le] at refused
    exact small ⟨refused.1, refused.2⟩

/-- A row that is eliminated with a zero pivot is the first one, and it stands above zeros. -/
theorem Pivot.zeros_of_choose {bound : K} {A : Dense (n + 2) K} {r : Fin (n + 2)}
    (chosen : Pivot.choose bound A = .single r) (zero : A.get r r = 0) :
    r = leading ∧ ∀ i : Fin (n + 1), A.get i.succ leading = 0 := by
  obtain ⟨s, rival, candidate, accepts⟩ := exists_accepts bound A
  rw [chosen] at accepts
  cases accepts with
  | direct accepted =>
    have none : A.get s.succ leading = 0 := accepted.resolve_right fun large => large.1 zero
    refine ⟨rfl, fun i => ?_⟩
    simpa [none] using candidate.below i
  | tested regular => exact absurd zero regular
  | swapped regular => exact absurd zero regular

theorem Pivot.zeros_of_exchange {bound : K} {A : Dense (n + 2) K} {r : Fin (n + 2)}
    (chosen : Pivot.choose bound A = .single r)
    (zero : (A.exchange leading r).get leading leading = 0) (i : Fin (n + 1)) :
    (A.exchange leading r).get i.succ leading = 0 := by
  rw [Dense.get_exchange, exchange_left] at zero
  obtain ⟨rfl, below⟩ := Pivot.zeros_of_choose chosen zero
  simpa [Dense.get_exchange] using below i

/-! ## Two rows -/

omit [LinearOrder K] [FloorRing K] [IsStrictOrderedRing K] in
/-- Elimination with the first row, and substitution. -/
theorem solve_two {a b c d : K} (first : a ≠ 0) (last : d - c / a * b ≠ 0) (y z : K) :
    a * ((y - b * ((z - c / a * y) / (d - c / a * b))) / a) +
        b * ((z - c / a * y) / (d - c / a * b)) = y ∧
      c * ((y - b * ((z - c / a * y) / (d - c / a * b))) / a) +
        d * ((z - c / a * y) / (d - c / a * b)) = z := by
  have second := div_mul_cancel₀ (z - c / a * y) last
  generalize (z - c / a * y) / (d - c / a * b) = w at second
  constructor
  · field_simp
    ring
  · field_simp at second ⊢
    linear_combination second

omit [IsStrictOrderedRing K] in
theorem Pair.solve_spec {m : Pair K} (regular : m.isSingular = false) (y z : K) :
    m.a * (m.solve y z).1 + m.b * (m.solve y z).2 = y ∧
      m.c * (m.solve y z).1 + m.d * (m.solve y z).2 = z := by
  obtain ⟨a, b, c, d⟩ := m
  simp only [isSingular, lastPivot, ordered, Bool.or_eq_false_iff, Scalar.eq_eq_false_iff] at regular
  unfold solve lastPivot ordered
  split_ifs at regular ⊢
  · exact (solve_two regular.1 regular.2 z y).symm
  · exact solve_two regular.1 regular.2 y z

omit [IsStrictOrderedRing K] in
theorem Dense.eliminatePair?_spec {B : Dense (n + 2) K} {multiplier : Vector (K × K) n}
    {rest : Dense n K} (h : B.eliminatePair? = some (multiplier, rest)) :
    (∀ i : Fin n, B.leadingPair.a * (multiplier.get i).1 + B.leadingPair.b * (multiplier.get i).2 =
        B.get i.succ.succ leading ∧
      B.leadingPair.c * (multiplier.get i).1 + B.leadingPair.d * (multiplier.get i).2 =
        B.get i.succ.succ leading.succ) ∧
      ∀ i j : Fin n, B.get i.succ.succ j.succ.succ = rest.get i j +
        ((multiplier.get i).1 * B.get j.succ.succ leading +
          (multiplier.get i).2 * B.get j.succ.succ leading.succ) := by
  unfold eliminatePair? at h
  dsimp only at h
  split at h
  · cases h
  · next regular =>
    cases h
    refine ⟨fun i => ?_, fun i j => by simp⟩
    rw [vector_get_ofFn]
    refine Pair.solve_spec ?_ _ _
    by_contra singular
    exact regular ⟨(Fin.pos i).ne', by simpa using singular⟩

omit [IsStrictOrderedRing K] in
theorem Dense.Symmetric.eliminatePair? {B : Dense (n + 2) K} (h : B.Symmetric)
    {multiplier : Vector (K × K) n} {rest : Dense n K}
    (eliminated : B.eliminatePair? = some (multiplier, rest)) : rest.Symmetric := fun i j => by
  obtain ⟨column, left⟩ := Dense.eliminatePair?_spec eliminated
  have coupled : B.leadingPair.b = B.leadingPair.c := h ..
  have upper := left i j
  rw [h, left j i, ← (column i).1, ← (column i).2, ← (column j).1, ← (column j).2,
    coupled] at upper
  linear_combination -upper

/-! ## All passes -/

namespace Ldl

omit [IsStrictOrderedRing K] in
theorem factorizes_empty (A : Dense 0 K) : (empty : Ldl 0 K).Factorizes A :=
  ⟨fun i => i.elim0, fun i => i.elim0, fun i => i.elim0, fun i => i.elim0⟩

omit [IsStrictOrderedRing K] in
theorem factorizes_ofEntry (A : Dense 1 K) :
    (ofEntry (A.get leading leading)).Factorizes A where
  distinct := Function.injective_of_subsingleton _
  unit i j _ := by
    obtain rfl := Subsingleton.elim i leading
    obtain rfl := Subsingleton.elim j leading
    simp [ofEntry, Dense.identity]
  separate i j next := by omega
  product i j := by
    obtain rfl := Subsingleton.elim i leading
    obtain rfl := Subsingleton.elim j leading
    have unit : (ofEntry (A.get leading leading)).lower.get leading 0 = 1 := rfl
    have entry : (ofEntry (A.get leading leading)).middle 0 0 = A.get leading leading := rfl
    rw [Fin.sum_univ_one, Fin.sum_univ_one, unit, entry, one_mul, mul_one]
    rfl

theorem factor?_factorizes {bound : K} {A : Dense n K} {F : Ldl n K} (symmetric : A.Symmetric)
    (h : factor? bound A = some F) : F.Factorizes A := by
  fun_induction factor? bound A with
  | case1 A =>
    cases h
    exact factorizes_empty A
  | case2 A =>
    cases h
    exact factorizes_ofEntry A
  | case3 n r multiplier rest A chosen B eliminated =>
    rename_i ih
    obtain ⟨G, found, rfl⟩ := Option.map_eq_some_iff.1 h
    have moved : ∀ i j, B.get i j = _ := A.get_exchange leading r
    have symB : B.Symmetric := symmetric.exchange leading r
    obtain ⟨column, left⟩ := B.eliminate_spec (Pivot.zeros_of_exchange chosen)
    have symRest := symB.eliminate (Pivot.zeros_of_exchange chosen)
    simp only [eliminated] at column left symRest
    refine (ih symRest found).extend (exchange_injective ..) (moved ..).symm (fun i => ?_)
      (fun i => ?_) fun i j => ?_
    · rw [← moved, symB, column]
    · rw [← moved, column]
    · rw [← moved, left, column]
      ring
  | case4 => cases h
  | case5 n r multiplier rest A _ B eliminated =>
    rename_i ih
    obtain ⟨G, found, rfl⟩ := Option.map_eq_some_iff.1 h
    have moved : ∀ i j, B.get i j = _ := A.get_exchange leading.succ r.succ
    have symB : B.Symmetric := symmetric.exchange leading.succ r.succ
    obtain ⟨column, left⟩ := Dense.eliminatePair?_spec eliminated
    have coupled : B.leadingPair.b = B.leadingPair.c := symB ..
    refine (ih (symB.eliminatePair? eliminated) found).extendPair (exchange_injective ..)
      (moved ..).symm (moved ..).symm ((moved ..).symm.trans coupled) symmetric (fun i => ?_)
      (fun i => ?_) fun i j => ?_
    · rw [← moved, ← (column i).1, coupled]
      ring
    · rw [← moved, ← (column i).2]
      ring
    · rw [← moved, ← moved, ← moved, left]

end Ldl

end SymSolve
