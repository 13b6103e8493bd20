import Mathlib.Algebra.BigOperators.Fin
import Mathlib.LinearAlgebra.Matrix.ToLin
import Mathlib.Tactic.FieldSimp
import Mathlib.Tactic.Ring
import SymSolve.Dense.Systems
import SymSolve.Proofs.Exact

/-!
# Linear systems over exact scalars

Tables are matrices and vectors are functions here, and what the algorithms compute are solutions.

* `forward_solves` and `backward_solves`: substitution with a unit lower triangle and with its
  transpose.
* `solve?_solves` and `exists_solve?`: elimination with row pivoting, where it ends, and that it
  does if only zero is mapped to zero.
-/

namespace SymSolve

open Matrix

variable {K : Type} [Field K] {n : Nat}

@[simp] theorem val_leading : (leading : Fin (n + 1)).val = 0 := rfl

@[simp] theorem leading_ne_succ (i : Fin n) : leading ≠ i.succ := (Fin.succ_ne_zero i).symm

@[simp] theorem succ_ne_leading (i : Fin n) : i.succ ≠ leading := Fin.succ_ne_zero i

@[elab_as_elim]
theorem leadingCases {motive : Fin (n + 1) → Prop} (first : motive leading)
    (later : ∀ i : Fin n, motive i.succ) (i : Fin (n + 1)) : motive i :=
  Fin.cases first later i

theorem sum_leading {M : Type} [AddCommMonoid M] (f : Fin (n + 1) → M) :
    ∑ i, f i = f leading + ∑ i : Fin n, f i.succ := Fin.sum_univ_succ f

/-! ## Vectors by their first entry -/

theorem toList_eq_ofFn {α : Type} (v : Vector α n) : v.toList = List.ofFn v.get :=
  List.ext_getElem (by simp) fun i _ _ => by simp [Vector.get]

theorem toList_pushFront {α : Type} (a : α) (v : Vector α n) :
    (pushFront a v).toList = a :: v.toList := by
  refine List.ext_getElem (by simp) fun i _ _ => ?_
  cases i <;> simp [pushFront, Vector.get]

theorem exists_pushFront {α : Type} (v : Vector α (n + 1)) : ∃ a w, v = pushFront a w := by
  refine ⟨v.get leading, tail v, Vector.ext fun i hi => ?_⟩
  show v.get ⟨i, hi⟩ = (pushFront (v.get leading) (tail v)).get ⟨i, hi⟩
  generalize (⟨i, hi⟩ : Fin (n + 1)) = i
  cases i using leadingCases <;> simp

/-! ## Exchanges -/

@[simp] theorem exchange_left (i j : Fin n) : exchange i j i = j := if_pos rfl

@[simp] theorem exchange_self (i a : Fin n) : exchange i i a = a := by
  unfold exchange
  split_ifs <;> simp_all

@[simp] theorem exchange_exchange (i j a : Fin n) : exchange i j (exchange i j a) = a := by
  unfold exchange
  split_ifs <;> simp_all

theorem exchange_injective (i j : Fin n) : Function.Injective (exchange i j) :=
  Function.LeftInverse.injective (exchange_exchange i j)

/-! ## Tables as matrices -/

namespace Dense

/-- The table as a matrix. -/
def toMatrix {α : Type} (A : Dense n α) : Matrix (Fin n) (Fin n) α := Matrix.of A.get

@[simp] theorem toMatrix_apply {α : Type} (A : Dense n α) (i j : Fin n) :
    A.toMatrix i j = A.get i j := rfl

theorem toMatrix_select {α : Type} {m : Nat} (A : Dense n α) (order : Vector (Fin n) m) :
    (A.select order).toMatrix = A.toMatrix.submatrix order.get order.get := by
  ext i j
  simp [select]

theorem ext_get {α : Type} {A B : Dense n α} (h : ∀ i j, A.get i j = B.get i j) : A = B := by
  obtain ⟨a⟩ := A
  obtain ⟨b⟩ := B
  refine congrArg Dense.mk (Vector.ext fun i hi => Vector.ext fun j hj => ?_)
  exact h ⟨i, hi⟩ ⟨j, hj⟩

theorem mem_toList {α : Type} {A : Dense n α} {a : α} :
    a ∈ A.toList ↔ ∃ i j, A.get i j = a := by
  simp only [toList, List.mem_flatMap, Vector.mem_toList_iff, Vector.mem_iff_getElem]
  constructor
  · rintro ⟨-, ⟨i, hi, rfl⟩, j, hj, rfl⟩
    exact ⟨⟨i, hi⟩, ⟨j, hj⟩, rfl⟩
  · rintro ⟨i, j, rfl⟩
    exact ⟨_, ⟨i, i.isLt, rfl⟩, j, j.isLt, rfl⟩

/-- The entries below the diagonal, ones on it and zeros above. -/
def unitLower (L : Dense n K) : Matrix (Fin n) (Fin n) K :=
  Matrix.of fun i j => if j < i then L.get i j else if i = j then 1 else 0

@[simp] theorem unitLower_leading (L : Dense (n + 1) K) : L.unitLower leading leading = 1 := by
  simp [unitLower]

@[simp] theorem unitLower_leading_succ (L : Dense (n + 1) K) (j : Fin n) :
    L.unitLower leading j.succ = 0 := by
  simp [unitLower, leading_eq_zero, (Fin.succ_ne_zero j).symm]

@[simp] theorem unitLower_succ_leading (L : Dense (n + 1) K) (i : Fin n) :
    L.unitLower i.succ leading = L.get i.succ leading := by
  simp [unitLower, leading_eq_zero]

@[simp] theorem unitLower_succ_succ (L : Dense (n + 1) K) (i j : Fin n) :
    L.unitLower i.succ j.succ = L.trailing.unitLower i j := by
  simp [unitLower, trailing]

theorem mulVec_leading {R m : Type} [NonUnitalNonAssocSemiring R] (M : Matrix m (Fin (n + 1)) R)
    (x : Fin (n + 1) → R) (i : m) :
    (M *ᵥ x) i = M i leading * x leading + ∑ j : Fin n, M i j.succ * x j.succ :=
  sum_leading fun j => M i j * x j

/-- A solution of a system whose equations and unknowns are renamed. -/
theorem mulVec_of_submatrix {M : Matrix (Fin n) (Fin n) K} {e : Fin n → Fin n}
    (distinct : Function.Injective e) {x y b : Fin n → K}
    (h : M.submatrix e e *ᵥ x = b ∘ e) (same : y ∘ e = x) : M *ᵥ y = b := by
  have onto := Finite.injective_iff_bijective.1 distinct
  have renamed := submatrix_mulVec_equiv M x e (Equiv.ofBijective e onto)
  have back : x ∘ (Equiv.ofBijective e onto).symm = y := by
    rw [Equiv.comp_symm_eq]
    exact same.symm
  rw [back] at renamed
  exact onto.2.injective_comp_right (renamed.symm.trans h)

/-- Exchanging rows on both sides of a system leaves its solutions. -/
theorem mulVec_exchangeRows {A : Dense n K} (r s : Fin n) {x : Fin n → K} {b : Vector K n}
    (h : ∀ i, ((A.exchangeRows r s).toMatrix *ᵥ x) i = b.get (SymSolve.exchange r s i)) :
    A.toMatrix *ᵥ x = b.get := by
  funext i
  have row := h (SymSolve.exchange r s i)
  simp only [Matrix.mulVec, dotProduct, toMatrix_apply, exchangeRows, get_ofFn,
    exchange_exchange] at row
  exact row

end Dense

/-! ## Sums -/

variable [LinearOrder K] [FloorRing K]

namespace Scalar

theorem sum_eq (as : List K) : Scalar.sum as = as.sum := by
  rw [List.sum_eq_foldl]
  rfl

theorem dot_eq (f : Fin n → K) (x : Vector K n) :
    dot ((List.finRange n).map f) x.toList = ∑ i, f i * x.get i := by
  rw [dot, sum_eq, toList_eq_ofFn, List.ofFn_eq_map, List.zipWith_map, List.zipWith_self,
    Fin.sum_univ_def]

end Scalar

/-! ## The largest of several -/

/-- A later one takes the place of the best so far only if it is larger. -/
theorem largestAt_foldl (f : Fin (n + 1) → K) (places : List (Fin (n + 1))) (best : Fin (n + 1)) :
    (f best ≤ f (places.foldl (fun best i => if outranks (f i) (f best) then i else best) best)) ∧
      ∀ i ∈ places,
        f i ≤ f (places.foldl (fun best i => if outranks (f i) (f best) then i else best) best) := by
  induction places generalizing best with
  | nil => exact ⟨le_refl _, nofun⟩
  | cons j places ih =>
    obtain ⟨least, larger⟩ := ih (if outranks (f j) (f best) then j else best)
    simp only [List.foldl_cons, List.mem_cons, forall_eq_or_imp]
    by_cases beats : f best < f j
    · have wins : outranks (f j) (f best) = true := by simpa [outranks] using beats
      simp only [wins, if_true] at least larger ⊢
      exact ⟨beats.le.trans least, least, larger⟩
    · have loses : outranks (f j) (f best) = false := by simpa [outranks] using beats
      simp only [loses, Bool.false_eq_true, if_false] at least larger ⊢
      exact ⟨least, (not_lt.1 beats).trans least, larger⟩

theorem le_largestAt (f : Fin (n + 1) → K) (i : Fin (n + 1)) : f i ≤ f (largestAt f) :=
  (largestAt_foldl f (List.finRange (n + 1)) leading).2 i (List.mem_finRange i)

namespace Dense

/-! ## Substitution -/

theorem forward_solves {n : Nat} (L : Dense n K) (b : Vector K n) :
    L.unitLower *ᵥ (L.forward b).get = b.get := by
  induction n with
  | zero => exact funext fun i => i.elim0
  | succ n ih =>
    funext i
    rw [mulVec_leading _ _ i]
    cases i using leadingCases with
    | first =>
      simp [forward]
    | later i =>
      have below := congrFun (ih L.trailing
        (Vector.ofFn fun i => b.get i.succ - L.get i.succ leading * b.get leading)) i
      simp only [Matrix.mulVec, dotProduct, vector_get_ofFn] at below
      simp only [forward, unitLower_succ_leading, unitLower_succ_succ, pushFront_succ, below,
        pushFront_leading]
      ring

theorem backward_solves {n : Nat} (L : Dense n K) (b : Vector K n) :
    L.unitLowerᵀ *ᵥ (L.backward b).get = b.get := by
  induction n with
  | zero => exact funext fun i => i.elim0
  | succ n ih =>
    funext i
    rw [mulVec_leading _ _ i]
    cases i using leadingCases with
    | first =>
      simp [backward, Scalar.dot_eq]
    | later i =>
      have below := congrFun (ih L.trailing (tail b)) i
      simp only [Matrix.mulVec, dotProduct, get_tail, Matrix.transpose_apply] at below
      simp only [backward, Matrix.transpose_apply, unitLower_leading_succ, unitLower_succ_succ,
        pushFront_succ, below, zero_mul, zero_add]

/-! ## Elimination -/

theorem solve?_solves {n : Nat} {A : Dense n K} {b x : Vector K n} (h : A.solve? b = some x) :
    A.toMatrix *ᵥ x.get = b.get := by
  induction n with
  | zero => exact funext fun i => i.elim0
  | succ n ih =>
    unfold solve? at h
    dsimp only at h
    generalize largestAt (fun i => Scalar.abs (A.get i leading)) = r at h
    split at h
    · cases h
    next regular =>
    obtain ⟨y, solved, rfl⟩ := Option.map_eq_some_iff.1 h
    replace solved := ih solved
    have pivot : (A.exchangeRows leading r).get leading leading ≠ 0 := by simpa using regular
    refine mulVec_exchangeRows leading r fun i => ?_
    generalize A.exchangeRows leading r = B at pivot solved ⊢
    rw [mulVec_leading _ _ i]
    simp only [Scalar.dot_eq, vector_get_ofFn, toMatrix_apply, pushFront_leading, pushFront_succ]
    cases i using leadingCases with
    | first =>
      field_simp
      ring
    | later i =>
      have below := congrFun solved i
      simp only [Matrix.mulVec, dotProduct, toMatrix_apply, get_ofFn, vector_get_ofFn, sub_mul,
        Finset.sum_sub_distrib, mul_assoc, ← Finset.mul_sum] at below
      rw [eq_add_of_sub_eq below]
      field_simp
      ring

section Regular

variable [IsStrictOrderedRing K]

/-- Only zero is mapped to zero, so that the first column is not zero and the largest entry in it is
a pivot. -/
theorem exists_ne_zero_of_regular {n : Nat} {A : Dense (n + 1) K}
    (regular : ∀ x, A.toMatrix *ᵥ x = 0 → x = 0) :
    A.get (largestAt fun i => Scalar.abs (A.get i leading)) leading ≠ 0 := by
  have largest := le_largestAt fun i => Scalar.abs (A.get i leading)
  generalize largestAt (fun i => Scalar.abs (A.get i leading)) = r at largest ⊢
  intro zero
  have column (i : Fin (n + 1)) : A.get i leading = 0 := by simpa [zero] using largest i
  have kernel : A.toMatrix *ᵥ Pi.single leading 1 = 0 := by
    funext i
    simp [column]
  have := congrFun (regular _ kernel) leading
  simp at this

omit [LinearOrder K] [FloorRing K] [IsStrictOrderedRing K] in
/-- What a pivot leaves maps only zero to zero, too. -/
theorem regular_of_pivot {n : Nat} {B : Dense (n + 1) K} (pivot : B.get leading leading ≠ 0)
    (regular : ∀ x, B.toMatrix *ᵥ x = 0 → x = 0) {rest : Dense n K}
    (left : ∀ i j, rest.get i j = B.get i.succ j.succ -
      B.get i.succ leading / B.get leading leading * B.get leading j.succ)
    (y : Fin n → K) (h : rest.toMatrix *ᵥ y = 0) : y = 0 := by
  let above := -((∑ j, B.get leading j.succ * y j) / B.get leading leading)
  have kernel : B.toMatrix *ᵥ (pushFront above (Vector.ofFn y)).get = 0 := by
    funext i
    rw [mulVec_leading _ _ i]
    simp only [toMatrix_apply, pushFront_leading, pushFront_succ, vector_get_ofFn, above]
    cases i using leadingCases with
    | first =>
      field_simp
      simp
    | later i =>
      have below := congrFun h i
      simp only [Matrix.mulVec, dotProduct, toMatrix_apply, left, sub_mul,
        Finset.sum_sub_distrib, mul_assoc, ← Finset.mul_sum, Pi.zero_apply] at below
      rw [Pi.zero_apply, eq_of_sub_eq_zero below]
      field_simp
      simp
  funext i
  simpa using congrFun (regular _ kernel) i.succ

/-- Elimination comes to its end, if only zero is mapped to zero. -/
theorem exists_solve? {n : Nat} {A : Dense n K} (regular : ∀ x, A.toMatrix *ᵥ x = 0 → x = 0)
    (b : Vector K n) : ∃ x, A.solve? b = some x := by
  induction n with
  | zero => exact ⟨b, rfl⟩
  | succ n ih =>
    unfold solve?
    extract_lets r B d pivot factor rest below row
    have top : pivot = A.get r leading := by simp [pivot, B, exchangeRows]
    have nonzero : pivot ≠ 0 := top ▸ exists_ne_zero_of_regular regular
    have exchanged (x) (h : B.toMatrix *ᵥ x = 0) : x = 0 := by
      refine regular x ((mulVec_exchangeRows (b := Vector.ofFn 0) leading r fun i => ?_).trans ?_)
      · rw [h, vector_get_ofFn]
        rfl
      · funext i
        simp
    have left (i j : Fin n) : rest.get i j = B.get i.succ j.succ -
        B.get i.succ leading / B.get leading leading * B.get leading j.succ := by
      simp [rest, factor, pivot]
    rw [if_neg (by simpa using nonzero)]
    obtain ⟨x, found⟩ := ih (regular_of_pivot nonzero exchanged left) below
    exact ⟨_, by rw [found]; rfl⟩

end Regular

end Dense

end SymSolve
