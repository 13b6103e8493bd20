import Mathlib.Data.Prod.Lex
import SymSolve.Proofs.Matrices.LowerTriangle

/-!
# Merged coordinate matrices

**Theorem (`pairwise_merged`).** Merging lists every position at most once, by rows and within a row by
columns.

Merging keeps the sums at every position (`sumWhere_merged`), so that each sum is a single entry
afterwards. Therefore magnitudes along a row of a merged list are the magnitudes of the matrix that is
denoted (`rowMagnitudes_eq`); before, entries of opposite signs could stand for less than they show.
-/

namespace SymSolve

namespace Entry

variable {m n : Nat} {α : Type}

/-- The position of an entry, in the order by rows and then by columns. -/
def place (e : Entry m n α) : Lex (Fin m × Fin n) := toLex (e.row, e.col)

theorem samePlace_iff (e f : Entry m n α) : e.samePlace f = true ↔ e.place = f.place := by
  simp [samePlace, place]

theorem before_iff (e f : Entry m n α) : e.before f = true ↔ e.place < f.place := by
  simp [before, place, Prod.Lex.toLex_lt_toLex]

/-- An entry whose place does not occur stands alone there. -/
theorem alone_of_notMem (e : Entry m n α) {es : List (Entry m n α)}
    (h : e.place ∉ es.map place) : ∀ f ∈ es, ¬ (f.row = e.row ∧ f.col = e.col) := by
  rintro f member ⟨row, col⟩
  have places : f.place = e.place := congrArg toLex (Prod.ext row col)
  exact h (places ▸ List.mem_map_of_mem member)

variable [Add α]

theorem mem_places_insert (e : Entry m n α) (es : List (Entry m n α)) (p : Lex (Fin m × Fin n)) :
    p ∈ (e.insert es).map place ↔ p = e.place ∨ p ∈ es.map place := by
  fun_induction Entry.insert e es with
  | case1 => simp
  | case2 f fs same =>
    rw [samePlace_iff] at same
    rw [same]
    simp only [List.map_cons, List.mem_cons]
    exact (or_self_left).symm
  | case3 f fs other before => simp
  | case4 f fs other after ih =>
    rw [List.map_cons, List.mem_cons, ih, List.map_cons, List.mem_cons]
    exact or_left_comm

/-- Adding an entry keeps a list sorted. -/
theorem pairwise_insert (e : Entry m n α) {es : List (Entry m n α)}
    (sorted : (es.map place).Pairwise (· < ·)) : ((e.insert es).map place).Pairwise (· < ·) := by
  fun_induction Entry.insert e es with
  | case1 => simp
  | case2 f fs same => exact sorted
  | case3 f fs other before =>
    rw [before_iff] at before
    rw [List.map_cons, List.pairwise_cons]
    refine ⟨fun p member => ?_, sorted⟩
    cases List.mem_cons.1 member with
    | inl first => exact first ▸ before
    | inr later => exact before.trans (List.rel_of_pairwise_cons sorted later)
  | case4 f fs other after ih =>
    rw [samePlace_iff] at other
    rw [before_iff] at after
    rw [List.map_cons, List.pairwise_cons] at sorted ⊢
    refine ⟨fun p member => ?_, ih sorted.2⟩
    cases (mem_places_insert e fs p).1 member with
    | inl new => exact new ▸ lt_of_le_of_ne (not_lt.1 after) (Ne.symm other)
    | inr old => exact sorted.1 p old

end Entry

namespace Sparse

/-- **Merged entries are sorted**, and no position occurs twice. -/
theorem pairwise_merged {α : Type} [Add α] (A : Sparse α) :
    (A.merged.entries.map Entry.place).Pairwise (· < ·) := by
  have kept (es sorted : List (Entry A.height A.width α))
      (h : (sorted.map Entry.place).Pairwise (· < ·)) :
      ((es.foldl (fun sorted e => e.insert sorted) sorted).map Entry.place).Pairwise (· < ·) := by
    induction es generalizing sorted with
    | nil => exact h
    | cons e es ih => exact ih _ (e.pairwise_insert h)
  exact kept A.entries [] .nil

end Sparse

/-! ## The matrix that is denoted -/

open Matrix

variable {K : Type} [Field K] {m n : Nat}

section Denotation

variable [LinearOrder K] [FloorRing K]

/-- The matrix denoted. -/
def Sparse.toMatrix (J : Sparse K) : Matrix (Fin J.height) (Fin J.width) K :=
  of fun i j => J.value i j

/-- Entries with equal positions are summed. -/
theorem Sparse.toMatrix_apply (J : Sparse K) (i : Fin J.height) (j : Fin J.width) :
    J.toMatrix i j = sumWhere (fun r c => r = i ∧ c = j) J.entries :=
  value_eq J.entries i j

theorem Sparse.toMatrix_merged (J : Sparse K) : J.merged.toMatrix = J.toMatrix := by
  have same (i : Fin J.height) (j : Fin J.width) : J.merged.toMatrix i j = J.toMatrix i j :=
    (J.merged.toMatrix_apply i j).trans ((sumWhere_merged J.entries fun r c => r = i ∧ c = j).trans
      (J.toMatrix_apply i j).symm)
  funext i j
  exact same i j

/-- The full matrix adds up what the triplets put in a place. -/
theorem SymTriplets.toMatrix_full {A : Matrix (Fin n) (Fin n) K} {entries : List (Entry n n K)}
    (shares : ∀ i j, (entries.map fun e => e.share i j).sum = A i j) (tag : Nat) :
    (full ⟨n, entries, tag⟩).toMatrix = A := by
  have get (i j : Fin n) : (full ⟨n, entries, tag⟩).toMatrix i j = A i j := by
    rw [← shares, ← toDense_get ⟨n, entries, tag⟩ i j, toDense, Dense.get_ofFn]
    rfl
  funext i j
  exact get i j

end Denotation

/-! ## Magnitudes along a row -/

theorem sumWhere_eq_zero {es : List (Entry m n K)} {p : Fin m → Fin n → Prop}
    [∀ i j, Decidable (p i j)] (outside : ∀ e ∈ es, ¬ p e.row e.col) : sumWhere p es = 0 := by
  induction es with
  | nil => rfl
  | cons e es ih =>
    rw [List.forall_mem_cons] at outside
    rw [sumWhere_cons, if_neg outside.1, ih outside.2, add_zero]

variable [LinearOrder K] [IsStrictOrderedRing K]

/-- Where no position occurs twice, the magnitudes of the entries are those of the sums. -/
theorem sum_magnitudes {es : List (Entry m n K)} (distinct : (es.map Entry.place).Nodup)
    (i : Fin m) :
    ((es.filter fun e => decide (e.row = i)).map fun e => |e.value|).sum =
      ∑ j, |sumWhere (fun r c => r = i ∧ c = j) es| := by
  induction es with
  | nil => simp [sumWhere]
  | cons e es ih =>
    rw [List.map_cons, List.nodup_cons] at distinct
    have rest := ih distinct.2
    by_cases own : e.row = i
    · have alone (j : Fin n) : |sumWhere (fun r c => r = i ∧ c = j) (e :: es)| =
          (if e.col = j then |e.value| else 0) + |sumWhere (fun r c => r = i ∧ c = j) es| := by
        rw [sumWhere_cons]
        by_cases here : e.col = j
        · have missing : sumWhere (fun r c => r = i ∧ c = j) es = 0 :=
            sumWhere_eq_zero (own ▸ here ▸ e.alone_of_notMem distinct.1)
          rw [if_pos ⟨own, here⟩, if_pos here, missing, abs_zero, add_zero, add_zero]
        · rw [if_neg fun both => here both.2, if_neg here, zero_add, zero_add]
      simp only [alone, Finset.sum_add_distrib, Finset.sum_ite_eq, Finset.mem_univ, if_true, ← rest]
      simp [own]
    · have absent (j : Fin n) : sumWhere (fun r c => r = i ∧ c = j) (e :: es) =
          sumWhere (fun r c => r = i ∧ c = j) es := by
        rw [sumWhere_cons, if_neg fun both => own both.1, zero_add]
      simp only [absent, ← rest]
      simp [own]

/-- **Magnitudes along the rows** are those of the matrix that is denoted. -/
theorem Sparse.rowMagnitudes_eq [FloorRing K] (A : Sparse K) :
    A.rowMagnitudes = List.ofFn fun i => ∑ j, |A.toMatrix i j| := by
  have distinct : (A.merged.entries.map Entry.place).Nodup := A.pairwise_merged.imp ne_of_lt
  rw [rowMagnitudes, List.ofFn_eq_map, ← A.toMatrix_merged]
  refine List.map_congr_left fun i _ => ?_
  rw [Scalar.sum_eq, inRow]
  refine (sum_magnitudes distinct i).trans (Finset.sum_congr rfl fun j _ => ?_)
  exact congrArg abs (A.merged.toMatrix_apply i j).symm

end SymSolve
