import Mathlib.Algebra.BigOperators.Group.List.Basic
import Mathlib.Tactic.Ring
import SymSolve.Kernel.Reference
import SymSolve.Kernel.Session
import SymSolve.Proofs.Ldl.Factor

/-!
# The matrix that a kernel assembles

**Theorem (`assemble_entries`).** The reference kernel assembles the matrix that the triplets
denote: positions counted from one are read back, values pair up with their positions, entries with
equal positions are summed, and an entry off the diagonal stands on both sides of it.

Both matrices are sums over the entries (`assemble_get`, `toDense_get`) of what an entry puts in a
place (`Entry.share`).
-/

namespace SymSolve

/-! ## Sums over lists -/

section Sums

variable {β γ M : Type} [AddCommMonoid M]

theorem sum_map_filter (p : β → Bool) (f : β → M) (l : List β) :
    ((l.filter p).map f).sum = (l.map fun b => if p b then f b else 0).sum := by
  induction l with
  | nil => rfl
  | cons b l ih => by_cases h : p b <;> simp [h, ih]

theorem sum_map_filterMap (g : β → Option γ) (f : γ → M) (l : List β) :
    ((l.filterMap g).map f).sum = (l.map fun b => ((g b).map f).getD 0).sum := by
  induction l with
  | nil => rfl
  | cons b l ih => cases h : g b <;> simp [h, ih]

end Sums

/-! ## Entries of one triangle -/

variable {K : Type} [Field K] {n : Nat}

/-- The mirror image of an entry. -/
def Entry.swap {α : Type} (e : Entry n n α) : Entry n n α := ⟨e.col, e.row, e.value⟩

/-- What an entry of one triangle puts in a place of the symmetric matrix. -/
def Entry.share (e : Entry n n K) (i j : Fin n) : K :=
  if (e.row = i ∧ e.col = j) ∨ (e.row = j ∧ e.col = i) then e.value else 0

theorem Entry.share_comm (e : Entry n n K) (i j : Fin n) : e.share i j = e.share j i :=
  if_congr or_comm rfl rfl

theorem Entry.share_eq (e : Entry n n K) (i j : Fin n) :
    (if e.lowerPlace = (i, j) then e.value else 0) + (if e.lowerPlace = (j, i) then e.value else 0) -
      (if i = j then if e.lowerPlace = (i, i) then e.value else 0 else 0) = e.share i j := by
  unfold Entry.lowerPlace Entry.share
  grind

/-! ## What the triplets denote -/

namespace SymTriplets

theorem full_entries {α : Type} (A : SymTriplets α) :
    A.full.entries = A.entries ++ A.entries.filterMap fun e =>
      if e.row = e.col then none else some e.swap := rfl

/-- Sums over the full matrix: entries off the diagonal count together with their mirror images. -/
theorem sum_full (A : SymTriplets K) (f : Entry A.dim A.dim K → K) :
    (A.full.entries.map f).sum =
      (A.entries.map fun e => f e + if e.row = e.col then 0 else f e.swap).sum := by
  rw [full_entries, List.map_append, List.sum_append, sum_map_filterMap, ← List.sum_map_add]
  refine congrArg List.sum (List.map_congr_left fun e _ => ?_)
  by_cases diagonal : e.row = e.col <;> simp [diagonal]

variable [LinearOrder K] [FloorRing K]

theorem toDense_get (A : SymTriplets K) (i j : Fin A.dim) :
    A.toDense.get i j = (A.entries.map fun e => e.share i j).sum := by
  rw [toDense, Dense.get_ofFn, Sparse.value, Scalar.sum_eq, Sparse.valuesAt, sum_map_filter]
  simp only [decide_eq_true_eq]
  calc (A.full.entries.map fun e => if (e.row : Nat) = i ∧ (e.col : Nat) = j then e.value else 0).sum
      = (A.entries.map fun e => (if (e.row : Nat) = i ∧ (e.col : Nat) = j then e.value else 0) +
          if e.row = e.col then 0
          else if (e.swap.row : Nat) = i ∧ (e.swap.col : Nat) = j then e.swap.value else 0).sum :=
        A.sum_full fun e => if (e.row : Nat) = i ∧ (e.col : Nat) = j then e.value else 0
    _ = (A.entries.map fun e => e.share i j).sum := by
        refine congrArg List.sum (List.map_congr_left fun e _ => ?_)
        simp only [Fin.val_inj]
        unfold Entry.share Entry.swap
        grind

end SymTriplets

/-! ## What a kernel assembles -/

namespace Reference

variable [LinearOrder K] [FloorRing K]

theorem lowerSum_cons {n : Nat} (e : Entry n n K) (es : List (Entry n n K)) (i j : Fin n) :
    lowerSum (e :: es) i j = (if e.lowerPlace = (i, j) then e.value else 0) + lowerSum es i j := by
  simp only [lowerSum, Scalar.sum_eq, sum_map_filter, List.map_cons, List.sum_cons,
    decide_eq_true_eq]

theorem assemble_get {n : Nat} (es : List (Entry n n K)) (i j : Fin n) :
    (assemble es).get i j = (es.map fun e => e.share i j).sum := by
  simp only [assemble, Dense.get_ofFn]
  induction es with
  | nil => simp [lowerSum, Scalar.sum_eq]
  | cons e es ih =>
    rw [List.map_cons, List.sum_cons, ← ih, ← Entry.share_eq e i j]
    simp only [lowerSum_cons]
    split_ifs <;> ring

theorem assemble_symmetric (es : List (Entry n n K)) : (assemble es).Symmetric := by
  intro i j
  simp only [assemble_get, Entry.share_comm _ i j]

theorem positions_ofView {α : Type} (A : SymTriplets α) :
    positions A.dim (Pattern.ofView A.view) = A.entries.map fun e => some (e.row, e.col) := by
  have inside (e : Entry A.dim A.dim α) :
      position? A.dim ((e.row : Nat) + 1) ((e.col : Nat) + 1) = some (e.row, e.col) := by
    have := e.row.isLt
    have := e.col.isLt
    rw [position?, dif_pos (by omega)]
    exact congrArg some (Prod.ext (Fin.ext (by simp)) (Fin.ext (by simp)))
  simp only [positions, Pattern.ofView, SymTriplets.view, List.zipWith_map, List.zipWith_self,
    inside]

theorem entries_view {α : Type} (A : SymTriplets α) {words : List α} (front : A.values <+: words) :
    entries (positions A.dim (Pattern.ofView A.view)) words = A.entries := by
  obtain ⟨rest, rfl⟩ := front
  rw [positions_ofView, SymTriplets.values, entries]
  induction A.entries with
  | nil => simp
  | cons e es ih => simpa using ih

/-- **The matrix that is assembled** from a view and a buffer with its values in front is the one
that the triplets denote. -/
theorem assemble_entries (A : SymTriplets K) {words : List K} (front : A.values <+: words) :
    assemble (entries (positions A.dim (Pattern.ofView A.view)) words) = A.toDense := by
  rw [entries_view A front]
  refine Dense.ext_get fun i j => ?_
  rw [assemble_get, A.toDense_get]

end Reference

end SymSolve
