import SymSolve.Ldl.Packed
import SymSolve.Proofs.Ldl.Factor

/-!
# Packed factors are read back

**Theorem (`unitLower_ofWords`, `blockDiagonal_ofWords`).** What is read from a buffer that starts
with packed factors are these factors. Row `i` of the triangle has `i + 1` words, so the rows before
it take `packedLength i` words; the proof of this is the induction that gives `getElem?_rows`.
-/

namespace SymSolve

open Matrix

theorem packedLength_succ (n : Nat) : packedLength (n + 1) = packedLength n + (n + 1) := by
  unfold packedLength
  have product : (n + 1) * (n + 1 + 1) = n * (n + 1) + 2 * (n + 1) := by ring
  rw [product]
  omega

theorem packedLength_mono {i n : Nat} (h : i < n) : packedLength i + i < packedLength n := by
  induction n with
  | zero => omega
  | succ n ih =>
    rw [packedLength_succ]
    rcases Nat.lt_succ_iff_lt_or_eq.1 h with before | rfl
    · have := ih before
      omega
    · omega

/-- Every place of the triangle is in one of its rows. -/
theorem exists_row {k n : Nat} (h : k < packedLength n) :
    ∃ i j, i < n ∧ j ≤ i ∧ k = packedLength i + j := by
  induction n with
  | zero => simp [packedLength] at h
  | succ n ih =>
    by_cases before : k < packedLength n
    · obtain ⟨i, j, hi, hj, place⟩ := ih before
      exact ⟨i, j, Nat.lt_succ_of_lt hi, hj, place⟩
    · rw [packedLength_succ] at h
      exact ⟨n, k - packedLength n, Nat.lt_succ_self n, by omega, by omega⟩

section Rows

variable {α : Type} {n : Nat}

theorem length_rows {row : Fin n → List α} (h : ∀ i, (row i).length = i.val + 1) :
    ((List.finRange n).flatMap row).length = packedLength n := by
  induction n with
  | zero => rfl
  | succ n ih =>
    rw [List.finRange_succ_last, List.flatMap_append, List.flatMap_map, List.length_append,
      ih fun i => h i.castSucc, packedLength_succ]
    simp [h]

theorem getElem?_rows {row : Fin n → List α} (h : ∀ i, (row i).length = i.val + 1) (i : Fin n)
    {j : Nat} (hj : j ≤ i.val) :
    ((List.finRange n).flatMap row)[packedLength i.val + j]? = (row i)[j]? := by
  induction n with
  | zero => exact i.elim0
  | succ n ih =>
    have rows : ((List.finRange n).flatMap fun i => row i.castSucc).length = packedLength n :=
      length_rows fun i => h i.castSucc
    rw [List.finRange_succ_last, List.flatMap_append, List.flatMap_map]
    cases i using Fin.lastCases with
    | last =>
      rw [List.getElem?_append_right (by rw [rows]; exact Nat.le_add_right ..), rows]
      simp
    | cast i =>
      have inside := packedLength_mono i.isLt
      rw [List.getElem?_append_left (by rw [rows]; simp only [Fin.val_castSucc] at hj ⊢; omega)]
      exact ih (fun i => h i.castSucc) i hj

end Rows

namespace Ldl

variable {K : Type} {n : Nat} (F : Ldl n K)

theorem length_packedRow (i : Fin n) : (F.packedRow i).length = i.val + 1 := by
  simp [packedRow]

theorem length_packed : F.packed.length = packedLength n + (n - 1) := by
  rw [packed, List.length_append, length_rows F.length_packedRow]
  simp

theorem getElem?_packed_lower {i j : Fin n} (h : j < i) :
    F.packed[packedLength i + j]? = some (F.lower.get i j) := by
  have inside := packedLength_mono i.isLt
  rw [packed, List.getElem?_append_left, getElem?_rows F.length_packedRow i h.le, packedRow,
    List.getElem?_append_left]
  · simp [h]
  · simpa using h
  · rw [length_rows F.length_packedRow]
    omega

theorem getElem?_packed_diagonal (i : Fin n) :
    F.packed[packedLength i + i]? = some (F.diagonal.get i) := by
  have inside := packedLength_mono i.isLt
  rw [packed, List.getElem?_append_left, getElem?_rows F.length_packedRow i (le_refl _), packedRow,
    List.getElem?_append_right]
  · simp
  · simp
  · rw [length_rows F.length_packedRow]
    omega

theorem getElem?_packed_coupling {i j : Fin n} (h : i.val = j.val + 1) :
    F.packed[packedLength n + j]? = some (F.coupling.get j) := by
  have last := i.isLt
  rw [packed, List.getElem?_append_right, length_rows F.length_packedRow, Nat.add_sub_cancel_left,
    List.getElem?_take_of_lt]
  · simp [Vector.get]
  · omega
  · rw [length_rows F.length_packedRow]
    omega

end Ldl

/-! ## Reading -/

section Places

variable {α : Type} [Scalar α] {n : Nat} {word word' : Nat → α}

theorem ofWords_congr (same : ∀ k < packedLength n + (n - 1), word k = word' k) :
    Unpacked.ofWords n word = Unpacked.ofWords n word' := by
  have row (i : Fin n) {j : Nat} (hj : j ≤ i.val) :
      word (packedLength i + j) = word' (packedLength i + j) := by
    have inside := packedLength_mono i.isLt
    exact same _ (by omega)
  have coupling (j : Fin n) (hj : j.val + 1 < n) :
      word (packedLength n + j) = word' (packedLength n + j) := same _ (by omega)
  refine congrArg₂ Unpacked.mk (Dense.ext_get fun i j => ?_) (Dense.ext_get fun i j => ?_)
  · rw [Dense.get_ofFn, Dense.get_ofFn]
    split_ifs with below
    · exact row i (Fin.le_def.1 below.le)
    · rfl
    · rfl
  · rw [Dense.get_ofFn, Dense.get_ofFn]
    split_ifs with here below above
    · exact row i le_rfl
    · exact coupling j (by omega)
    · exact coupling i (by omega)
    · rfl

/-- Reading takes as many words as packed factors have, and each of them counts. -/
theorem ofWords_eq_iff : Unpacked.ofWords n word = Unpacked.ofWords n word' ↔
    ∀ k < packedLength n + (n - 1), word k = word' k := by
  refine ⟨fun same k hk => ?_, ofWords_congr⟩
  by_cases triangle : k < packedLength n
  · obtain ⟨i, j, hi, hj, rfl⟩ := exists_row triangle
    rcases hj.lt_or_eq with below | rfl
    · have entry := congrArg (fun U => U.lower.get ⟨i, hi⟩ ⟨j, below.trans hi⟩) same
      simpa [Unpacked.ofWords, below] using entry
    · have entry := congrArg (fun U => U.blockDiagonal.get ⟨j, hi⟩ ⟨j, hi⟩) same
      simpa [Unpacked.ofWords] using entry
  · obtain ⟨j, rfl⟩ := Nat.exists_eq_add_of_le (not_lt.1 triangle)
    have inside : j + 1 < n := by omega
    have entry := congrArg
      (fun U => U.blockDiagonal.get ⟨j + 1, inside⟩ ⟨j, Nat.lt_of_succ_lt inside⟩) same
    simpa [Unpacked.ofWords] using entry

end Places

section OfWords

variable {K : Type} {n : Nat}

theorem word_of_prefix [Zero K] {F : Ldl n K} {words : List K} (front : F.packed <+: words)
    {k : Nat} {a : K} (h : F.packed[k]? = some a) : (words[k]?).getD 0 = a := by
  obtain ⟨rest, rfl⟩ := front
  have inside := (List.getElem?_eq_some_iff.1 h).1
  rw [List.getElem?_append_left inside, h, Option.getD_some]

variable [Field K] [LinearOrder K] [FloorRing K] {F : Ldl n K}

omit [LinearOrder K] [FloorRing K] in
theorem Ldl.Factorizes.unitLower {A : Dense n K} (h : F.Factorizes A) :
    F.lower.unitLower = F.lower.toMatrix := by
  ext i j
  simp only [Dense.unitLower, of_apply, Dense.toMatrix_apply]
  split_ifs with below same
  · rfl
  · rw [h.unit i j same.le, if_pos same]
  · rw [h.unit i j (not_lt.1 below), if_neg same]

theorem lower_ofWords {A : Dense n K} (h : F.Factorizes A) {words : List K}
    (front : F.packed <+: words) :
    (Unpacked.ofWords n fun k => (words[k]?).getD 0).lower = F.lower := by
  refine Dense.ext_get fun i j => ?_
  have unit : F.lower.unitLower i j = F.lower.get i j := congrFun₂ h.unitLower i j
  rw [← unit]
  simp only [Unpacked.ofWords, Dense.get_ofFn, Dense.unitLower, of_apply]
  split_ifs with below
  · exact word_of_prefix front (F.getElem?_packed_lower below)
  · rfl
  · rfl

theorem unitLower_ofWords {A : Dense n K} (h : F.Factorizes A) {words : List K}
    (front : F.packed <+: words) :
    (Unpacked.ofWords n fun k => (words[k]?).getD 0).lower.unitLower = F.lower.toMatrix := by
  rw [lower_ofWords h front, h.unitLower]

theorem blockDiagonal_ofWords {words : List K} (front : F.packed <+: words) :
    (Unpacked.ofWords n fun k => (words[k]?).getD 0).blockDiagonal.toMatrix = F.middle := by
  ext i j
  simp only [Unpacked.ofWords, Dense.get_ofFn, Dense.toMatrix_apply, Ldl.middle, tridiagonal,
    of_apply]
  split_ifs with same below above
  · exact word_of_prefix front (F.getElem?_packed_diagonal i)
  · exact word_of_prefix front (F.getElem?_packed_coupling below)
  · exact word_of_prefix front (F.getElem?_packed_coupling above)
  · rfl

end OfWords

end SymSolve
