import Mathlib.Algebra.BigOperators.Fin
import Mathlib.Algebra.BigOperators.Ring.Finset
import Mathlib.Data.Rat.Floor
import SymSolve.Proofs.Assembly
import SymSolve.Proofs.Matrices.Making

/-!
# What a list of triplets denotes

There are two ways from triplets to a matrix. A kernel adds them up in the lower triangle and
reflects the result; whoever multiplies or measures writes out the mirror images first. Over exact
scalars both give the same matrix.

**Theorem (`kernel_and_view_agree`).** What a kernel assembles from a view and a filled buffer is the
matrix that the triplets denote, its products with vectors are the sums of what the triplets
contribute, and neither the order of the triplets nor the orientation of any of them matters. Of
indices that a caller passes by hand, those outside of the matrix count for nothing.

All of it follows from one fact: every entry of either matrix is a sum over the triplets, where a
triplet takes part by its share in that place (`Entry.share`).
-/

namespace SymSolve

/-! ## Triplets -/

theorem getElem?_map_finRange {n : Nat} {β : Type} (f : Fin n → β) (i : Fin n) :
    ((List.finRange n).map f)[i.val]? = some (f i) := by
  simp

theorem sum_map_finset_sum {β ι M : Type} [AddCommMonoid M] (s : Finset ι) (f : β → ι → M)
    (l : List β) : (l.map fun b => ∑ i ∈ s, f b i).sum = ∑ i ∈ s, (l.map fun b => f b i).sum := by
  induction l with
  | nil => simp
  | cons b l ih => simp only [List.map_cons, List.sum_cons, ih, Finset.sum_add_distrib]

namespace Entry

variable {n : Nat} {α K : Type} [Field K]

/-- What an entry of one triangle adds to a row of the product with `x`: it counts at its position
and, off the diagonal, at its mirror image. -/
def contribution (e : Entry n n K) (x : Fin n → K) (i : Fin n) : K :=
  (if e.row = i then e.value * x e.col else 0) +
    if e.col = i ∧ e.row ≠ e.col then e.value * x e.row else 0

theorem share_swap (e : Entry n n K) (i j : Fin n) : e.swap.share i j = e.share i j := by
  unfold share swap
  exact if_congr (by tauto) rfl rfl

/-- An entry adds to a product what its shares in the row add. -/
theorem sum_share (e : Entry n n K) (x : Fin n → K) (i : Fin n) :
    ∑ j, e.share i j * x j = e.contribution x i := by
  have split (j : Fin n) : e.share i j * x j =
      (if e.col = j then if e.row = i then e.value * x e.col else 0 else 0) +
        if e.row = j then if e.col = i ∧ e.row ≠ e.col then e.value * x e.row else 0 else 0 := by
    unfold share
    grind
  simp only [split, Finset.sum_add_distrib, Finset.sum_ite_eq, Finset.mem_univ, if_true]
  rfl

end Entry

/-- The same triplets in another order, some of them turned over. -/
def Rearranged {n : Nat} {α : Type} (es fs : List (Entry n n α)) : Prop :=
  ∃ turned, List.Forall₂ (fun e f => f = e ∨ f = e.swap) es turned ∧ turned.Perm fs

variable {K : Type} [Field K] {n : Nat}

theorem Rearranged.sum_share {es fs : List (Entry n n K)} (h : Rearranged es fs) (i j : Fin n) :
    (fs.map fun e => e.share i j).sum = (es.map fun e => e.share i j).sum := by
  obtain ⟨turned, turns, perm⟩ := h
  rw [← (perm.map _).sum_eq]
  induction turns generalizing fs with
  | nil => rfl
  | @cons e f es turned turn turns ih =>
    have same : f.share i j = e.share i j := by
      rcases turn with rfl | rfl
      · rfl
      · exact e.share_swap i j
    rw [List.map_cons, List.sum_cons, same, ih (List.Perm.refl turned), List.map_cons,
      List.sum_cons]

theorem Rearranged.length_eq {α : Type} {es fs : List (Entry n n α)} (h : Rearranged es fs) :
    fs.length = es.length := by
  obtain ⟨turned, turns, perm⟩ := h
  exact perm.length_eq.symm.trans turns.length_eq.symm

namespace SymTriplets

/-- The coordinate `i` of a vector given as a list. -/
def coordinate (x : List K) (i : Fin n) : K := (x[i.val]?).getD 0

variable [LinearOrder K] [FloorRing K]

/-- **The product with a vector** adds up what the triplets contribute. -/
theorem mulVec_full (A : SymTriplets K) {x : List K} (fits : x.length = A.dim) :
    A.full.mulVec? x = some ((List.finRange A.dim).map fun i =>
      (A.entries.map fun e => e.contribution (coordinate x) i).sum) := by
  unfold Sparse.mulVec?
  rw [if_pos (show x.length = A.full.width from fits)]
  refine congrArg some (List.map_congr_left fun i _ => ?_)
  rw [Scalar.sum_eq, Sparse.inRow, sum_map_filter]
  simp only [decide_eq_true_eq]
  change Fin A.dim at i
  calc (A.full.entries.map fun e => if e.row = i then e.value * (x[e.col.val]?).getD 0 else 0).sum
      = (A.entries.map fun e => (if e.row = i then e.value * coordinate x e.col else 0) +
          if e.row = e.col then 0
          else if e.col = i then e.value * coordinate x e.row else 0).sum :=
        A.sum_full fun e => if e.row = i then e.value * coordinate x e.col else 0
    _ = (A.entries.map fun e => e.contribution (coordinate x) i).sum := by
        refine congrArg List.sum (List.map_congr_left fun e _ => ?_)
        unfold Entry.contribution
        grind

theorem sum_toDense (A : SymTriplets K) (x : Fin A.dim → K) (i : Fin A.dim) :
    ∑ j, A.toDense.get i j * x j = (A.entries.map fun e => e.contribution x i).sum := by
  calc ∑ j, A.toDense.get i j * x j
      = ∑ j, (A.entries.map fun e => e.share i j * x j).sum := by
        refine Finset.sum_congr rfl fun j _ => ?_
        rw [A.toDense_get, ← List.sum_map_mul_right]
    _ = (A.entries.map fun e => e.contribution x i).sum := by
        rw [← sum_map_finset_sum]
        simp only [Entry.sum_share]

theorem toDense_rearranged {A : SymTriplets K} {es : List (Entry A.dim A.dim K)}
    (h : Rearranged A.entries es) (tag : Nat) : toDense ⟨A.dim, es, tag⟩ = A.toDense := by
  refine Dense.ext_get fun i j => ?_
  rw [A.toDense_get]
  exact (toDense_get ⟨A.dim, es, tag⟩ i j).trans (h.sum_share i j)

theorem mulVec_rearranged {A : SymTriplets K} {es : List (Entry A.dim A.dim K)}
    (h : Rearranged A.entries es) (tag : Nat) (x : List K) :
    (full ⟨A.dim, es, tag⟩).mulVec? x = A.full.mulVec? x := by
  by_cases fits : x.length = A.dim
  · rw [A.mulVec_full fits, mulVec_full ⟨A.dim, es, tag⟩ fits]
    refine congrArg some (List.map_congr_left fun i _ => ?_)
    have table := toDense_rearranged h tag
    rw [← A.sum_toDense, ← table]
    exact (sum_toDense ⟨A.dim, es, tag⟩ (coordinate x) i).symm
  · exact (if_neg fits).trans (if_neg fits).symm

end SymTriplets

/-! ## Indices that are passed by hand -/

namespace Reference

/-- Two indices counted from one, with a value. -/
abbrev Word (α : Type) := (Int × Int) × α

/-- The indices of a structure, each pair with its own value. -/
def wordsOf {α : Type} (p : Pattern) (values : List α) : List (Word α) :=
  (p.rows.zip p.cols).zip values

/-- The matrix that a factorization assembles. -/
def assembled {α : Type} [Scalar α] (n : Nat) (p : Pattern) (values : List α) : Dense n α :=
  assemble (entries (positions n p) values)

theorem factorsOf?_assembled {α : Type} [Scalar α] {n : Nat} {p q : Pattern} {as bs : List α}
    (same : assembled n p as = assembled n q bs) (order : Array (Fin n)) (controls : Controls α) :
    factorsOf? (entries (positions n p) as) order controls =
      factorsOf? (entries (positions n q) bs) order controls := by
  unfold assembled at same
  simp only [factorsOf?, same]

/-- Both indices are inside of the matrix. -/
def inside {α : Type} (n : Nat) (w : Word α) : Bool :=
  (1 ≤ w.1.1 ∧ w.1.1 ≤ n) ∧ 1 ≤ w.1.2 ∧ w.1.2 ≤ n

/-- What a value puts in a place that is counted from zero. -/
def wordShare (w : Word K) (i j : Fin n) : K :=
  if (w.1.1 = i + 1 ∧ w.1.2 = j + 1) ∨ (w.1.1 = j + 1 ∧ w.1.2 = i + 1) then w.2 else 0

theorem entries_eq {α : Type} (n : Nat) (p : Pattern) (values : List α) :
    entries (positions n p) values = (wordsOf p values).filterMap fun w =>
      (position? n w.1.1 w.1.2).map fun (i, j) => ⟨i, j, w.2⟩ := by
  unfold entries positions wordsOf
  rw [← List.map_uncurry_zip_eq_zipWith, List.zip_map_left, List.filterMap_map]
  rfl

theorem share_position? (w : Word K) (i j : Fin n) :
    (((position? n w.1.1 w.1.2).map fun (a, b) => (⟨a, b, w.2⟩ : Entry n n K)).map
      fun e => e.share i j).getD 0 = wordShare w i j := by
  obtain ⟨⟨r, c⟩, v⟩ := w
  unfold position? wordShare
  dsimp only
  split
  · next within =>
    simp only [Option.map_some, Option.getD_some, Entry.share, Fin.ext_iff]
    exact if_congr (by omega) rfl rfl
  · next outside =>
    have i_lt := i.isLt
    have j_lt := j.isLt
    exact (if_neg (by omega)).symm

/-- Values whose indices are outside of the matrix put nothing anywhere. -/
theorem wordShare_of_outside {w : Word K} (outside : inside n w = false) (i j : Fin n) :
    wordShare w i j = 0 := by
  have i_lt := i.isLt
  have j_lt := j.isLt
  simp only [inside, decide_eq_false_iff_not] at outside
  exact if_neg (by omega)

variable [LinearOrder K] [FloorRing K]

theorem assembled_get (p : Pattern) (values : List K) (i j : Fin n) :
    (assembled n p values).get i j = ((wordsOf p values).map fun w => wordShare w i j).sum := by
  rw [assembled, assemble_get, entries_eq, sum_map_filterMap]
  simp only [share_position?]

/-- **Indices outside of the matrix count for nothing**: what is assembled is the matrix of the
others alone, each with its own value. -/
theorem assembled_inside (p : Pattern) (values : List K) :
    let kept := (wordsOf p values).filter (inside n)
    assembled n ⟨p.dim, kept.map fun w => w.1.1, kept.map fun w => w.1.2⟩ (kept.map fun w => w.2) =
      assembled n p values := by
  intro kept
  have words : wordsOf ⟨p.dim, kept.map fun w => w.1.1, kept.map fun w => w.1.2⟩
      (kept.map fun w => w.2) = kept := by
    simp only [wordsOf, List.zip_map', List.map_id']
  refine Dense.ext_get fun i j => ?_
  rw [assembled_get, assembled_get, words, sum_map_filter]
  refine congrArg List.sum (List.map_congr_left fun w _ => ?_)
  cases within : inside n w with
  | true => rfl
  | false => exact (wordShare_of_outside within i j).symm

/-- A buffer that is long enough can be filled, and what is assembled from it is the matrix. -/
theorem assembled_filled (A : SymTriplets K) {out : Array K} (long : A.nonzeros ≤ out.size) :
    ∃ words, A.view.fill out = .ok words ∧
      assembled A.dim (Pattern.ofView A.view) words.toList = A.toDense := by
  have fits : A.view.values.length ≤ out.size := A.values_length.symm ▸ long
  exact ⟨_, MatrixView.fill_of_le fits,
    assemble_entries A (prefix_overwriteFront A.view.values.toArray out)⟩

end Reference

variable [LinearOrder K] [FloorRing K]

/-- **Kernel and view agree** on the matrix that triplets denote. -/
theorem kernel_and_view_agree (A : SymTriplets K) {out : Array K} (long : A.nonzeros ≤ out.size) :
    (∃ words, A.view.fill out = .ok words ∧
      let table := Reference.assembled A.dim (Pattern.ofView A.view) words.toList
      table = A.toDense ∧ table.Symmetric ∧
      (∀ x : List K, x.length = A.dim → ∃ y : List K, A.full.mulVec? x = some y ∧
        ∀ i : Fin A.dim,
          y[i.val]? = some (A.entries.map fun e => e.contribution (SymTriplets.coordinate x) i).sum ∧
          y[i.val]? = some (∑ j, table.get i j * SymTriplets.coordinate x j)) ∧
      ∀ (es : List (Entry A.dim A.dim K)) (tag : Nat), Rearranged A.entries es →
        let B : SymTriplets K := ⟨A.dim, es, tag⟩
        B.toDense = A.toDense ∧ (∀ x, B.full.mulVec? x = A.full.mulVec? x) ∧
        ∃ words', B.view.fill out = .ok words' ∧
          Reference.assembled A.dim (Pattern.ofView B.view) words'.toList = table ∧
          ∀ (order : Array (Fin A.dim)) (controls : Controls K),
            Reference.factorsOf? (Reference.entries
              (Reference.positions A.dim (Pattern.ofView B.view)) words'.toList) order controls =
            Reference.factorsOf? (Reference.entries
              (Reference.positions A.dim (Pattern.ofView A.view)) words.toList) order controls) ∧
    ∀ (n : Nat) (p : Pattern) (values : List K),
      (∀ i j : Fin n, (Reference.assembled n p values).get i j =
        ((Reference.wordsOf p values).map fun w => Reference.wordShare w i j).sum) ∧
      let kept := (Reference.wordsOf p values).filter (Reference.inside n)
      Reference.assembled n ⟨p.dim, kept.map fun w => w.1.1, kept.map fun w => w.1.2⟩
        (kept.map fun w => w.2) = Reference.assembled n p values := by
  refine ⟨?_, fun n p values => ⟨Reference.assembled_get p values, Reference.assembled_inside p values⟩⟩
  obtain ⟨words, filled, table⟩ := Reference.assembled_filled A long
  refine ⟨words, filled, table, ?_, ?_, ?_⟩
  · exact Reference.assemble_symmetric _
  · intro x fits
    refine ⟨_, A.mulVec_full fits, fun i => ?_⟩
    have row := getElem?_map_finRange
      (fun i => (A.entries.map fun e => e.contribution (SymTriplets.coordinate x) i).sum) i
    refine ⟨row, ?_⟩
    rw [table, A.sum_toDense]
    exact row
  · intro es tag rearranged B
    have long' : B.nonzeros ≤ out.size := Nat.le_trans (Nat.le_of_eq rearranged.length_eq) long
    obtain ⟨words', filled', table'⟩ := Reference.assembled_filled B long'
    have same := SymTriplets.toDense_rearranged rearranged tag
    have assembled := (table'.trans same).trans table.symm
    exact ⟨same, SymTriplets.mulVec_rearranged rearranged tag, words', filled', assembled,
      Reference.factorsOf?_assembled assembled⟩

/-- Two entries above and below the diagonal that stand for the same place, and two on it. -/
def repeated : SymTriplets ℚ := ⟨2, [⟨0, 1, 3⟩, ⟨1, 0, 4⟩, ⟨0, 0, 2⟩, ⟨0, 0, 5⟩], 1⟩

theorem kernel_and_view_agree_repeated :
    repeated.nonzeros ≤ #[(0 : ℚ), 0, 0, 0, 9].size ∧
      ∃ words, repeated.view.fill #[0, 0, 0, 0, 9] = .ok words ∧
        let table := Reference.assembled 2 (Pattern.ofView repeated.view) words.toList
        table.get 0 0 = 7 ∧ table.get 0 1 = 7 ∧ table.get 1 0 = 7 ∧ table.get 1 1 = 0 ∧
          repeated.full.mulVec? [1, 10] = some [77, 7] := by
  have long : repeated.nonzeros ≤ #[(0 : ℚ), 0, 0, 0, 9].size := by decide
  obtain ⟨⟨words, filled, table, -, -, -⟩, -⟩ := kernel_and_view_agree repeated long
  refine ⟨long, words, filled, ?_⟩
  change Reference.assembled 2 (Pattern.ofView repeated.view) words.toList = repeated.toDense at table
  rw [table]
  decide +kernel

end SymSolve
