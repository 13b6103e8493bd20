import SymSolve.CommandLine.Input
import SymSolve.Proofs.Kernel.Factors
import SymSolve.Proofs.Matrices.Denotation

/-!
# The lower triangle of a file

**Theorem (`symmetricPart_mirrors`).** A square matrix in a file becomes the symmetric matrix with
its lower triangle, whatever its upper triangle is; any other matrix is refused.

So what is loaded is the matrix of the file exactly if that one is symmetric (`Mirrors.own_iff`), and
what solves the loaded system solves the one in the file exactly if the differences between the two
triangles cancel (`Mirrors.solves_iff`).

A matrix in a file is told by its entries (`Content.entry`): a list of positions denotes sums, a
table is what it is.
-/

namespace SymSolve

/-! ## Sums over positions -/

section Sums

variable {K : Type} [Field K] {m n : Nat} (p : Fin m → Fin n → Prop) [∀ i j, Decidable (p i j)]

/-- The sum of the entries at certain positions. -/
def sumWhere (es : List (Entry m n K)) : K :=
  (es.map fun e => if p e.row e.col then e.value else 0).sum

theorem sumWhere_cons (e : Entry m n K) (es : List (Entry m n K)) :
    sumWhere p (e :: es) = (if p e.row e.col then e.value else 0) + sumWhere p es :=
  List.sum_cons

theorem sumWhere_flatMap {β : Type} (l : List β) (f : β → List (Entry m n K)) :
    sumWhere p (l.flatMap f) = (l.map fun b => sumWhere p (f b)).sum := by
  induction l with
  | nil => rfl
  | cons b l ih =>
    rw [List.flatMap_cons, sumWhere, List.map_append, List.sum_append]
    exact congrArg (_ + ·) ih

theorem sumWhere_insert (e : Entry m n K) (es : List (Entry m n K)) :
    sumWhere p (e.insert es) = (if p e.row e.col then e.value else 0) + sumWhere p es := by
  fun_induction Entry.insert e es with
  | case1 => rfl
  | case2 f fs same =>
    obtain ⟨row, col⟩ : e.row = f.row ∧ e.col = f.col := by simpa [Entry.samePlace] using same
    simp only [sumWhere_cons, row, col]
    split_ifs <;> ring
  | case3 f fs other before => exact sumWhere_cons p e (f :: fs)
  | case4 f fs other after ih =>
    rw [sumWhere_cons, sumWhere_cons, ih]
    ring

theorem sumWhere_foldl (es sorted : List (Entry m n K)) :
    sumWhere p (es.foldl (fun sorted e => e.insert sorted) sorted) =
      sumWhere p sorted + sumWhere p es := by
  induction es generalizing sorted with
  | nil => exact (add_zero _).symm
  | cons e es ih =>
    rw [List.foldl_cons, ih, sumWhere_insert, sumWhere_cons]
    ring

end Sums

namespace Sparse

/-- The entry of a table that is given row by row. -/
def cell {α : Type} [Scalar α] (width : Nat) (entries : List α) (i j : Nat) : α :=
  (entries[i * width + j]?).getD 0

variable {K : Type} [Field K] {height width : Nat}

/-- Merging keeps the sums over positions. -/
theorem sumWhere_merged (es : List (Entry height width K)) (p : Fin height → Fin width → Prop)
    [∀ i j, Decidable (p i j)] :
    sumWhere p (merged ⟨height, width, es⟩).entries = sumWhere p es :=
  (sumWhere_foldl p es []).trans (zero_add _)

variable [LinearOrder K] [FloorRing K]

theorem value_eq (es : List (Entry height width K)) (i : Fin height) (j : Fin width) :
    value ⟨height, width, es⟩ i j = sumWhere (fun r c => r = i ∧ c = j) es := by
  rw [value, Scalar.sum_eq, valuesAt, sum_map_filter]
  simp only [decide_eq_true_eq, Fin.val_inj]
  rfl

/-- A table keeps its entries: the zeros that are left out count for nothing. -/
theorem value_ofRows (entries : List K) (i : Fin height) (j : Fin width) :
    (ofRows height width entries).value i j = cell width entries i j := by
  let share (r : Fin height) (c : Fin width) : K :=
    if c = j then if r = i then cell width entries r c else 0 else 0
  have rows : (ofRows height width entries).value i j =
      ((List.finRange height).map fun r => ∑ c, share r c).sum := by
    unfold ofRows
    rw [value_eq, sumWhere_flatMap]
    refine congrArg List.sum (List.map_congr_left fun r _ => ?_)
    rw [sumWhere, sum_map_filterMap, Fin.sum_univ_def]
    refine congrArg List.sum (List.map_congr_left fun c _ => ?_)
    simp only [share, cell]
    split
    · next v found =>
      by_cases zero : v = 0
      · simp [found, zero]
      · simp only [found, zero, Scalar.eq_iff, if_false, Option.map_some, Option.getD_some]
        split_ifs <;> simp_all
    · next missing => simp [missing]
  calc (ofRows height width entries).value i j
      = ∑ r, ∑ c, share r c := rows.trans (Fin.sum_univ_def _).symm
    _ = cell width entries i j := by simp [share]

end Sparse

/-! ## Making the triplets -/

namespace SymTriplets

section Scalar

variable {α : Type} [Scalar α]

/-- The triplets of the lower triangle of a square matrix. -/
def ofLower {n : Nat} (es : List (Entry n n α)) (tag : Nat) : SymTriplets α :=
  ⟨n, (Sparse.merged (Sparse.lower ⟨n, n, es⟩)).entries, tag⟩

theorem exec_ofSparse_square {n : Nat} (es : List (Entry n n α)) (source : TagSource)
    (finite : ∀ v : α, Scalar.isFinite v = true) :
    (ofSparse ⟨n, n, es⟩).exec source =
      (.ok (ofLower es (source.last + 2)), ⟨source.last + 2⟩) := by
  let lower := (Sparse.merged (Sparse.lower ⟨n, n, es⟩)).entries
  calc (ofSparse ⟨n, n, es⟩).exec source
      = ((zeroAt (lower.map fun e => (e.row, e.col)) (source.last + 1)).setValues
          (lower.map Entry.value)).exec ⟨source.last + 1⟩ := by
        unfold ofSparse
        rw [dif_pos rfl]
        rfl
    _ = (.ok (ofLower es (source.last + 2)), ⟨source.last + 2⟩) :=
        exec_fill lower (source.last + 1) ⟨source.last + 1⟩ fun e _ => finite e.value

end Scalar

variable {K : Type} [Field K] [LinearOrder K] [FloorRing K]

omit [LinearOrder K] [FloorRing K] in
/-- On and below the diagonal an entry stands for one place of each two. -/
theorem share_of_lower {n : Nat} (e : Entry n n K) (i j : Fin n) :
    (if (e.col : Nat) ≤ e.row then e.share i j else 0) =
      if e.row = max i j ∧ e.col = min i j then e.value else 0 := by
  unfold Entry.share
  rw [← ite_and]
  refine if_congr ?_ rfl rfl
  simp only [Fin.ext_iff, Fin.coe_max, Fin.coe_min]
  omega

/-- The lower triangle, mirrored. -/
theorem full_ofLower {n : Nat} (es : List (Entry n n K)) (tag : Nat) (i j : Fin n) :
    (ofLower es tag).full.value i j = Sparse.value ⟨n, n, es⟩ (max i j).val (min i j).val := by
  let place (r c : Fin n) : Prop := (r = i ∧ c = j) ∨ (r = j ∧ c = i)
  have get : (ofLower es tag).toDense.get i j = (ofLower es tag).full.value i j :=
    Dense.get_ofFn ..
  calc (ofLower es tag).full.value i j
      = sumWhere place (ofLower es tag).entries := get.symm.trans ((ofLower es tag).toDense_get i j)
    _ = sumWhere place (es.filter fun e => (e.col : Nat) ≤ e.row) := Sparse.sumWhere_merged _ place
    _ = (es.map fun e => if (e.col : Nat) ≤ e.row then e.share i j else 0).sum := by
        rw [sumWhere, sum_map_filter]
        simp only [decide_eq_true_eq]
        rfl
    _ = Sparse.value ⟨n, n, es⟩ (max i j).val (min i j).val := by
        simp only [share_of_lower, Sparse.value_eq]
        rfl

theorem rows_of_solves (A : SymTriplets K) {b x : List K} (solves : A.toDense.Solves b x) :
    b.length = A.dim ∧ x.length = A.dim ∧ ∀ i < A.dim,
      ∑ j ∈ Finset.range A.dim, A.full.value i j * x.getD j 0 = b.getD i 0 := by
  obtain ⟨rhs, solution, rfl, rfl, product⟩ := solves
  refine ⟨List.length_ofFn, List.length_ofFn, fun i hi => ?_⟩
  rw [← product, Finset.sum_range]
  simp [Matrix.mulVec, dotProduct, toDense, hi]

end SymTriplets

/-! ## Matrices in files -/

namespace MatrixMarket.Content

variable {α : Type}

/-- The number of rows. -/
def height : Content α → Nat
  | sparse A => A.height
  | table height _ _ => height

/-- The number of columns. -/
def width : Content α → Nat
  | sparse A => A.width
  | table _ width _ => width

variable [Scalar α]

/-- The entry of the matrix at a position. -/
def entry : Content α → Nat → Nat → α
  | sparse A => A.value
  | table _ width entries => Sparse.cell width entries

/-- The matrix is square, and the same above the diagonal and below. -/
structure IsSymmetric (M : Content α) : Prop where
  square : M.width = M.height
  mirror : ∀ i < M.height, ∀ j < M.height, M.entry i j = M.entry j i

theorem height_toSparse (M : Content α) : M.toSparse.height = M.height := by
  cases M <;> rfl

theorem width_toSparse (M : Content α) : M.toSparse.width = M.width := by
  cases M <;> rfl

end MatrixMarket.Content

section Exact

open MatrixMarket CommandLine

variable {K : Type} [Field K] [LinearOrder K] [FloorRing K] {M : Content K}

theorem value_toSparse {i j : Nat} (hi : i < M.height) (hj : j < M.width) :
    M.toSparse.value i j = M.entry i j := by
  cases M with
  | sparse A => rfl
  | table height width entries => exact Sparse.value_ofRows entries ⟨i, hi⟩ ⟨j, hj⟩

/-- The vector `x` solves the system of a matrix with the right-hand side `b`. -/
structure SolvesSystem (M : Content K) (b x : List K) : Prop where
  height : b.length = M.height
  width : x.length = M.width
  rows : ∀ i < M.height,
    ∑ j ∈ Finset.range M.width, M.entry i j * x.getD j 0 = b.getD i 0

/-- What the entries above the diagonal have over those below it, in a row of the product with a
vector. -/
def excess (M : Content K) (x : List K) (i : Nat) : K :=
  ∑ j ∈ Finset.Ioo i M.height, (M.entry i j - M.entry j i) * x.getD j 0

theorem excess_of_symmetric (h : M.IsSymmetric) (x : List K) {i : Nat} (hi : i < M.height) :
    excess M x i = 0 := by
  refine Finset.sum_eq_zero fun j hj => ?_
  rw [h.mirror i hi j (Finset.mem_Ioo.1 hj).2, sub_self, zero_mul]

/-- The triplets are those of the lower triangle of a matrix. -/
structure Mirrors (M : Content K) (A : SymTriplets K) : Prop where
  square : M.width = M.height
  dim : A.dim = M.height
  value : ∀ i < M.height, ∀ j < M.height, A.full.value i j = M.entry (max i j) (min i j)

namespace Mirrors

variable {A : SymTriplets K}

/-- The triplets are those of the matrix itself exactly if it is symmetric. -/
theorem own_iff (h : Mirrors M A) :
    (∀ i < M.height, ∀ j < M.height, A.full.value i j = M.entry i j) ↔ M.IsSymmetric := by
  constructor
  · refine fun own => ⟨h.square, fun i hi j hj => ?_⟩
    rw [← own i hi j hj, ← own j hj i hi, h.value i hi j hj, h.value j hj i hi, max_comm, min_comm]
  · intro symmetric i hi j hj
    rw [h.value i hi j hj]
    rcases le_total i j with le | le
    · rw [max_eq_right le, min_eq_left le, symmetric.mirror j hj i hi]
    · rw [max_eq_left le, min_eq_right le]

/-- A row of the matrix is the row of the triplets and the excess. -/
theorem row (h : Mirrors M A) (x : List K) {i : Nat} (hi : i < M.height) :
    ∑ j ∈ Finset.range M.height, M.entry i j * x.getD j 0 =
      ∑ j ∈ Finset.range M.height, A.full.value i j * x.getD j 0 + excess M x i := by
  have above : excess M x i = ∑ j ∈ Finset.range M.height,
      if i < j then (M.entry i j - M.entry j i) * x.getD j 0 else 0 := by
    rw [← Finset.sum_filter]
    refine Finset.sum_congr (Finset.ext fun j => ?_) fun _ _ => rfl
    simp [and_comm]
  rw [above, ← Finset.sum_add_distrib]
  refine Finset.sum_congr rfl fun j hj => ?_
  rw [h.value i hi j (Finset.mem_range.1 hj)]
  split
  · next lt =>
    rw [max_eq_right lt.le, min_eq_left lt.le]
    ring
  · next le =>
    rw [max_eq_left (not_lt.1 le), min_eq_right (not_lt.1 le), add_zero]

/-- **What solves the loaded system** solves the one in the file exactly if the differences between
the triangles cancel. -/
theorem solves_iff (h : Mirrors M A) {b x : List K} (solves : A.toDense.Solves b x) :
    SolvesSystem M b x ↔ ∀ i < M.height, excess M x i = 0 := by
  obtain ⟨height, width, loaded⟩ := A.rows_of_solves solves
  rw [h.dim] at height width loaded
  have rows (i : Nat) (hi : i < M.height) :
      ∑ j ∈ Finset.range M.width, M.entry i j * x.getD j 0 = b.getD i 0 + excess M x i := by
    rw [h.square, h.row x hi, loaded i hi]
  constructor
  · intro own i hi
    exact add_eq_left.1 ((rows i hi).symm.trans (own.rows i hi))
  · intro cancel
    refine ⟨height, width.trans h.square.symm, fun i hi => ?_⟩
    rw [rows i hi, cancel i hi, add_zero]

end Mirrors

/-! ## What is loaded -/

theorem exec_toSparse (square : M.width = M.height) (source : TagSource) :
    ∃ A, (SymTriplets.ofSparse M.toSparse).exec source = (.ok A, ⟨source.last + 2⟩) ∧
      Mirrors M A := by
  generalize sparse : M.toSparse = S
  obtain ⟨height, width, es⟩ := S
  have rows : height = M.height := by rw [← M.height_toSparse, sparse]
  have cols : width = M.width := by rw [← M.width_toSparse, sparse]
  obtain rfl : width = height := cols.trans (square.trans rows.symm)
  refine ⟨_, SymTriplets.exec_ofSparse_square es source fun _ => rfl, square, rows, ?_⟩
  intro i hi j hj
  have own : Sparse.value ⟨width, width, es⟩ (max i j) (min i j) = M.entry (max i j) (min i j) := by
    rw [← sparse]
    exact value_toSparse (max_lt hi hj) (square ▸ min_lt_of_left_lt hi)
  have mirrored := SymTriplets.full_ofLower es (source.last + 2) ⟨i, rows ▸ hi⟩ ⟨j, rows ▸ hj⟩
  rw [Fin.coe_max, Fin.coe_min] at mirrored
  exact mirrored.trans own

/-- **The lower triangle of a file** is loaded, and nothing if the matrix is not square. -/
theorem symmetricPart_mirrors (M : Content K) :
    if M.width = M.height then ∃ A, symmetricPart M = .ok A ∧ Mirrors M A
    else symmetricPart M = .error .notSquare := by
  split
  · next square =>
    obtain ⟨A, made, mirrors⟩ := exec_toSparse square ⟨0⟩
    exact ⟨A, congrArg Prod.fst made, mirrors⟩
  · next oblong =>
    have sizes : M.toSparse.height ≠ M.toSparse.width := by
      rw [M.height_toSparse, M.width_toSparse]
      exact Ne.symm oblong
    unfold symmetricPart SymTriplets.ofSparse
    rw [dif_neg sizes]
    rfl

end Exact

end SymSolve
