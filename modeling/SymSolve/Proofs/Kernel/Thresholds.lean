import SymSolve.Proofs.Kernel.Room
import SymSolve.Proofs.Kernel.RoundTrip
import SymSolve.Proofs.Ldl.Eigenvalues

/-!
# What a pivot threshold can change

A factorization counts the eigenvalues of its block diagonal, and those of magnitude up to a cutoff
count as zero. The block diagonal has the signs of the matrix, whatever the threshold, but not its
eigenvalues: a small pivot may fall under the cutoff where a larger one would not
(`thresholds_disagree`).

**Theorem (`thresholds_report`).** Every threshold reports the rank of the matrix and the number of its
negative eigenvalues, less the eigenvalues of the block diagonal that are hidden by the cutoff. Two
thresholds report the same if and only if they hide equally many.
-/

namespace SymSolve

open Matrix

/-! ## Hidden eigenvalues -/

namespace Ldl

variable {n : Nat}

/-- How many eigenvalues of the block diagonal are not zero, but of magnitude at most `t`. -/
noncomputable def hidden (F : Ldl n ℚ) (t : ℚ) : Nat :=
  eigenvaluesWhere F.middle_isSymm fun x => x ≠ 0 ∧ |x| ≤ t

/-- How many of these are negative. -/
noncomputable def hiddenNegative (F : Ldl n ℚ) (t : ℚ) : Nat :=
  eigenvaluesWhere F.middle_isSymm fun x => x < 0 ∧ |x| ≤ t

/-- What is counted for factors of a table, and what the table has. -/
theorem Factorizes.counts {F : Ldl n ℚ} {A : Dense n ℚ} (h : F.Factorizes A) {t : ℚ}
    (nonneg : 0 ≤ t) {M : Matrix (Fin n) (Fin n) ℚ} (symm : M.IsSymm) {order : Fin n → Fin n}
    (distinct : Function.Injective order) (permuted : A.toMatrix = M.submatrix order order) :
    eigenvaluesWhere symm (· < 0) = (F.inertia t).negative + F.hiddenNegative t ∧
      M.rank + (F.inertia t).zero = n + F.hidden t := by
  have middle : HasInertia F.middle (F.inertia 0) := (h.middle_inertia le_rfl).hasInertia
  have table := h.hasInertia middle
  rw [permuted] at table
  have matrix : HasInertia M (F.inertia 0) := table.of_submatrix distinct
  obtain ⟨negative, zero⟩ := (h.middle_inertia nonneg).hides F.middle_isSymm nonneg middle
  have rank := matrix.rank_add_zero
  rw [Fintype.card_fin] at rank
  rw [(matrix.eigenvaluesWhere_signs symm).1, negative, zero, ← Nat.add_assoc, rank]
  exact ⟨rfl, rfl⟩

end Ldl

/-! ## The cutoff -/

/-- The largest magnitude stays, wherever the rows and columns go. -/
theorem Dense.maxAbs_select {K : Type} [Field K] [LinearOrder K] [FloorRing K] [IsStrictOrderedRing K]
    {n : Nat} (A : Dense n K) {order : Vector (Fin n) n} (distinct : Function.Injective order.get) :
    Scalar.maxAbs (A.select order).toList = Scalar.maxAbs A.toList := by
  apply le_antisymm
  · rw [Scalar.maxAbs_le_iff _ (Scalar.maxAbs_nonneg _)]
    intro a member
    obtain ⟨i, j, rfl⟩ := mem_toList.1 member
    refine (Scalar.maxAbs_le_iff A.toList (Scalar.maxAbs_nonneg _)).1 le_rfl _ (mem_toList.2 ?_)
    exact ⟨order.get i, order.get j, by rw [select, get_ofFn]⟩
  · rw [Scalar.maxAbs_le_iff _ (Scalar.maxAbs_nonneg _)]
    intro a member
    obtain ⟨i, j, rfl⟩ := mem_toList.1 member
    obtain ⟨i, rfl⟩ := (Finite.injective_iff_surjective.1 distinct) i
    obtain ⟨j, rfl⟩ := (Finite.injective_iff_surjective.1 distinct) j
    refine (Scalar.maxAbs_le_iff (A.select order).toList (Scalar.maxAbs_nonneg _)).1 le_rfl _
      (mem_toList.2 ?_)
    exact ⟨i, j, get_ofFn ..⟩

namespace Reference

variable {n : Nat}

/-- The cutoff depends on the largest entry only, and not on its place. -/
theorem zeroCutoff_select {K : Type} [Field K] [LinearOrder K] [FloorRing K] [IsStrictOrderedRing K]
    (bound : K) (A : Dense n K) {order : Vector (Fin n) n} (distinct : Function.Injective order.get) :
    zeroCutoff n bound (A.select order) = zeroCutoff n bound A := by
  rw [zeroCutoff, zeroCutoff, A.maxAbs_select distinct]

/-! ## Reports -/

/-- Only values with a place count. -/
theorem assembled_take (s : Pattern) (values : List ℚ) :
    assembled n s (values.take s.rows.length) = assembled n s values := by
  have short : (positions n s).length ≤ s.rows.length := by
    rw [positions, List.length_zipWith]
    exact Nat.min_le_left ..
  have zipped : (positions n s).zip (values.take s.rows.length) = (positions n s).zip values := by
    calc (positions n s).zip (values.take s.rows.length)
        = ((positions n s).take s.rows.length).zip (values.take s.rows.length) := by
          rw [List.take_of_length_le short]
      _ = ((positions n s).zip values).take s.rows.length := List.take_zipWith.symm
      _ = (positions n s).zip values := by
          refine List.take_of_length_le ?_
          rw [List.length_zip]
          exact (Nat.min_le_left ..).trans short
  rw [assembled, assembled, entries, entries, zipped]

theorem denoted_isSymm (s : Pattern) (values : List ℚ) : (denoted s values).IsSymm := by
  rw [← toMatrix_assembled]
  exact IsSymm.ext fun i j => assemble_symmetric _ j i

/-- The report of a factorization of `M` with factors `F` and the cutoff `t`. -/
structure Reports {M : Matrix (Fin n) (Fin n) ℚ} (symm : M.IsSymm) (F : Ldl n ℚ) (t : ℚ)
    (info : KernelInfo) : Prop where
  rank : info.rank + F.hidden t = M.rank
  negative : info.negative + F.hiddenNegative t = eigenvaluesWhere symm (· < 0)
  flag : info.flag = if info.rank < n then 3 else 0

variable {s : Pattern} {aLength iwLength keepLength : Nat}

theorem exists_report (a : Vector ℚ aLength) (iw : Vector Int iwLength) {keep : Vector Int keepLength}
    (controls : Controls ℚ) (room : factorRefusal? s aLength iwLength = none)
    (paired : pairingFault? s = none) {order : Vector (Fin s.dim.toNat) s.dim.toNat}
    (distinct : Function.Injective order.get)
    (front : keep.toList.take s.dim.toNat = order.toList.map place) :
    ∃ F info, Ldl.ofTable? controls.tolerance ((assembled _ s a.toList).select order) = some F ∧
      Session.read KernelInfo.ofRaw? (factorize s a iw keep controls).answer = .ok info ∧
      Reports (denoted_isSymm s a.toList) F
        (zeroCutoff s.dim.toNat controls.zeroPivot (assembled s.dim.toNat s a.toList)) info := by
  obtain ⟨F, found, ends⟩ := factorize_ends a iw controls room paired front
  have factorizes := Ldl.factor?_factorizes ((assemble_symmetric _).select order) found
  have permuted := Dense.toMatrix_select (assembled s.dim.toNat s a.toList) order
  rw [toMatrix_assembled] at permuted
  obtain ⟨negative, rank⟩ := factorizes.counts (zeroCutoff_nonneg (n := s.dim.toNat)
    controls.zeroPivot (assembled s.dim.toNat s a.toList)) (denoted_isSymm s a.toList) distinct permuted
  have dim : (s.dim.toNat : Int) = s.dim := Int.toNat_of_nonneg (by have := one_le_of_room room; omega)
  refine ⟨F, factorInfo s aLength iwLength (F.inertia (zeroCutoff s.dim.toNat controls.zeroPivot
    (assembled s.dim.toNat s a.toList))), found, ?_, ?_, ?_, ?_⟩
  · have cutoff : zeroCutoff s.dim.toNat controls.zeroPivot
        ((assemble (entries (positions s.dim.toNat s) a.toList)).select order) =
          zeroCutoff s.dim.toNat controls.zeroPivot (assembled s.dim.toNat s a.toList) :=
      zeroCutoff_select _ _ distinct
    rw [ends, cutoff]
    simp only [Session.read, KernelInfo.ofRaw?_toRaw]
    rfl
  · simp only [factorInfo]
    omega
  · simp only [factorInfo]
    omega
  · simp only [factorInfo, dim]

/-- **What a threshold can change.** Two factorizations of the same values, with the same ordering and the
same bound for zero pivots, each in buffers that are long enough. Both come to an end and count less
than the matrix has, by the eigenvalues that their block diagonals hide. -/
theorem thresholds_report {aLength' iwLength' : Nat} (dim : 1 ≤ s.dim)
    (paired : s.cols.length = s.rows.length) (a : Vector ℚ aLength) (iw : Vector Int iwLength)
    (a' : Vector ℚ aLength') (iw' : Vector Int iwLength') {keep : Vector Int keepLength}
    (reals : factorReals s.dim s.rows.length ≤ aLength ∧ factorReals s.dim s.rows.length ≤ aLength')
    (integers : factorIntegers s.dim s.rows.length ≤ iwLength ∧
      factorIntegers s.dim s.rows.length ≤ iwLength')
    (values : a'.toList.take s.rows.length = a.toList.take s.rows.length)
    (kept : KeepsOrder s.dim.toNat keep.toList) {controls controls' : Controls ℚ}
    (bound : controls'.zeroPivot = controls.zeroPivot) :
    ∃ (order : Vector (Fin s.dim.toNat) s.dim.toNat) (F F' : Ldl s.dim.toNat ℚ)
      (info info' : KernelInfo),
      let A := assembled s.dim.toNat s a.toList
      let t := zeroCutoff s.dim.toNat controls.zeroPivot A
      keep.toList.take s.dim.toNat = order.toList.map place ∧
      Ldl.ofTable? controls.tolerance (A.select order) = some F ∧
      Ldl.ofTable? controls'.tolerance (A.select order) = some F' ∧
      Session.read KernelInfo.ofRaw? (factorize s a iw keep controls).answer = .ok info ∧
      Session.read KernelInfo.ofRaw? (factorize s a' iw' keep controls').answer = .ok info' ∧
      Reports (denoted_isSymm s a.toList) F t info ∧
      Reports (denoted_isSymm s a.toList) F' t info' ∧
      ((info'.flag = info.flag ∧ info'.rank = info.rank ∧ info'.negative = info.negative) ↔
        F'.hidden t = F.hidden t ∧ F'.hiddenNegative t = F.hiddenNegative t) := by
  obtain ⟨order, distinct, front⟩ := kept.exists_order
  have together : pairingFault? s = none := if_pos paired.symm
  have table : assembled s.dim.toNat s a'.toList = assembled s.dim.toNat s a.toList := by
    rw [← assembled_take, values, assembled_take]
  obtain ⟨F, info, found, told, reports⟩ := exists_report a iw controls
    (factorRefusal?_eq_none dim integers.1 reals.1) together distinct front
  obtain ⟨F', info', found', told', reports'⟩ := exists_report a' iw' controls'
    (factorRefusal?_eq_none dim integers.2 reals.2) together distinct front
  have matrix : denoted s a'.toList = denoted s a.toList := by
    rw [← toMatrix_assembled, ← toMatrix_assembled, table]
  rw [table] at found'
  simp only [matrix, table, bound] at reports'
  refine ⟨order, F, F', info, info', front, found, found', told, told', reports, reports', ?_⟩
  have rank := reports.rank
  have rank' := reports'.rank
  have negative := reports.negative
  have negative' := reports'.negative
  rw [reports.flag, reports'.flag]
  constructor
  · rintro ⟨-, rank, negative⟩
    omega
  · rintro ⟨all, negatives⟩
    have same : info'.rank = info.rank := by omega
    refine ⟨by rw [same], same, by omega⟩

/-! With threshold zero the first pivot of this matrix is tiny, and the cutoff hides it. The threshold
one half takes both rows as a pair. -/

/-- Positions, counted from one. -/
def tiny : Pattern := ⟨2, [1, 2, 2], [1, 1, 2]⟩

/-- The values: a coupling, and two tiny entries on the diagonal. -/
def tinyValues : Vector ℚ 10 :=
  #v[-1 / 100000000000000000000, 1, -1 / 100000000000000000000, 0, 0, 0, 0, 0, 0, 0]

/-- What a factorization reports with a threshold. -/
def tinyReport (threshold : ℚ) : Except KernelFault KernelInfo :=
  Session.read KernelInfo.ofRaw? (factorize tiny tinyValues (Vector.replicate 16 0)
    (#v[1, 2] : Vector Int 2) (defaultControls.withTolerance threshold)).answer

theorem keepsOrder_tiny : KeepsOrder 2 (#v[1, 2] : Vector Int 2).toList :=
  ⟨[0, 1], by decide, rfl, by decide⟩

theorem tinyReport_zero :
    tinyReport 0 = .ok { flag := 3, detail := 1, realLength := 5, integerLength := 8, rank := 1 } := by
  decide +kernel

theorem tinyReport_half :
    tinyReport (1 / 2) = .ok { realLength := 5, integerLength := 8, rank := 2, negative := 1 } := by
  decide +kernel

/-- **Thresholds can disagree** on the flag, on the rank and on the number of negative eigenvalues. -/
theorem thresholds_disagree :
    factorReals tiny.dim tiny.rows.length ≤ 10 ∧ factorIntegers tiny.dim tiny.rows.length ≤ 16 ∧
    KeepsOrder 2 (#v[1, 2] : Vector Int 2).toList ∧
    ∃ info info', tinyReport 0 = .ok info ∧ tinyReport (1 / 2) = .ok info' ∧
      info.flag ≠ info'.flag ∧ info.rank ≠ info'.rank ∧ info.negative ≠ info'.negative :=
  ⟨by decide, by decide, keepsOrder_tiny, _, _, tinyReport_zero, tinyReport_half, by decide⟩

theorem thresholds_report_tiny :
    KeepsOrder 2 (#v[1, 2] : Vector Int 2).toList ∧
    ∃ (order : Vector (Fin 2) 2) (F F' : Ldl 2 ℚ),
      let A := assembled 2 tiny tinyValues.toList
      Ldl.ofTable? 0 (A.select order) = some F ∧ Ldl.ofTable? (1 / 2) (A.select order) = some F' ∧
      (denoted tiny tinyValues.toList).rank = 2 ∧
      F.hidden (zeroCutoff 2 0 A) = 1 ∧ F'.hidden (zeroCutoff 2 0 A) = 0 := by
  obtain ⟨order, F, F', info, info', -, found, found', told, told', reports, reports', -⟩ :=
    thresholds_report (s := tiny) (by decide) rfl tinyValues (Vector.replicate 16 0) tinyValues
      (Vector.replicate 16 0) (by decide) (by decide) rfl keepsOrder_tiny
      (show (defaultControls.withTolerance (1 / 2) : Controls ℚ).zeroPivot =
        (defaultControls.withTolerance 0).zeroPivot from rfl)
  obtain rfl := Except.ok.inj (tinyReport_zero.symm.trans told)
  obtain rfl := Except.ok.inj (tinyReport_half.symm.trans told')
  refine ⟨keepsOrder_tiny, order, F, F', ?_⟩
  intro A
  have rank : (1 + Ldl.hidden (n := 2) F (zeroCutoff 2 0 A) : Int) =
      (denoted tiny tinyValues.toList).rank := reports.rank
  have rank' : (2 + Ldl.hidden (n := 2) F' (zeroCutoff 2 0 A) : Int) =
      (denoted tiny tinyValues.toList).rank := reports'.rank
  have most : (denoted tiny tinyValues.toList).rank ≤ 2 := Matrix.rank_le_card_width _
  refine ⟨found, found', ?_, ?_, ?_⟩
  · omega
  · omega
  · omega

end Reference

end SymSolve
