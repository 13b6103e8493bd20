import SymSolve.Proofs.Kernel.Factors

/-!
# The reference kernel with enough room

**Theorem (`read_analyse`).** The reference kernel accepts the positions of every matrix with at
least one row, if it has room for the analysis, and recommends the lengths that it needs.

**Theorem (`read_factorize`).** With at least these lengths and an ordering from the analysis, every
factorization is a success or finds the matrix singular. A success reports no compression of a
workspace that is twice as long as needed.

Both hold over all scalars: a kernel computes its lengths with integers.
-/

namespace SymSolve.Reference

variable {α : Type} [Scalar α] {aLength iwLength keepLength : Nat} {s : Pattern}

/-! ## Analysis -/

omit [Scalar α] in
theorem length_rows_ofView (A : SymTriplets α) :
    (Pattern.ofView A.view).rows.length = A.nonzeros := by
  simp [Pattern.ofView, SymTriplets.view, SymTriplets.nonzeros]

omit [Scalar α] in
theorem length_cols_ofView (A : SymTriplets α) :
    (Pattern.ofView A.view).cols.length = A.nonzeros := by
  simp [Pattern.ofView, SymTriplets.view, SymTriplets.nonzeros]

omit [Scalar α] in
theorem analysisRefusal?_eq_none (dim : 1 ≤ s.dim) (paired : s.cols.length = s.rows.length)
    (integers : analysisIntegers s.dim s.rows.length ≤ iwLength) (keep : 3 * s.dim ≤ keepLength) :
    analysisRefusal? s iwLength keepLength = none := by
  unfold analysisRefusal?
  dsimp only
  rw [if_neg (by omega), if_neg (not_not.2 paired), if_neg (by omega), if_neg (by omega)]

omit [Scalar α] in
/-- The positions of a matrix are accepted, and the lengths that it needs are recommended. -/
theorem read_analyse (A : SymTriplets α) (dim : 0 < A.dim) (iw : Vector Int iwLength)
    (keep : Vector Int keepLength) (integers : analysisIntegers A.dim A.nonzeros ≤ iwLength)
    (long : 3 * (A.dim : Int) ≤ keepLength) :
    Session.read AnalysisResult.ofRaw? (analyse (Pattern.ofView A.view) iw keep).answer =
      .ok { accepted := true, realLength := factorReals A.dim A.nonzeros,
            integerLength := factorIntegers A.dim A.nonzeros, flag := 0, detail := 0 } := by
  have rows := length_rows_ofView A
  have accepted : analysisRefusal? (Pattern.ofView A.view) iwLength keepLength = none := by
    refine analysisRefusal?_eq_none ?_ ((length_cols_ofView A).trans rows.symm) ?_ long
    · exact Int.ofNat_le.2 dim
    · rw [rows]
      exact integers
  -- no position is counted out, so that the kernel has nothing to warn of
  have inside : (positions A.dim (Pattern.ofView A.view)).countP Option.isNone = 0 := by
    rw [positions_ofView]
    simp
  have answer : (analyse (Pattern.ofView A.view) iw keep).answer =
      .ok (analysisInfo (Pattern.ofView A.view) (positions A.dim (Pattern.ofView A.view))).toRaw := by
    simp only [analyse, accepted]
    rfl
  rw [answer, Session.read, AnalysisResult.ofRaw?, KernelInfo.ofRaw?_toRaw, analysisInfo, inside, rows]
  rfl

/-! ## Factorization -/

theorem factorRefusal?_eq_none (dim : 1 ≤ s.dim)
    (integers : factorIntegers s.dim s.rows.length ≤ iwLength)
    (reals : factorReals s.dim s.rows.length ≤ aLength) :
    factorRefusal? s aLength iwLength = none := by
  unfold factorRefusal?
  dsimp only
  rw [if_neg (by omega), if_neg (by omega), if_neg (by omega)]

/-- With an ordering of all vertices, the factorization comes to an end. -/
theorem factorsOf?_of_full {n : Nat} (pos : 0 < n) (es : List (Entry n n α)) {order : Array (Fin n)}
    (full : order.size = n) (controls : Controls α) :
    ∃ factors, factorsOf? es order controls = .ok factors := by
  unfold factorsOf?
  dsimp only
  split
  · exact ⟨_, rfl⟩
  · split
    · exact ⟨_, rfl⟩
    · rw [if_neg (by omega), if_neg (by omega)]
      exact ⟨_, rfl⟩

/-- A workspace that is twice as long as needed is not compressed. -/
theorem compressionCount_eq_zero {length required : Int} (twice : 2 * required ≤ length) :
    compressionCount length required = 0 :=
  if_pos (.inr (by omega))

/-- What a report of a factorization tells if it had room. -/
inductive Judges (s : Pattern) (aLength iwLength : Nat) (result : FactorizationResult) : Prop
  | singular (verdict : result.verdict = .singular)
  | success (verdict : result.verdict = .success)
      (reals : result.realCompressions =
        compressionCount aLength (factorReals s.dim s.rows.length))
      (integers : result.integerCompressions =
        compressionCount iwLength (factorIntegers s.dim s.rows.length))

omit [Scalar α] in
theorem Judges.verdict {result : FactorizationResult} (h : Judges s aLength iwLength result) :
    result.verdict = .success ∨ result.verdict = .singular := by
  cases h with
  | singular verdict => exact .inr verdict
  | success verdict _ _ => exact .inl verdict

theorem read_factorInfo (s : Pattern) (aLength iwLength : Nat) (inertia : Inertia) :
    ∃ result, Session.read FactorizationResult.ofRaw?
      (.ok (factorInfo s aLength iwLength inertia).toRaw) = .ok result ∧
        Judges s aLength iwLength result := by
  by_cases deficient : s.dim - inertia.zero < s.dim
  · refine ⟨.ofInfo (factorInfo s aLength iwLength inertia) .singular, ?_, .singular rfl⟩
    have flag : (factorInfo s aLength iwLength inertia).flag = 3 := if_pos deficient
    simp only [Session.read, FactorizationResult.ofRaw?, KernelInfo.ofRaw?_toRaw, Verdict.of?, flag,
      bind, Except.bind]
    rfl
  · refine ⟨.ofInfo (factorInfo s aLength iwLength inertia) .success, ?_, .success rfl rfl rfl⟩
    have flag : (factorInfo s aLength iwLength inertia).flag = 0 := if_neg deficient
    simp only [Session.read, FactorizationResult.ofRaw?, KernelInfo.ofRaw?_toRaw, Verdict.of?, flag,
      bind, Except.bind]
    rfl

/-- **With enough room every factorization is judged.** -/
theorem read_factorize (dim : 1 ≤ s.dim) (paired : s.cols.length = s.rows.length)
    (a : Vector α aLength) (iw : Vector Int iwLength) (keep : Vector Int keepLength)
    (controls : Controls α) (integers : factorIntegers s.dim s.rows.length ≤ iwLength)
    (reals : factorReals s.dim s.rows.length ≤ aLength)
    (kept : KeepsOrder s.dim.toNat keep.toList) :
    ∃ result, Session.read FactorizationResult.ofRaw? (factorize s a iw keep controls).answer =
      .ok result ∧ Judges s aLength iwLength result := by
  obtain ⟨order, -, all, front⟩ := kept
  have room : factorRefusal? s aLength iwLength = none := factorRefusal?_eq_none dim integers reals
  have together : pairingFault? s = none := if_pos paired.symm
  have full : order.toArray.size = s.dim.toNat := by simpa using all
  obtain ⟨factors, made⟩ := factorsOf?_of_full (by omega)
    (entries (positions s.dim.toNat s) a.toList) full controls
  rcases factors with _ | ⟨F, inertia⟩
  · refine ⟨.ofInfo { flag := Kernel.singularFlag } .singular, ?_, .singular rfl⟩
    simp only [factorize, room, together, orderIn?_of_take front, made]
    rfl
  · simp only [factorize, room, together, orderIn?_of_take front, made]
    exact read_factorInfo s aLength iwLength inertia

end SymSolve.Reference
