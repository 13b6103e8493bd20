import SymSolve.Proofs.Kernel.Reference
import SymSolve.Proofs.Matrices.Denotation

/-!
# Factorizing and solving

**Theorem (`factorize_then_solve`).** After a factorization that reports flag zero, the buffers it
left solve the system for every right-hand side, and each solution is the only one.

The two steps share nothing but the words in the buffers. A factorization writes the words of its
factors and both permutations to the front (`Written`); a solve reads these words, all of them and no
others, and finds the factors and the permutations in them (`Read`). The permutations are applied in
opposite directions: a solve gathers the right-hand side along both and scatters the solution back
along both.
-/

namespace SymSolve.Reference

open Matrix

variable {K : Type} [Field K] [LinearOrder K] [FloorRing K] {n : Nat}

/-! ## Words -/

/-- The words of factors and of two permutations were written over the front of buffers. -/
structure Written (F : Ldl n K) (order : Vector (Fin n) n) (a a' : List K) (iw iw' : List Int) :
    Prop where
  reals : a' = F.packed ++ a.drop (packedLength n + (n - 1))
  realCount : F.packed.length = packedLength n + (n - 1)
  integers : iw' = factorWords F.perm (order.toList.map place) ++ iw.drop (2 * n + 1)
  integerCount : (factorWords F.perm (order.toList.map place)).length = 2 * n + 1

/-- What a solve reads in buffers, if it reads these factors and permutations. Of the real words it
takes as many as are written, and each of them counts. -/
structure Read (F : Ldl n K) (order : Vector (Fin n) n) (a : List K) (iw : List Int) : Prop where
  dim : iw.head? = some (n : Int)
  perm : indices? n n (iw.drop 1) = some F.perm
  order : indices? n n (iw.drop (n + 1)) = some order
  lower : (Unpacked.ofWords n fun k => (a[k]?).getD 0).lower = F.lower
  middle : (Unpacked.ofWords n fun k => (a[k]?).getD 0).blockDiagonal.toMatrix = F.middle
  words (b : List K) :
    (Unpacked.ofWords n fun k => (b[k]?).getD 0) = (Unpacked.ofWords n fun k => (a[k]?).getD 0) ↔
      ∀ k < packedLength n + (n - 1), (b[k]?).getD 0 = (a[k]?).getD 0

theorem Stored.read {A : Dense n K} {order : Vector (Fin n) n} {F : Ldl n K} {a : List K}
    {iw : List Int} (h : Stored A order F a iw) : Read F order a iw where
  dim := by
    obtain ⟨rest, rfl⟩ := h.integers
    rfl
  perm := (indices?_factorWords h.integers).1
  order := (indices?_factorWords h.integers).2
  lower := lower_ofWords h.factorizes h.reals
  middle := blockDiagonal_ofWords h.reals
  words _ := ofWords_eq_iff

/-- The buffers that a factorization leaves pass the checks of a solve. -/
theorem solveRefusal?_eq_none {dim : Int} {aLength : Nat} {words : List Int} (pos : 1 ≤ dim)
    (reals : packedLength dim.toNat + dim.toNat ≤ aLength)
    (integers : 2 * dim.toNat + 1 ≤ words.length) (named : words.head? = some dim) :
    solveRefusal? dim aLength words = none := by
  unfold solveRefusal?
  rw [if_neg, if_neg]
  · omega
  · rintro (small | short | other)
    · omega
    · omega
    · exact other named

/-! ## Matrices -/

/-- The symmetric matrix of a structure with indices counted from one: each value stands in the place
that its indices name and in the mirror image of that place, and values with equal places add up. -/
def denoted (p : Pattern) (values : List K) : Matrix (Fin p.dim.toNat) (Fin p.dim.toNat) K :=
  Matrix.of fun i j => ((wordsOf p values).map fun w => wordShare w i j).sum

theorem toMatrix_assembled (p : Pattern) (values : List K) :
    (assembled p.dim.toNat p values).toMatrix = denoted p values := by
  ext i j
  exact assembled_get p values i j

omit [LinearOrder K] [FloorRing K] in
/-- With a regular matrix, a solution is the only one. -/
theorem mulVec_eq_iff {M : Matrix (Fin n) (Fin n) K} (regular : M.det ≠ 0) {x y b : Fin n → K}
    (solves : M *ᵥ y = b) : M *ᵥ x = b ↔ x = y := by
  constructor
  · intro same
    refine sub_eq_zero.1 (eq_zero_of_mulVec_eq_zero regular ?_)
    rw [mulVec_sub, same, solves, sub_self]
  · rintro rfl
    exact solves

variable [IsStrictOrderedRing K] {aLength iwLength keepLength : Nat}

/-- With the words of factors of a regular matrix, every solve gives the only solution. -/
theorem Stored.solves_uniquely {dim : Int} {A : Dense dim.toNat K}
    {order : Vector (Fin dim.toNat) dim.toNat} {F : Ldl dim.toNat K} {a : Vector K aLength}
    {iw : Vector Int iwLength} (h : Stored A order F a.toList iw.toList)
    (regular : A.toMatrix.det ≠ 0) (pos : 1 ≤ dim)
    (long : packedLength dim.toNat + dim.toNat ≤ aLength) :
    solveRefusal? dim aLength iw.toList = none ∧
      ∀ rhs : Vector K dim.toNat, (solve dim a iw rhs).answer = .ok 0 ∧
        ∀ x, A.toMatrix *ᵥ x = rhs.get ↔ x = (solve dim a iw rhs).rhs.get := by
  have words : (factorWords F.perm (order.toList.map place)).length = 2 * dim.toNat + 1 :=
    length_factorWords (by simp)
  have named := h.read.dim
  rw [Int.toNat_of_nonneg (by omega)] at named
  have passes := solveRefusal?_eq_none pos long (words ▸ h.integers.length_le) named
  refine ⟨passes, fun rhs => ?_⟩
  have answered := h.answers regular passes rhs
  exact ⟨answered, fun x => mulVec_eq_iff regular (h.solves answered)⟩

/-! ## Both steps -/

/-- **Factorize, then solve.** A factorization with any ordering of all vertices that answers with
flag zero leaves buffers with which every solve passes its checks, answers with zero and turns the
right-hand side into the only solution. What a solve reads are the words that were written; buffers
of other lengths with the same words in front do as well. -/
theorem factorize_then_solve {s : Pattern} {a : Vector K aLength} {iw : Vector Int iwLength}
    {keep : Vector Int keepLength} {controls : Controls K} {info : KernelInfo}
    (kept : KeepsOrder s.dim.toNat keep.toList)
    (answered : Session.read KernelInfo.ofRaw? (factorize s a iw keep controls).answer = .ok info)
    (success : info.flag = 0) :
    let left := factorize s a iw keep controls
    let A := denoted s a.toList
    solveRefusal? s.dim aLength left.iw.toList = none ∧
    (∀ rhs : Vector K s.dim.toNat, (solve s.dim left.a left.iw rhs).answer = .ok 0 ∧
      ∀ x, A *ᵥ x = rhs.get ↔ x = (solve s.dim left.a left.iw rhs).rhs.get) ∧
    ∃ (order : Vector (Fin s.dim.toNat) s.dim.toNat) (F : Ldl s.dim.toNat K),
      keep.toList.take s.dim.toNat = order.toList.map place ∧
      Written F order a.toList left.a.toList iw.toList left.iw.toList ∧
      Read F order left.a.toList left.iw.toList ∧
      ∀ {aLength' iwLength' : Nat} (a' : Vector K aLength') (iw' : Vector Int iwLength'),
        F.packed <+: a'.toList → factorWords F.perm (order.toList.map place) <+: iw'.toList →
        packedLength s.dim.toNat + s.dim.toNat ≤ aLength' →
        ∀ rhs : Vector K s.dim.toNat, (solve s.dim a' iw' rhs).answer = .ok 0 ∧
          (solve s.dim a' iw' rhs).rhs = (solve s.dim left.a left.iw rhs).rhs := by
  obtain ⟨order, distinct, front⟩ := kept.exists_order
  obtain ⟨room, -⟩ := room_of_answer answered success
  obtain ⟨F, inertia, factorizes, signs, -, reals, integers⟩ :=
    factorize_of_answer answered success front
  have regular : (assembled s.dim.toNat s a.toList).toMatrix.det ≠ 0 := by
    rw [← det_submatrix_of_injective distinct, ← Dense.toMatrix_select]
    exact factorizes.det_middle ▸ signs.det_ne_zero
  intro left A
  have stored : Stored (assembled s.dim.toNat s a.toList) order F left.a.toList left.iw.toList :=
    ⟨distinct, factorizes, ⟨_, reals.symm⟩, ⟨_, integers.symm⟩⟩
  obtain ⟨passes, solves⟩ :=
    stored.solves_uniquely regular (one_le_of_room room) (factorReals_le room)
  rw [toMatrix_assembled] at solves
  refine ⟨passes, solves, order, F, front,
    ⟨reals, F.length_packed, integers, length_factorWords (by simp)⟩, stored.read, ?_⟩
  intro aLength' iwLength' a' iw' front front' long rhs
  have stored' : Stored (assembled s.dim.toNat s a.toList) order F a'.toList iw'.toList :=
    ⟨distinct, factorizes, front, front'⟩
  obtain ⟨-, solves'⟩ := stored'.solves_uniquely regular (one_le_of_room room) long
  obtain ⟨answer, solution⟩ := solves' rhs
  rw [toMatrix_assembled] at solution
  refine ⟨answer, Vector.ext fun i hi => ?_⟩
  -- both are the only solution
  exact congrFun (((solves rhs).2 _).1 ((solution _).2 rfl)) ⟨i, hi⟩

/-! A matrix with three rows under an ordering that turns it around. One value is given above the
diagonal, one below it in the same place, and one outside of the matrix. -/

/-- Positions, counted from one. -/
def turned : Pattern := ⟨3, [2, 1, 3, 5, 2], [1, 2, 3, 1, 2]⟩

/-- Their values, and words that do not count. -/
def turnedValues : Vector ℚ 10 := #v[1, 1, -4, 9, 0, 7, 7, 7, 7, 7]

/-- What a factorization leaves in longer buffers. -/
def turnedFactors : Factorized ℚ Unit 10 13 4 :=
  factorize turned turnedValues (Vector.replicate 13 5) #v[3, 1, 2, 8] defaultControls

theorem factorize_then_solve_turned :
    KeepsOrder 3 [3, 1, 2, 8] ∧
    (∃ info, Session.read KernelInfo.ofRaw? turnedFactors.answer = .ok info ∧ info.flag = 0) ∧
    (solve 3 turnedFactors.a turnedFactors.iw (#v[2, 4, -4] : Vector ℚ 3)).answer = .ok 0 ∧
    denoted turned turnedValues.toList *ᵥ ![2, 1, 1] = (#v[2, 4, -4] : Vector ℚ 3).get := by
  have kept : KeepsOrder 3 (#v[3, 1, 2, 8] : Vector Int 4).toList :=
    ⟨[2, 0, 1], by decide, rfl, by decide⟩
  have answered : ∃ info, Session.read KernelInfo.ofRaw? turnedFactors.answer = .ok info ∧
      info.flag = 0 :=
    ⟨{ realLength := 9, integerLength := 12, realCompressions := 9, integerCompressions := 12,
       rank := 3, negative := 2 }, by decide +kernel, rfl⟩
  obtain ⟨info, told, success⟩ := id answered
  obtain ⟨-, solves, -⟩ := factorize_then_solve (s := turned) kept told success
  obtain ⟨zero, unique⟩ := solves #v[2, 4, -4]
  have written : (solve 3 turnedFactors.a turnedFactors.iw (#v[2, 4, -4] : Vector ℚ 3)).rhs =
      #v[2, 1, 1] := by decide +kernel
  refine ⟨kept, answered, zero, (unique _).2 ?_⟩
  show ![2, 1, 1] = (solve 3 turnedFactors.a turnedFactors.iw (#v[2, 4, -4] : Vector ℚ 3)).rhs.get
  rw [written]
  funext i
  fin_cases i <;> rfl

end SymSolve.Reference
