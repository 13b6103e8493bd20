import Mathlib.LinearAlgebra.Matrix.Nondegenerate
import SymSolve.Kernel.Session
import SymSolve.Proofs.Assembly
import SymSolve.Proofs.Ldl.Inertia
import SymSolve.Proofs.Ldl.Packed
import SymSolve.Proofs.Ldl.Regular
import SymSolve.Proofs.Ordering

/-!
# What the reference kernel computes

With room and an ordering of all vertices, a factorization always ends in one way (`factorize_ends`).

**Theorem (`factorize_factored`).** A factorization that is a success leaves factors of the matrix
that the triplets denote, and it reports the number of its negative signs.

**Theorem (`solve_solves`).** With these factors every solve that gives an answer gives a solution.

The two meet in `Factored`: the packed factors stand in front of the real words, and the two
permutations in front of the integer words.
-/

namespace SymSolve.Reference

open Matrix

/-! ## Words in front of a buffer -/

section Words

variable {α : Type} {n : Nat}

theorem toList_overwrite (v : Vector α n) {front : List α} (fits : front.length ≤ n) :
    (overwrite v front.toArray).toList = front ++ v.toList.drop front.length := by
  refine List.ext_getElem (by simp [fits]) fun i hi _ => ?_
  rw [List.getElem_append]
  split
  · next inside => simp [overwrite, inside]
  · next outside =>
    have back : front.length + (i - front.length) = i := by omega
    simp [overwrite, outside, back, Vector.get]

theorem prefix_overwrite (v : Vector α n) {front : List α} (fits : front.length ≤ n) :
    front <+: (overwrite v front.toArray).toList :=
  ⟨_, (toList_overwrite v fits).symm⟩

/-- A place, counted from one. -/
def place (i : Fin n) : Int := (i.val : Int) + 1

@[simp] theorem signedIndex?_place (i : Fin n) : signedIndex? n (place i - 1) = some i := by
  rw [place, Int.add_sub_cancel]
  exact signedIndex?_natCast i.isLt

theorem indices?_of_prefix {m : Nat} (places : Vector (Fin m) n) {words : List Int}
    (front : places.toList.map place <+: words) : indices? m n words = some places := by
  have word (k : Fin n) : (words[k.val]?).getD 0 = place (places.get k) := by
    have inside : k.val < (places.toList.map place).length := by simp
    rw [List.prefix_iff_getElem?.1 front k.val inside]
    simp [Vector.get]
  have read : (fun k : Fin n => signedIndex? m ((words[k.val]?).getD 0 - 1)) =
      fun k => some (places.get k) := by
    simp [word]
  have all : Vector.ofFn places.get = places := Vector.ext fun i hi => by simp [Vector.get]
  rw [indices?, read]
  exact Vector.ofFnM_pure.trans (congrArg some all)

theorem orderIn?_of_take {order : List (Fin n)} {keep : List Int}
    (front : keep.take n = order.map place) : orderIn? n keep = some order := by
  have read : (fun v : Fin n => signedIndex? n (place v - 1)) = fun v => pure v := by
    funext v
    exact signedIndex?_place v
  rw [orderIn?, front, List.mapM_map]
  exact (congrArg order.mapM read).trans (List.mapM_pure.trans (congrArg some order.map_id'))

end Words

/-! ## Analysis -/

/-- The front of the index array is an ordering of all vertices. -/
def KeepsOrder (n : Nat) (keep : List Int) : Prop :=
  ∃ order : List (Fin n), order.Nodup ∧ order.length = n ∧ keep.take n = order.map place

section Analysis

variable {α : Type} {iwLength keepLength : Nat}

theorem length_keptOrder {n : Nat} {order : List (Fin n)} (all : order.length = n) :
    (keptOrder order).length = 3 * n := by
  simp [keptOrder, all]
  omega

theorem keepsOrder_overwrite {n : Nat} {order : List (Fin n)} (nodup : order.Nodup)
    (all : order.length = n) (keep : Vector Int keepLength) (fits : 3 * n ≤ keepLength) :
    KeepsOrder n (overwrite keep (keptOrder order).toArray).toList := by
  refine ⟨order, nodup, all, ?_⟩
  obtain ⟨rest, words⟩ := prefix_overwrite keep ((length_keptOrder all).trans_le fits)
  rw [← words, keptOrder, List.append_assoc, List.append_assoc]
  exact List.take_left' (by simpa using all)

theorem flag_ne_zero_of_analysisRefusal? {s : Pattern} {info : KernelInfo}
    (h : analysisRefusal? s iwLength keepLength = some info) : info.flag ≠ 0 := by
  unfold analysisRefusal? at h
  dsimp only at h
  split_ifs at h <;> cases h <;> simp

theorem room_of_analysisRefusal? {s : Pattern}
    (h : analysisRefusal? s iwLength keepLength = none) : 3 * s.dim.toNat ≤ keepLength := by
  unfold analysisRefusal? at h
  dsimp only at h
  split_ifs at h
  omega

theorem accepted_of_read {info : KernelInfo} {result : AnalysisResult}
    (answered : Session.read AnalysisResult.ofRaw? (.ok info.toRaw) = .ok result)
    (accepted : result.accepted) : info.flag = 0 := by
  simp only [Session.read, AnalysisResult.ofRaw?, KernelInfo.ofRaw?_toRaw] at answered
  cases answered
  simpa [AnalysisResult.ofInfo] using accepted

/-- An analysis that is accepted leaves an ordering. -/
theorem keepsOrder_analyse (s : Pattern) (iw : Vector Int iwLength) (keep : Vector Int keepLength)
    {result : AnalysisResult}
    (answered : Session.read AnalysisResult.ofRaw? (analyse s iw keep).answer = .ok result)
    (accepted : result.accepted) : KeepsOrder s.dim.toNat (analyse s iw keep).keep.toList := by
  cases refused : analysisRefusal? s iwLength keepLength with
  | some info =>
    simp only [analyse, refused] at answered
    exact absurd (accepted_of_read answered accepted) (flag_ne_zero_of_analysisRefusal? refused)
  | none =>
    simp only [analyse, refused]
    have single := Graph.nodup_neighbours_ofEdges ((positions s.dim.toNat s).filterMap id)
    exact keepsOrder_overwrite (Graph.nodup_narrowOrder single) (Graph.length_narrowOrder single)
      keep (room_of_analysisRefusal? refused)

end Analysis

/-! ## Factorization -/

variable {K : Type} [Field K] [LinearOrder K] [FloorRing K]

/-- Buffers with factors of a matrix that has so many negative signs. -/
structure Factored {n : Nat} (A : Dense n K) (negative : Int) (a : List K) (iw : List Int) :
    Prop where
  factors : ∃ (order : Vector (Fin n) n) (F : Ldl n K), Function.Injective order.get ∧
    F.Factorizes (A.select order) ∧ F.packed <+: a ∧
    factorWords F.perm (order.toList.map place) <+: iw
  signs : ∃ k : Nat, Signs A.toMatrix k ∧ negative = k

section Factorization

variable {aLength iwLength keepLength n m : Nat}

theorem flag_ne_zero_of_factorRefusal? {s : Pattern} {info : KernelInfo}
    (h : factorRefusal? s aLength iwLength = some info) : info.flag ≠ 0 := by
  unfold factorRefusal? at h
  dsimp only at h
  split_ifs at h <;> cases h <;> simp

theorem flag_of_success {info : KernelInfo} (judged : Verdict.of? info = .ok .success) :
    info.flag = 0 := by
  unfold Verdict.of? at judged
  split at judged
  · assumption
  · cases short : Verdict.requirement? info.detail <;> rw [short] at judged <;> cases judged
  · cases short : Verdict.requirement? info.detail <;> rw [short] at judged <;> cases judged
  · cases judged
  · cases judged
  · cases judged

theorem info_of_read {answer : Except Breakdown RawInfo} {result : FactorizationResult}
    (answered : Session.read FactorizationResult.ofRaw? answer = .ok result)
    (success : result.verdict = .success) :
    ∃ info, Session.read KernelInfo.ofRaw? answer = .ok info ∧ info.flag = 0 ∧
      result.negative = info.negative := by
  cases answer with
  | error cause => cases answered
  | ok raw =>
    simp only [Session.read, FactorizationResult.ofRaw?] at answered ⊢
    cases told : KernelInfo.ofRaw? raw with
    | error cause =>
      rw [told] at answered
      cases answered
    | ok info =>
      rw [told] at answered
      change (Verdict.of? info >>= fun verdict =>
        pure (FactorizationResult.ofInfo info verdict)).mapError _ = _ at answered
      cases judged : Verdict.of? info with
      | error cause =>
        rw [judged] at answered
        cases answered
      | ok verdict =>
        rw [judged] at answered
        cases answered
        obtain rfl : verdict = .success := success
        exact ⟨info, rfl, flag_of_success judged, rfl⟩

/-- The cutoff is nonnegative, whatever the bound is. -/
theorem zeroCutoff_nonneg [IsStrictOrderedRing K] (bound : K) (A : Dense m K) :
    0 ≤ zeroCutoff n bound A := by
  have unit : (0 : K) ≤ Scalar.epsilon := by
    show (0 : K) ≤ 1 / 4503599627370496
    positivity
  rw [zeroCutoff, Scalar.larger_eq, Scalar.ofNat, Scalar.ofInt_eq]
  refine le_max_of_le_right (mul_nonneg (mul_nonneg ?_ unit) (Scalar.maxAbs_nonneg _))
  exact Int.cast_nonneg (Int.natCast_nonneg n)

theorem one_le_of_room {s : Pattern} (h : factorRefusal? s aLength iwLength = none) : 1 ≤ s.dim := by
  unfold factorRefusal? at h
  dsimp only at h
  split_ifs at h
  omega

theorem factorReals_le {s : Pattern} (h : factorRefusal? s aLength iwLength = none) :
    packedLength s.dim.toNat + s.dim.toNat ≤ aLength := by
  unfold factorRefusal? at h
  dsimp only at h
  split_ifs at h with small _ short
  obtain ⟨n, dim⟩ := Int.eq_ofNat_of_zero_le (show 0 ≤ s.dim by omega)
  have triangle : ((n : Int) * (n + 1)).fdiv 2 = packedLength n := by
    rw [Int.fdiv_eq_ediv_of_nonneg _ (by omega), packedLength]
    push_cast
    rfl
  have most := le_max_right (s.rows.length : Int) ((n * (n + 1) : Int).fdiv 2 + n)
  rw [dim, factorReals] at short
  rw [dim]
  simp only [Int.toNat_natCast]
  omega

theorem factorIntegers_le {s : Pattern} (h : factorRefusal? s aLength iwLength = none) :
    2 * s.dim.toNat + 1 ≤ iwLength := by
  unfold factorRefusal? at h
  dsimp only at h
  split_ifs at h with small short
  unfold factorIntegers at short
  omega

theorem flag_factorInfo {s : Pattern} {inertia : Inertia}
    (h : (factorInfo s aLength iwLength inertia).flag = 0) : inertia.zero = 0 := by
  simp only [factorInfo] at h
  split_ifs at h <;> omega

/-- A factorization that answers with flag zero was not refused. -/
theorem room_of_answer {s : Pattern} {a : Vector K aLength} {iw : Vector Int iwLength}
    {keep : Vector Int keepLength} {controls : Controls K} {info : KernelInfo}
    (answered : Session.read KernelInfo.ofRaw? (factorize s a iw keep controls).answer = .ok info)
    (success : info.flag = 0) :
    factorRefusal? s aLength iwLength = none ∧ pairingFault? s = none := by
  cases refused : factorRefusal? s aLength iwLength with
  | some refusal =>
    simp only [factorize, refused, Session.read, KernelInfo.ofRaw?_toRaw] at answered
    cases answered
    exact absurd success (flag_ne_zero_of_factorRefusal? refused)
  | none =>
    cases unpaired : pairingFault? s with
    | some failure =>
      simp only [factorize, refused, unpaired] at answered
      cases answered
    | none => exact ⟨rfl, rfl⟩

theorem length_factorWords {perm : Vector (Fin n) n} {order : List Int} (all : order.length = n) :
    (factorWords perm order).length = 2 * n + 1 := by
  simp only [factorWords, List.length_cons, List.length_append, List.length_map,
    Vector.length_toList, all]
  omega

/-- The ordering in the front of the index array, as a vector. -/
theorem KeepsOrder.exists_order {keep : List Int} (kept : KeepsOrder n keep) :
    ∃ order : Vector (Fin n) n, Function.Injective order.get ∧
      keep.take n = order.toList.map place := by
  obtain ⟨order, nodup, all, front⟩ := kept
  refine ⟨⟨order.toArray, by simpa using all⟩, fun i j same => ?_, front⟩
  exact Fin.ext ((nodup.getElem_inj_iff).1 same)

/-- With an ordering of all vertices there are factors, and nothing else can happen to them. -/
theorem factorsOf?_ends {es : List (Entry n n K)} {order : Vector (Fin n) m} (full : m = n)
    (pos : 0 < n) {controls : Controls K} {F : Ldl m K}
    (found : Ldl.ofTable? controls.tolerance ((assemble es).select order) = some F) :
    ∃ G, factorsOf? es order.toArray controls =
        .ok (some (G, F.inertia (zeroCutoff n controls.zeroPivot ((assemble es).select order)))) ∧
      G.packed = F.packed ∧ factorWords G.perm = factorWords F.perm := by
  obtain ⟨order, rfl⟩ := order
  refine ⟨F, ?_, rfl, rfl⟩
  unfold factorsOf?
  dsimp only
  rw [found]
  simp [Ldl.allFinite, Dense.allFinite, full, pos.ne']

variable [IsStrictOrderedRing K]

/-- **What a factorization does** that has room and an ordering of all vertices: it finds factors of
the permuted matrix, leaves them in its buffers and reports their inertia. -/
theorem factorize_ends {s : Pattern} (a : Vector K aLength) (iw : Vector Int iwLength)
    {keep : Vector Int keepLength} (controls : Controls K)
    (room : factorRefusal? s aLength iwLength = none) (paired : pairingFault? s = none)
    {order : Vector (Fin s.dim.toNat) s.dim.toNat}
    (front : keep.toList.take s.dim.toNat = order.toList.map place) :
    ∃ F, Ldl.ofTable? controls.tolerance
        ((assemble (entries (positions s.dim.toNat s) a.toList)).select order) = some F ∧
      factorize s a iw keep controls =
        { state := ()
          a := overwrite a F.packed.toArray
          iw := overwrite iw (factorWords F.perm (order.toList.map place)).toArray
          keep
          answer := .ok (factorInfo s aLength iwLength (F.inertia (zeroCutoff s.dim.toNat
            controls.zeroPivot
            ((assemble (entries (positions s.dim.toNat s) a.toList)).select order)))).toRaw } := by
  have pos : 0 < s.dim.toNat := by
    have := one_le_of_room room
    omega
  obtain ⟨nonneg, least⟩ := Ldl.boundOf_mem controls.tolerance
  obtain ⟨F, found, -⟩ := Ldl.exists_factor? nonneg least
    ((assemble_symmetric (entries (positions s.dim.toNat s) a.toList)).select order)
  obtain ⟨G, made, packed, words⟩ := factorsOf?_ends rfl pos found
  refine ⟨F, found, ?_⟩
  simp only [factorize, room, paired, orderIn?_of_take front, front]
  -- the ordering is read as a list, and it is the list of the vector
  rw [show factorsOf? (entries (positions s.dim.toNat s) a.toList) order.toList.toArray controls = _
    from made]
  dsimp only
  rw [packed, words]

/-- The same for a factorization that answers with flag zero. No eigenvalue counted as zero. -/
theorem factorize_of_answer {s : Pattern} {a : Vector K aLength} {iw : Vector Int iwLength}
    {keep : Vector Int keepLength} {controls : Controls K} {info : KernelInfo}
    (answered : Session.read KernelInfo.ofRaw? (factorize s a iw keep controls).answer = .ok info)
    (success : info.flag = 0)
    {order : Vector (Fin s.dim.toNat) s.dim.toNat}
    (front : keep.toList.take s.dim.toNat = order.toList.map place) :
    ∃ (F : Ldl s.dim.toNat K) (inertia : Inertia),
      F.Factorizes ((assemble (entries (positions s.dim.toNat s) a.toList)).select order) ∧
      Signs F.middle inertia.negative ∧ info = factorInfo s aLength iwLength inertia ∧
      (factorize s a iw keep controls).a.toList =
        F.packed ++ a.toList.drop (packedLength s.dim.toNat + (s.dim.toNat - 1)) ∧
      (factorize s a iw keep controls).iw.toList =
        factorWords F.perm (order.toList.map place) ++ iw.toList.drop (2 * s.dim.toNat + 1) := by
  obtain ⟨room, paired⟩ := room_of_answer answered success
  obtain ⟨F, found, ends⟩ := factorize_ends a iw controls room paired front
  have reals := factorReals_le room
  have integers := factorIntegers_le room
  have words : (factorWords F.perm (order.toList.map place)).length = 2 * s.dim.toNat + 1 :=
    length_factorWords (by simp)
  have factorizes := Ldl.factor?_factorizes ((assemble_symmetric _).select order) found
  rw [ends] at answered ⊢
  cases answered
  refine ⟨F, _, factorizes, ?_, rfl, ?_, ?_⟩
  · exact factorizes.signs_middle (zeroCutoff_nonneg _ _) (flag_factorInfo success)
  · rw [← F.length_packed]
    exact toList_overwrite a (by rw [F.length_packed]; omega)
  · rw [← words]
    exact toList_overwrite iw (by omega)

/-- A factorization that is a success leaves factors of the assembled matrix. -/
theorem factorize_factored {s : Pattern} {a : Vector K aLength} {iw : Vector Int iwLength}
    {keep : Vector Int keepLength} {controls : Controls K} {result : FactorizationResult}
    (kept : KeepsOrder s.dim.toNat keep.toList)
    (answered : Session.read FactorizationResult.ofRaw? (factorize s a iw keep controls).answer =
      .ok result) (success : result.verdict = .success) :
    Factored (assemble (entries (positions s.dim.toNat s) a.toList)) result.negative
      (factorize s a iw keep controls).a.toList (factorize s a iw keep controls).iw.toList := by
  obtain ⟨order, distinct, front⟩ := kept.exists_order
  obtain ⟨info, told, flag, negative⟩ := info_of_read answered success
  obtain ⟨F, inertia, factorizes, signs, rfl, reals, integers⟩ :=
    factorize_of_answer told flag front
  refine ⟨⟨order, F, distinct, factorizes, ⟨_, reals.symm⟩, ⟨_, integers.symm⟩⟩, _, ?_, negative⟩
  have permuted := factorizes.hasInertia (signs_iff.1 signs)
  rw [Dense.toMatrix_select] at permuted
  exact signs_iff.2 (permuted.of_submatrix distinct)

end Factorization

/-! ## Solving -/

section Solving

variable {aLength iwLength n m : Nat}

theorem get_set {α : Type} (v : Vector α m) (i j : Fin m) (a : α) :
    (v.set i.val a i.isLt).get j = if i = j then a else v.get j := by
  show (v.set i.val a i.isLt)[j.val] = _
  rw [Vector.getElem_set]
  exact if_congr Fin.ext_iff.symm rfl rfl

theorem get_foldl_set {α : Type} {places : Vector (Fin m) n} (distinct : Function.Injective places.get)
    (values : Vector α n) (written : List (Fin n)) (v : Vector α m) (k : Fin n) :
    (written.foldl (fun v k => v.set (places.get k).val (values.get k) (places.get k).isLt) v).get
      (places.get k) = if k ∈ written then values.get k else v.get (places.get k) := by
  induction written generalizing v with
  | nil => rfl
  | cons j written ih =>
    simp only [List.foldl_cons, ih, get_set, distinct.eq_iff]
    by_cases here : j = k
    · simp [here]
    · simp [here, Ne.symm here]

/-- What is written to a place stands there, if the places are different. -/
theorem get_scatter {α : Type} {places : Vector (Fin m) n} (distinct : Function.Injective places.get)
    (v : Vector α m) (values : Vector α n) (k : Fin n) :
    (scatter v places values).get (places.get k) = values.get k :=
  (get_foldl_set distinct values _ v k).trans (if_pos (List.mem_finRange k))

theorem solveFactors_ok {U : Unpacked n K} {b x : Vector K n} (h : solveFactors U b = .ok x) :
    ∃ z, U.blockDiagonal.solve? (U.lower.forward b) = some z ∧ x = U.lower.backward z := by
  unfold solveFactors at h
  dsimp only at h
  split at h
  · cases h
  split at h
  · cases h
  split at h
  · cases h
  next z solved =>
  split at h
  · cases h
  · cases h
    exact ⟨z, solved, rfl⟩

/-- With a regular block diagonal there is a solution. -/
theorem exists_solveFactors [IsStrictOrderedRing K] {U : Unpacked n K}
    (regular : U.blockDiagonal.toMatrix.det ≠ 0) (b : Vector K n) :
    ∃ x, solveFactors U b = .ok x := by
  obtain ⟨z, found⟩ := Dense.exists_solve? (fun _ => eq_zero_of_mulVec_eq_zero regular)
    (U.lower.forward b)
  refine ⟨U.lower.backward z, ?_⟩
  unfold solveFactors
  dsimp only
  rw [found]
  simp [Dense.allFinite, finite]

theorem finite_exact (v : Vector K n) : finite v = true := by
  simp [finite]

theorem flag_ne_zero_of_solveRefusal? {dim flag : Int} {words : List Int}
    (h : solveRefusal? dim aLength words = some flag) : flag ≠ 0 := by
  unfold solveRefusal? at h
  split_ifs at h <;> cases h <;> decide

/-- A solve that answers has read both permutations and solved with the factors. -/
theorem solve_of_answer {dim : Int} {a : Vector K aLength} {iw : Vector Int iwLength}
    {rhs : Vector K m} {order : Vector (Fin m) dim.toNat} {perm : Vector (Fin dim.toNat) dim.toNat}
    (orderRead : indices? m dim.toNat (iw.toList.drop (dim.toNat + 1)) = some order)
    (permRead : indices? dim.toNat dim.toNat (iw.toList.drop 1) = some perm)
    (answered : (solve dim a iw rhs).answer = .ok 0) :
    ∃ stage, solveFactors (Unpacked.ofWords dim.toNat fun k => (a[k]?).getD 0)
        (Vector.ofFn fun k => rhs.get (order.get (perm.get k))) = .ok stage ∧
      (solve dim a iw rhs).rhs = scatter rhs order (scatter (Vector.replicate _ 0) perm stage) := by
  cases refused : solveRefusal? dim aLength iw.toList with
  | some flag =>
    simp only [solve, refused] at answered
    cases answered
    exact absurd rfl (flag_ne_zero_of_solveRefusal? refused)
  | none =>
    simp only [solve, refused, permRead, orderRead, finite_exact, if_true] at answered ⊢
    split at answered
    · cases answered
    · next stage solved => exact ⟨stage, solved, rfl⟩

theorem indices?_factorWords {perm order : Vector (Fin n) n} {words : List Int}
    (front : factorWords perm (order.toList.map place) <+: words) :
    indices? n n (words.drop 1) = some perm ∧ indices? n n (words.drop (n + 1)) = some order := by
  obtain ⟨rest, rfl⟩ := front
  have parts : factorWords perm (order.toList.map place) ++ rest =
      ((n : Int) :: perm.toList.map place) ++ (order.toList.map place ++ rest) :=
    List.append_assoc ..
  rw [parts]
  constructor
  · exact indices?_of_prefix perm ⟨order.toList.map place ++ rest, rfl⟩
  · refine indices?_of_prefix order ⟨rest, ?_⟩
    exact (List.drop_left' (by simp)).symm

/-- Buffers with the words of factors of `A` under an ordering in front. -/
structure Stored (A : Dense n K) (order : Vector (Fin n) n) (F : Ldl n K) (a : List K)
    (iw : List Int) : Prop where
  distinct : Function.Injective order.get
  factorizes : F.Factorizes (A.select order)
  reals : F.packed <+: a
  integers : factorWords F.perm (order.toList.map place) <+: iw

namespace Stored

variable {dim : Int} {A : Dense dim.toNat K} {order : Vector (Fin dim.toNat) dim.toNat}
  {F : Ldl dim.toNat K} {a : Vector K aLength} {iw : Vector Int iwLength}

/-- A solve that answers with zero has solved the system. -/
theorem solves (h : Stored A order F a.toList iw.toList) {rhs : Vector K dim.toNat}
    (answered : (solve dim a iw rhs).answer = .ok 0) :
    A.toMatrix *ᵥ (solve dim a iw rhs).rhs.get = rhs.get := by
  obtain ⟨distinct, factorizes, reals, integers⟩ := h
  obtain ⟨permRead, orderRead⟩ := indices?_factorWords integers
  obtain ⟨stage, solved, written⟩ := solve_of_answer orderRead permRead answered
  obtain ⟨z, middle, rfl⟩ := solveFactors_ok solved
  have words : (fun k : Nat => (a[k]?).getD (0 : K)) = fun k => (a.toList[k]?).getD 0 := by simp
  have lower := unitLower_ofWords factorizes reals
  have diagonal := blockDiagonal_ofWords reals
  rw [words] at middle written
  generalize Unpacked.ofWords dim.toNat (fun k : Nat => (a.toList[k]?).getD (0 : K)) = U
    at middle written lower diagonal
  refine Dense.mulVec_of_submatrix distinct ?_ rfl
  have outer : (solve dim a iw rhs).rhs.get ∘ order.get =
      (scatter (Vector.replicate _ 0) F.perm (U.lower.backward z)).get := by
    rw [written]
    exact funext (get_scatter distinct rhs _)
  have inner : (scatter (Vector.replicate _ (0 : K)) F.perm (U.lower.backward z)).get ∘ F.perm.get =
      (U.lower.backward z).get := funext (get_scatter factorizes.distinct _ _)
  have permuted : (Vector.ofFn fun k => rhs.get (order.get (F.perm.get k))).get =
      (rhs.get ∘ order.get) ∘ F.perm.get := funext (vector_get_ofFn _)
  have forward := U.lower.forward_solves (Vector.ofFn fun k => rhs.get (order.get (F.perm.get k)))
  have solvedMiddle := Dense.solve?_solves middle
  have backward := U.lower.backward_solves z
  rw [lower, permuted] at forward
  rw [diagonal] at solvedMiddle
  rw [lower, ← inner] at backward
  rw [outer, ← Dense.toMatrix_select]
  exact factorizes.solves forward solvedMiddle backward

/-- A solve that passes its own checks answers with zero, if the matrix is regular. -/
theorem answers [IsStrictOrderedRing K] (h : Stored A order F a.toList iw.toList)
    (regular : A.toMatrix.det ≠ 0) (room : solveRefusal? dim aLength iw.toList = none)
    (rhs : Vector K dim.toNat) : (solve dim a iw rhs).answer = .ok 0 := by
  obtain ⟨permRead, orderRead⟩ := indices?_factorWords h.integers
  have middle : F.middle.det ≠ 0 := by
    rwa [h.factorizes.det_middle, Dense.toMatrix_select, det_submatrix_of_injective h.distinct]
  have diagonal := blockDiagonal_ofWords h.reals
  rw [← diagonal] at middle
  have words : (fun k : Nat => (a[k]?).getD (0 : K)) = fun k => (a.toList[k]?).getD 0 := by simp
  obtain ⟨stage, solved⟩ := exists_solveFactors middle
    (Vector.ofFn fun k => rhs.get (order.get (F.perm.get k)))
  rw [← words] at solved
  simp only [solve, room, permRead, orderRead, solved, finite_exact, if_true]

end Stored

/-- **Solutions from factors**: with the words that a factorization left, a solve that answers has
solved the system. -/
theorem solve_solves {dim : Int} {A : Dense dim.toNat K} {negative : Int} {a : Vector K aLength}
    {iw : Vector Int iwLength} (h : Factored A negative a.toList iw.toList) (full : m = dim.toNat)
    {rhs : Vector K m} (answered : (solve dim a iw rhs).answer = .ok 0) :
    ∃ b x : Fin dim.toNat → K, rhs.toList = List.ofFn b ∧
      (solve dim a iw rhs).rhs.toList = List.ofFn x ∧ A.toMatrix *ᵥ x = b := by
  subst full
  obtain ⟨⟨order, F, distinct, factorizes, reals, integers⟩, -⟩ := h
  exact ⟨rhs.get, (solve dim a iw rhs).rhs.get, toList_eq_ofFn _, toList_eq_ofFn _,
    Stored.solves ⟨distinct, factorizes, reals, integers⟩ answered⟩

end Solving

end SymSolve.Reference
