import SymSolve.Proofs.Kernel.Room
import SymSolve.Proofs.Kernel.RoundTrip

/-!
# What the reference kernel does to its buffers

**Theorem (`kernel_keeps_to_fronts`).** Whatever the buffers hold and however long they are:

* an analysis that answers -1, -2 or -3 leaves them as they were, and any other writes to the first
  `3 n` words of the index array and the first `2 nz + 3 n + 1` integer words;
* a factorization never writes to the index array. One that answers -1, -3, -4 or -5 leaves the
  other buffers as they were, and any other writes to the real words of the packed factors and to
  the first `2 n + 1` integer words;
* a solve writes to the right-hand side, and only if it answers zero.

All of these fronts are inside of the buffers, and the length that -3 or -4 names is the least with
which the same call passes that check.

The two checks compare lengths that the dimension and the number of positions decide. So a refusal
tells all that the same call needs (`analysisRefusal?_short_iff`, `factorRefusal?_integers_iff`,
`factorRefusal?_reals_iff`), and once the checks have passed every front fits.
-/

namespace SymSolve

/-- Words may change in the first `count` places only, and the buffer has that many. -/
structure WritesFront {β : Type} {length : Nat} (count : Nat) (before after : Vector β length) :
    Prop where
  inside : count ≤ length
  behind : ∀ i : Fin length, count ≤ i.val → after.get i = before.get i

theorem writesFront_overwrite {β : Type} {length count : Nat} (v : Vector β length)
    {front : Array β} (all : front.size = count) (fits : count ≤ length) :
    WritesFront count v (overwrite v front) where
  inside := fits
  behind i later := by rw [get_overwrite, dif_neg (by omega)]

/-- The answer is an array of status words with this flag. -/
def Flags (answer : Except Breakdown RawInfo) (flag : Int) : Prop :=
  ∃ info : KernelInfo, answer = .ok info.toRaw ∧ info.flag = flag

theorem KernelInfo.toRaw_injective : Function.Injective toRaw := fun info info' same => by
  have read := ofRaw?_toRaw info
  rw [same, ofRaw?_toRaw] at read
  exact (Except.ok.inj read).symm

theorem flags_iff {info : KernelInfo} {flag : Int} :
    Flags (.ok info.toRaw) flag ↔ info.flag = flag := by
  constructor
  · rintro ⟨info', same, told⟩
    obtain rfl := KernelInfo.toRaw_injective (Except.ok.inj same)
    exact told
  · intro told
    exact ⟨info, rfl, told⟩

namespace Reference

variable {α : Type} [Scalar α] {aLength iwLength keepLength : Nat} {s : Pattern}

/-! ## Analysis -/

/-- What an analysis does to its buffers, when it answers with `info`. -/
structure AnalysisFrame (s : Pattern) (iw : Vector Int iwLength) (keep : Vector Int keepLength)
    (controls : Controls α) (info : KernelInfo) : Prop where
  answered : (kernel.analyse () s iw keep controls).answer = .ok info.toRaw
  refused : info.flag ∈ [-1, -2, -3] →
    (kernel.analyse () s iw keep controls).iw = iw ∧
      (kernel.analyse () s iw keep controls).keep = keep
  written : info.flag ∉ [-1, -2, -3] →
    WritesFront (3 * s.dim.toNat) keep (kernel.analyse () s iw keep controls).keep ∧
      WritesFront (2 * s.rows.length + 3 * s.dim.toNat + 1) iw
        (kernel.analyse () s iw keep controls).iw
  /-- The length that is named is the least that passes the check. -/
  integers : info.flag = -3 → ∀ {length : Nat} (iw' : Vector Int length),
    Flags (kernel.analyse () s iw' keep controls).answer (-3) ↔ length < info.detail

section Analysis

omit [Scalar α]

theorem flag_of_analysisRefusal? {info : KernelInfo}
    (h : analysisRefusal? s iwLength keepLength = some info) : info.flag ∈ [-1, -2, -3] := by
  unfold analysisRefusal? at h
  dsimp only at h
  split_ifs at h <;> cases h <;> simp

/-- An analysis is refused for its integer words if and only if they are too few. -/
theorem analysisRefusal?_short_iff (keepLength : Nat) :
    (∃ info, analysisRefusal? s iwLength keepLength = some info ∧ info.flag = -3) ↔
      1 ≤ s.dim ∧ s.cols.length = s.rows.length ∧
        iwLength < analysisIntegers s.dim s.rows.length := by
  unfold analysisRefusal?
  dsimp only
  split_ifs with small unpaired short index <;> simp <;> omega

theorem detail_of_analysisRefusal? {info : KernelInfo}
    (h : analysisRefusal? s iwLength keepLength = some info) (short : info.flag = -3) :
    info.detail = analysisIntegers s.dim s.rows.length := by
  unfold analysisRefusal? at h
  dsimp only at h
  split_ifs at h <;> cases h <;> first | rfl | simp at short

theorem integers_of_analysisRefusal? (room : analysisRefusal? s iwLength keepLength = none) :
    1 ≤ s.dim ∧ analysisIntegers s.dim s.rows.length ≤ iwLength := by
  unfold analysisRefusal? at room
  dsimp only at room
  split_ifs at room
  omega

theorem flag_analysisInfo (places : List (Option (Fin s.dim.toNat × Fin s.dim.toNat))) :
    (analysisInfo s places).flag ∉ [-1, -2, -3] := by
  simp only [analysisInfo]
  split_ifs <;> simp

/-- An analysis answers -3 if and only if its integer words are too few. -/
theorem flags_analyse_iff (iw : Vector Int iwLength) (keep : Vector Int keepLength) :
    Flags (analyse s iw keep).answer (-3) ↔ 1 ≤ s.dim ∧ s.cols.length = s.rows.length ∧
      iwLength < analysisIntegers s.dim s.rows.length := by
  rw [← analysisRefusal?_short_iff keepLength]
  cases refused : analysisRefusal? s iwLength keepLength with
  | some info =>
    simp only [analyse, refused, flags_iff]
    simp
  | none =>
    have other := flag_analysisInfo (positions s.dim.toNat s)
    simp only [analyse, refused, flags_iff]
    simp_all

theorem writesFront_analyse (iw : Vector Int iwLength) (keep : Vector Int keepLength)
    (room : analysisRefusal? s iwLength keepLength = none) :
    WritesFront (3 * s.dim.toNat) keep (analyse s iw keep).keep ∧
      WritesFront (2 * s.rows.length + 3 * s.dim.toNat + 1) iw (analyse s iw keep).iw := by
  have single := Graph.nodup_neighbours_ofEdges ((positions s.dim.toNat s).filterMap id)
  have kept := length_keptOrder (Graph.length_narrowOrder single)
  have fits := room_of_analysisRefusal? room
  obtain ⟨dim, integers⟩ := integers_of_analysisRefusal? room
  have cleared : (analysisIntegers s.dim s.rows.length).toNat =
      2 * s.rows.length + 3 * s.dim.toNat + 1 := by
    unfold analysisIntegers
    omega
  simp only [analyse, room]
  constructor
  · exact writesFront_overwrite keep kept fits
  · exact writesFront_overwrite iw (Array.size_replicate.trans cleared) (by omega)

end Analysis

/-- Every analysis answers, and keeps to the fronts of its buffers. -/
theorem exists_analysisFrame (s : Pattern) (iw : Vector Int iwLength) (keep : Vector Int keepLength)
    (controls : Controls α) : ∃ info, AnalysisFrame s iw keep controls info := by
  cases refused : analysisRefusal? s iwLength keepLength with
  | some info =>
    have left : kernel.analyse () s iw keep controls = ⟨(), iw, keep, .ok info.toRaw⟩ := by
      simp only [kernel, analyse, refused]
    have flag := flag_of_analysisRefusal? refused
    refine ⟨info, by rw [left], fun _ => by rw [left]; exact ⟨rfl, rfl⟩,
      fun other => absurd flag other, fun short length iw' => ?_⟩
    obtain ⟨dim, paired, -⟩ := (analysisRefusal?_short_iff keepLength).1 ⟨info, refused, short⟩
    rw [detail_of_analysisRefusal? refused short]
    exact (flags_analyse_iff iw' keep).trans (by simp [dim, paired])
  | none =>
    have flag := flag_analysisInfo (positions s.dim.toNat s)
    refine ⟨analysisInfo s (positions s.dim.toNat s), ?_, fun negative => absurd negative flag,
      fun _ => writesFront_analyse iw keep refused, fun short => absurd (by simp [short]) flag⟩
    simp only [kernel, analyse, refused]

/-! ## Factorization -/

/-- What a factorization does to its buffers, when it answers with `info`. -/
structure FactorizationFrame (s : Pattern) (a : Vector α aLength) (iw : Vector Int iwLength)
    (keep : Vector Int keepLength) (controls : Controls α) (info : KernelInfo) : Prop where
  answered : (kernel.factorize () s a iw keep controls).answer = .ok info.toRaw
  ordering : (kernel.factorize () s a iw keep controls).keep = keep
  refused : info.flag ∈ [-1, -3, -4, -5] →
    (kernel.factorize () s a iw keep controls).a = a ∧
      (kernel.factorize () s a iw keep controls).iw = iw
  written : info.flag ∉ [-1, -3, -4, -5] →
    WritesFront (packedLength s.dim.toNat + (s.dim.toNat - 1)) a
        (kernel.factorize () s a iw keep controls).a ∧
      WritesFront (2 * s.dim.toNat + 1) iw (kernel.factorize () s a iw keep controls).iw
  /-- The length that is named is the least that passes the check. -/
  integers : info.flag = -3 → ∀ {length : Nat} (iw' : Vector Int length),
    Flags (kernel.factorize () s a iw' keep controls).answer (-3) ↔ length < info.detail
  reals : info.flag = -4 → ∀ {length : Nat} (a' : Vector α length),
    Flags (kernel.factorize () s a' iw keep controls).answer (-4) ↔ length < info.detail

section Refusal

omit [Scalar α]

theorem flag_of_factorRefusal? {info : KernelInfo}
    (h : factorRefusal? s aLength iwLength = some info) : info.flag ∈ [-1, -3, -4, -5] := by
  unfold factorRefusal? at h
  dsimp only at h
  split_ifs at h <;> cases h <;> simp

/-- A factorization is refused for its integer words if and only if they are too few. -/
theorem factorRefusal?_integers_iff :
    (∃ info, factorRefusal? s aLength iwLength = some info ∧ info.flag = -3) ↔
      1 ≤ s.dim ∧ iwLength < factorIntegers s.dim s.rows.length := by
  unfold factorRefusal?
  dsimp only
  split_ifs with small integers reals <;> simp <;> omega

/-- A factorization is refused for its real words if and only if they are too few, and the integer
words are not. -/
theorem factorRefusal?_reals_iff :
    (∃ info, factorRefusal? s aLength iwLength = some info ∧ info.flag = -4) ↔
      1 ≤ s.dim ∧ factorIntegers s.dim s.rows.length ≤ iwLength ∧
        aLength < factorReals s.dim s.rows.length := by
  unfold factorRefusal?
  dsimp only
  split_ifs with small integers reals <;> simp <;> omega

theorem detail_of_factorRefusal? {info : KernelInfo}
    (h : factorRefusal? s aLength iwLength = some info) :
    (info.flag = -3 → info.detail = factorIntegers s.dim s.rows.length) ∧
      (info.flag = -4 → info.detail = factorReals s.dim s.rows.length) := by
  unfold factorRefusal? at h
  dsimp only at h
  split_ifs at h <;> cases h <;> simp

end Refusal

/-- With an ordering of all vertices a factorization that is not refused finds the matrix singular,
or leaves factors in its buffers. -/
theorem factorize_of_room (a : Vector α aLength) (iw : Vector Int iwLength)
    {keep : Vector Int keepLength} (controls : Controls α)
    (room : factorRefusal? s aLength iwLength = none) (paired : s.cols.length = s.rows.length)
    (kept : KeepsOrder s.dim.toNat keep.toList) :
    ∃ info : KernelInfo, (factorize s a iw keep controls).answer = .ok info.toRaw ∧
      ((info.flag = -5 ∧ (factorize s a iw keep controls).a = a ∧
          (factorize s a iw keep controls).iw = iw) ∨
        (0 ≤ info.flag ∧
          WritesFront (packedLength s.dim.toNat + (s.dim.toNat - 1)) a
            (factorize s a iw keep controls).a ∧
          WritesFront (2 * s.dim.toNat + 1) iw (factorize s a iw keep controls).iw)) := by
  obtain ⟨order, -, all, front⟩ := kept
  have together : pairingFault? s = none := if_pos paired.symm
  have full : order.toArray.size = s.dim.toNat := by simpa using all
  have pos := one_le_of_room room
  have words : (keep.toList.take s.dim.toNat).length = s.dim.toNat := by
    rw [front, List.length_map, all]
  obtain ⟨factors, made⟩ := factorsOf?_of_full (by omega)
    (entries (positions s.dim.toNat s) a.toList) full controls
  rcases factors with _ | ⟨F, inertia⟩
  · refine ⟨{ flag := Kernel.singularFlag }, ?_, .inl ⟨rfl, ?_, ?_⟩⟩ <;>
      simp only [factorize, room, together, orderIn?_of_take front, made]
  · refine ⟨factorInfo s aLength iwLength inertia, ?_, .inr ⟨?_, ?_⟩⟩
    · simp only [factorize, room, together, orderIn?_of_take front, made]
    · simp only [factorInfo]
      split_ifs <;> omega
    · have real : F.packed.toArray.size = packedLength s.dim.toNat + (s.dim.toNat - 1) := by
        rw [List.size_toArray, F.length_packed, full]
      have integer : (factorWords F.perm (keep.toList.take s.dim.toNat)).toArray.size =
          2 * s.dim.toNat + 1 := by
        rw [List.size_toArray, length_factorWords (words.trans full.symm), full]
      have reals := factorReals_le room
      simp only [factorize, room, together, orderIn?_of_take front, made]
      exact ⟨writesFront_overwrite a real (by omega),
        writesFront_overwrite iw integer (factorIntegers_le room)⟩

/-- Nothing but a refusal names a length. -/
theorem flags_factorize_iff (a : Vector α aLength) (iw : Vector Int iwLength)
    {keep : Vector Int keepLength} (controls : Controls α) (paired : s.cols.length = s.rows.length)
    (kept : KeepsOrder s.dim.toNat keep.toList) {flag : Int} (short : flag = -3 ∨ flag = -4) :
    Flags (factorize s a iw keep controls).answer flag ↔
      ∃ info, factorRefusal? s aLength iwLength = some info ∧ info.flag = flag := by
  cases refused : factorRefusal? s aLength iwLength with
  | some info =>
    simp only [factorize, refused, flags_iff]
    simp
  | none =>
    obtain ⟨info, answered, ends⟩ := factorize_of_room a iw controls refused paired kept
    rw [answered, flags_iff]
    simp only [reduceCtorEq, false_and, exists_false, iff_false]
    rcases ends with ⟨singular, -⟩ | ⟨nonneg, -⟩ <;> omega

/-- Every factorization with an ordering of all vertices answers, and keeps to the fronts of its
buffers. -/
theorem exists_factorizationFrame (a : Vector α aLength) (iw : Vector Int iwLength)
    {keep : Vector Int keepLength} (controls : Controls α) (paired : s.cols.length = s.rows.length)
    (kept : KeepsOrder s.dim.toNat keep.toList) :
    ∃ info, FactorizationFrame s a iw keep controls info := by
  have ordering : (kernel.factorize () s a iw keep controls).keep = keep := keep_factorize ..
  cases refused : factorRefusal? s aLength iwLength with
  | some info =>
    have left : kernel.factorize () s a iw keep controls = ⟨(), a, iw, keep, .ok info.toRaw⟩ := by
      simp only [kernel, factorize, refused]
    have flag := flag_of_factorRefusal? refused
    obtain ⟨integers, reals⟩ := detail_of_factorRefusal? refused
    refine ⟨info, by rw [left], ordering, fun _ => by rw [left]; exact ⟨rfl, rfl⟩,
      fun other => absurd flag other, fun short length iw' => ?_, fun short length a' => ?_⟩
    · obtain ⟨dim, -⟩ := factorRefusal?_integers_iff.1 ⟨info, refused, short⟩
      rw [integers short]
      refine (flags_factorize_iff a iw' controls paired kept (.inl rfl)).trans ?_
      simp [factorRefusal?_integers_iff, dim]
    · obtain ⟨dim, enough, -⟩ := factorRefusal?_reals_iff.1 ⟨info, refused, short⟩
      rw [reals short]
      refine (flags_factorize_iff a' iw controls paired kept (.inr rfl)).trans ?_
      simp [factorRefusal?_reals_iff, dim, enough]
  | none =>
    obtain ⟨info, answered, ends⟩ := factorize_of_room a iw controls refused paired kept
    refine ⟨info, answered, ordering, fun negative => ?_, fun other => ?_, fun short => ?_,
      fun short => ?_⟩
    · rcases ends with ⟨-, same⟩ | ⟨nonneg, -⟩
      · exact same
      · simp only [List.mem_cons, List.not_mem_nil, or_false] at negative
        omega
    · rcases ends with ⟨singular, -⟩ | ⟨-, written⟩
      · simp [singular] at other
      · exact written
    · rcases ends with ⟨singular, -⟩ | ⟨nonneg, -⟩ <;> omega
    · rcases ends with ⟨singular, -⟩ | ⟨nonneg, -⟩ <;> omega

/-! ## Solving -/

/-- A solve writes to the right-hand side, and only if it answers zero. -/
theorem rhs_solve {rhsLength : Nat} (dim : Int) (a : Vector α aLength) (iw : Vector Int iwLength)
    (rhs : Vector α rhsLength) (fails : (solve dim a iw rhs).answer ≠ .ok 0) :
    (solve dim a iw rhs).rhs = rhs := by
  unfold solve at fails ⊢
  dsimp only at fails ⊢
  split
  · rfl
  · split
    · split
      · rfl
      · split
        · next solved => simp_all
        · rfl
    · rfl

/-- **The reference kernel keeps to the fronts of its buffers**, which are inside of them, and
writes nothing where it refuses or fails. The lengths that it asks for are the least that pass its
checks. -/
theorem kernel_keeps_to_fronts (s : Pattern) (controls : Controls α) (a : Vector α aLength)
    (iw : Vector Int iwLength) (keep : Vector Int keepLength) :
    (∃ info, AnalysisFrame s iw keep controls info) ∧
      (s.cols.length = s.rows.length → KeepsOrder s.dim.toNat keep.toList →
        ∃ info, FactorizationFrame s a iw keep controls info) ∧
      ∀ (dim : Int) {rhsLength : Nat} (rhs : Vector α rhsLength),
        (kernel.solve () dim a iw rhs).a = a ∧ (kernel.solve () dim a iw rhs).iw = iw ∧
          ((kernel.solve () dim a iw rhs).answer ≠ .ok 0 →
            (kernel.solve () dim a iw rhs).rhs = rhs) := by
  refine ⟨exists_analysisFrame s iw keep controls,
    fun paired kept => exists_factorizationFrame a iw controls paired kept, fun dim _ rhs => ?_⟩
  obtain ⟨reals, integers⟩ := solve_leaves dim a iw rhs
  exact ⟨reals, integers, rhs_solve dim a iw rhs⟩

/-- With four integer words the factorization of five entries asks for twelve. -/
theorem kernel_keeps_to_fronts_turned :
    turned.cols.length = turned.rows.length ∧
    KeepsOrder 3 (#v[3, 1, 2] : Vector Int 3).toList ∧
    ∃ info, FactorizationFrame turned turnedValues (Vector.replicate 4 7) #v[3, 1, 2]
      defaultControls info ∧ info.flag = -3 ∧ info.detail = 12 := by
  have kept : KeepsOrder 3 (#v[3, 1, 2] : Vector Int 3).toList :=
    ⟨[2, 0, 1], by decide, rfl, rfl⟩
  obtain ⟨-, factorization, -⟩ := kernel_keeps_to_fronts turned defaultControls turnedValues
    (Vector.replicate 4 7) #v[3, 1, 2]
  obtain ⟨info, frame⟩ := factorization rfl kept
  have told : (kernel.factorize () turned turnedValues (Vector.replicate 4 7)
      (#v[3, 1, 2] : Vector Int 3) defaultControls).answer =
        .ok (KernelInfo.toRaw { flag := -3, detail := 12 }) := rfl
  obtain rfl := KernelInfo.toRaw_injective (Except.ok.inj (frame.answered.symm.trans told))
  exact ⟨rfl, kept, _, frame, rfl, rfl⟩

end Reference

end SymSolve
