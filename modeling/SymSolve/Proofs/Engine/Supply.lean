import SymSolve.Proofs.Engine.Outcomes
import SymSolve.Proofs.Exact
import SymSolve.Proofs.Kernel.Room

/-!
# An engine with the reference kernel has room

What the engine makes of its options is never less than what the reference kernel needs: once the
structure is analysed, an engine is `Supplied`, and it stays so. Then a factorization takes a single
attempt, with a success or a singular matrix.

Growth is pending only for a workspace that is not twice as long as needed (`Supplied.scheduled`).

**Theorem (`attempts_supplied`).** In a supplied engine a factorization takes one attempt, and its
verdict is that of the kernel on the matrix: a success, or singular.
-/

namespace SymSolve

/-! ## Lengths -/

/-- Scaling a length loses nothing: with a factor that options may have it does not get shorter, and
with a factor of at least two it gets at least twice as long. -/
class KeepsLengths (α : Type) [Scalar α] : Prop where
  le_scaled : ∀ (factor : α) (base : Nat), Scalar.isFinite factor = true →
    Scalar.lt factor 1 = false ∨ Scalar.lt 1 factor = true →
    ∃ length : Nat, scaledLength factor base = .ok length ∧ base ≤ length
  twice_le_scaled : ∀ (factor : α) (base : Nat), Scalar.isFinite factor = true →
    Scalar.le (Scalar.ofInt 2) factor = true →
    ∃ length : Nat, scaledLength factor base = .ok length ∧ 2 * base ≤ length

theorem KeepsLengths.exists_scaled {α : Type} [Scalar α] [KeepsLengths α] {factor : α} {base : Int}
    (finite : Scalar.isFinite factor = true)
    (large : Scalar.lt factor 1 = false ∨ Scalar.lt 1 factor = true) (nonneg : 0 ≤ base) :
    ∃ length : Int, scaledLength factor base = .ok length ∧ base ≤ length := by
  obtain ⟨n, rfl⟩ := Int.eq_ofNat_of_zero_le nonneg
  obtain ⟨length, read, long⟩ := KeepsLengths.le_scaled factor n finite large
  exact ⟨length, read, Int.ofNat_le.2 long⟩

section Exact

variable {K : Type} [Field K] [LinearOrder K] [IsStrictOrderedRing K] [FloorRing K]

theorem exists_scaledLength {factor : K} {n : Nat} (large : (n : K) ≤ factor) (base : Nat) :
    ∃ length : Nat, scaledLength factor base = .ok length ∧ n * base ≤ length := by
  have nonneg : (0 : K) ≤ factor := (Nat.cast_nonneg n).trans large
  refine ⟨⌊factor * base⌋₊, ?_, Nat.le_floor ?_⟩
  · rw [scaledLength_exact nonneg (Int.natCast_nonneg base), Int.cast_natCast,
      Int.natCast_floor_eq_floor (mul_nonneg nonneg (Nat.cast_nonneg base))]
  · rw [Nat.cast_mul]
    exact mul_le_mul_of_nonneg_right large (Nat.cast_nonneg base)

/-- Exact products of lengths lose nothing. -/
instance : KeepsLengths K where
  le_scaled factor base _ large := by
    have large : ((1 : Nat) : K) ≤ factor := by
      rw [Nat.cast_one]
      rcases large with large | large
      · exact (Scalar.lt_eq_false_iff _ _).1 large
      · exact ((Scalar.lt_iff _ _).1 large).le
    simpa using exists_scaledLength large base
  twice_le_scaled factor base _ large := by
    have large : ((2 : Nat) : K) ≤ factor := by simpa using large
    exact exists_scaledLength large base

end Exact

/-- The factors for lengths are finite. -/
structure Options.Finite {α : Type} [Scalar α] (o : Options α) : Prop where
  analysis : Scalar.isFinite o.analysisOverestimate = true
  integers : Scalar.isFinite o.integerInitFactor = true
  reals : Scalar.isFinite o.realInitFactor = true
  growth : Scalar.isFinite o.growthFactor = true

/-- What options without a fault say about lengths. -/
theorem Options.length_factors {α : Type} [Scalar α] (o : Options α) :
    Scalar.lt o.analysisOverestimate 1 = false ∧ Scalar.lt o.integerInitFactor 1 = false ∧
      Scalar.lt o.realInitFactor 1 = false ∧ Scalar.lt 1 o.growthFactor = true ∧
      1 ≤ o.compressionThreshold := by
  have valid := o.valid
  unfold Settings.fault? at valid
  split_ifs at valid with _ _ _ integers reals growth threshold analysis
  exact ⟨by simpa using analysis, by simpa using integers, by simpa using reals, by simpa using growth,
    by omega⟩

/-- Growth of one of the two workspaces. -/
def PendingGrowth.of (p : PendingGrowth) : WorkspaceKind → Bool
  | .integer => p.integer
  | .real => p.real

theorem PendingGrowth.of_none (kind : WorkspaceKind) : PendingGrowth.none.of kind = false := by
  cases kind <;> rfl

namespace Engine

section Steps

variable {α β : Type} [Scalar α] {e e' e'' : Engine α Unit} {k : Nat} {m : MatrixView α}

/-- The words that a factorization needs in a workspace. -/
def need {σ : Type} (e : Engine α σ) : WorkspaceKind → Int
  | .integer => factorIntegers e.dim e.nonzeros
  | .real => factorReals e.dim e.nonzeros

/-- The engine has the reference kernel, memory that refuses nothing, and finite options. -/
structure Equipped (e : Engine α Unit) : Prop where
  memory : e.memory = .unlimited
  kernel : e.session.kernel = Reference.kernel
  named : e.solverId ≠ ""
  finite : e.options.Finite

theorem Equipped.replace (h : Equipped e) (workspace : Workspace α) :
    Equipped { e with workspace } := ⟨h.memory, h.kernel, h.named, h.finite⟩

theorem Equipped.sameMake (h : Equipped e) (made : SameMake e e')
    (kernel : e'.session.kernel = e.session.kernel) : Equipped e' :=
  ⟨made.memory.trans h.memory, kernel.trans h.kernel, made.solverId ▸ h.named,
    made.options ▸ h.finite⟩

theorem Equipped.steady (h : Equipped e) (steady : Steady e e') : Equipped e' :=
  h.sameMake steady.sameMake steady.kernel

/-- The engine has an ordering and all the words that a factorization needs, and growth is pending
only for a workspace that is not twice as long. -/
structure Supplied (e : Engine α Unit) : Prop where
  dim : 1 ≤ e.dim
  rows : e.pattern.rows.length = e.nonzeros
  cols : e.pattern.cols.length = e.nonzeros
  order : Reference.KeepsOrder e.dim.toNat e.workspace.keep.words.toList
  enough : ∀ kind, e.need kind ≤ e.workspace.lengthOf kind
  scheduled : ∀ kind, e.pending.of kind = true → e.workspace.lengthOf kind < 2 * e.need kind

theorem Steady.need (h : Steady e e') (kind : WorkspaceKind) : e'.need kind = e.need kind := by
  cases kind <;> simp only [Engine.need, h.dim, h.nonzeros]

/-- Nothing was attempted, and the workspaces are as long as they were. -/
structure Rests (e e' : Engine α Unit) : Prop where
  steady : Steady e e'
  lengths : ∀ kind, e'.workspace.lengthOf kind = e.workspace.lengthOf kind
  keep : e'.workspace.keep = e.workspace.keep
  trace : e'.trace = e.trace
  count : e'.factorizationCount = e.factorizationCount

theorem Rests.refl (e : Engine α Unit) : Rests e e := ⟨.refl e, fun _ => rfl, rfl, rfl, rfl⟩

theorem Rests.trans (h : Rests e e') (h' : Rests e' e'') : Rests e e'' :=
  ⟨h.steady.trans h'.steady, fun kind => (h'.lengths kind).trans (h.lengths kind),
    h'.keep.trans h.keep, h'.trace.trans h.trace, h'.count.trans h.count⟩

/-- Reports and notes change nothing about the workspaces. -/
theorem Rests.note (h : Rests e e') (phase : Phase) (matrixTag : Nat) (pending : PendingGrowth)
    (negative : Option Int) (diagnostics : List (Event α)) :
    Rests e { e' with phase, matrixTag, pending, negative, diagnostics } :=
  ⟨{ h.steady with }, h.lengths, h.keep, h.trace, h.count⟩

theorem Supplied.rests (h : Supplied e) (rests : Rests e e')
    (scheduled : ∀ kind, e'.pending.of kind = true →
      e.workspace.lengthOf kind < 2 * e.need kind) : Supplied e' where
  dim := rests.steady.dim ▸ h.dim
  rows := by rw [rests.steady.pattern, rests.steady.nonzeros, h.rows]
  cols := by rw [rests.steady.pattern, rests.steady.nonzeros, h.cols]
  order := by
    rw [rests.steady.dim, rests.keep]
    exact h.order
  enough kind := by
    rw [rests.steady.need, rests.lengths]
    exact h.enough kind
  scheduled kind due := by
    rw [rests.steady.need, rests.lengths]
    exact scheduled kind due

theorem Supplied.capacity (h : Supplied e) : e.nonzeros ≤ e.workspace.reals.length := by
  have enough : factorReals e.dim e.nonzeros ≤ e.workspace.reals.length := h.enough .real
  have := le_max_left (e.nonzeros : Int) ((e.dim * (e.dim + 1)).fdiv 2 + e.dim)
  unfold factorReals at enough
  omega

/-! ### Analysis -/

section Analysis

theorem ends_callAnalysis_of_ok {next : AnalysisResult → EngineM α Unit β}
    {after : β → Engine α Unit → Prop} {bad : Fault → Engine α Unit → Prop} {result : AnalysisResult}
    (answered : (e.session.analyse e.pattern e.workspace.integers.words
      e.workspace.keep.words).result = .ok result)
    (h : Ends (next result) e.afterAnalysis after bad) : Ends (callAnalysis >>= next) e after bad := by
  unfold callAnalysis
  simp only [bind_assoc]
  rw [ends_get, ends_set, answered]
  exact (ends_bind_of_ok rfl).2 h

variable [KeepsLengths α] {A : SymTriplets α}

/-- The structure of a matrix with rows is captured, and nothing else has been done with it. -/
structure Fresh (A : SymTriplets α) (e : Engine α Unit) : Prop where
  rows : 0 < A.dim
  pattern : e.pattern = .ofView A.view
  nonzeros : e.nonzeros = A.nonzeros
  pending : e.pending = .none

omit [KeepsLengths α] in
theorem Fresh.replace (h : Fresh A e) (workspace : Workspace α) :
    Fresh A { e with workspace } := ⟨h.rows, h.pattern, h.nonzeros, h.pending⟩

omit [KeepsLengths α] in
theorem Fresh.rows_length (h : Fresh A e) : e.pattern.rows.length = e.nonzeros := by
  rw [h.pattern, h.nonzeros, Reference.length_rows_ofView]

omit [KeepsLengths α] in
theorem Fresh.cols_length (h : Fresh A e) : e.pattern.cols.length = e.nonzeros := by
  rw [h.pattern, h.nonzeros, Reference.length_cols_ofView]

omit [KeepsLengths α] in
/-- With room for the analysis, the kernel accepts the structure and leaves an ordering. -/
theorem Fresh.analysis (h : Fresh A e) (equipped : Equipped e)
    (integers : analysisIntegers e.dim e.nonzeros ≤ e.workspace.integers.length)
    (keep : 3 * e.dim ≤ e.workspace.keep.length) :
    ∃ result, (e.session.analyse e.pattern e.workspace.integers.words
        e.workspace.keep.words).result = .ok result ∧ result.accepted = true ∧
      result.integerLength = factorIntegers e.dim e.nonzeros ∧
      result.realLength = factorReals e.dim e.nonzeros ∧
      Reference.KeepsOrder e.dim.toNat e.afterAnalysis.workspace.keep.words.toList := by
  have dim : e.dim = A.dim := congrArg Pattern.dim h.pattern
  rw [dim, h.nonzeros] at integers ⊢
  rw [dim] at keep
  have answered := Reference.read_analyse A h.rows ⟨e.workspace.integers.words, rfl⟩
    ⟨e.workspace.keep.words, rfl⟩ integers keep
  refine ⟨⟨true, factorReals A.dim A.nonzeros, factorIntegers A.dim A.nonzeros, 0, 0⟩, ?_, rfl, rfl,
    rfl, ?_⟩
  · rw [Reference.session_analyse equipped.kernel, h.pattern]
    exact answered
  · unfold afterAnalysis
    rw [Reference.session_analyse equipped.kernel, h.pattern]
    exact Reference.keepsOrder_analyse _ _ _ answered rfl

/-- **The analysis always succeeds**, and supplies the engine. -/
theorem analyse_supplies (equipped : Equipped e) (fresh : Fresh A e) :
    Ends (analyse k) e
      (fun refused e' => refused = none ∧ e'.phase = .symbolicDone ∧ Steady e e' ∧ Supplied e' ∧
        e'.pending = .none ∧ e'.trace = e.trace ∧ e'.factorizationCount = e.factorizationCount)
      (fun _ _ => False) := by
  have dim : e.dim = A.dim := congrArg Pattern.dim fresh.pattern
  obtain ⟨overestimate, integersFactor, realsFactor, -, -⟩ := e.options.length_factors
  obtain ⟨n, analysisRead, analysisLong⟩ := KeepsLengths.exists_scaled equipped.finite.analysis
    (.inl overestimate) (show 0 ≤ 2 * (e.nonzeros : Int) + 3 * e.dim + 1 by omega)
  obtain ⟨integers, integersRead, integersLong⟩ := KeepsLengths.exists_scaled
    equipped.finite.integers (.inl integersFactor)
    (show 0 ≤ factorIntegers e.dim e.nonzeros by unfold factorIntegers; omega)
  obtain ⟨reals, realsRead, realsLong⟩ := KeepsLengths.exists_scaled equipped.finite.reals
    (.inl realsFactor)
    (show 0 ≤ factorReals e.dim e.nonzeros from le_max_of_le_left (Int.natCast_nonneg _))
  unfold analyse
  rw [ends_get]
  refine ends_length analysisRead (ends_unlimited_integers equipped.memory (by omega) ?_)
  refine ends_unlimited_keep equipped.memory (show 0 ≤ 3 * e.dim by omega) ?_
  let e₁ : Engine α Unit := { e with workspace := { e.workspace with
    integers := e.workspace.integers.grow n.toNat
    keep := e.workspace.keep.grow (3 * e.dim).toNat } }
  show Ends _ e₁ _ _
  have equipped₁ : Equipped e₁ := equipped.replace _
  have room : analysisIntegers e.dim e.nonzeros ≤ e₁.workspace.integers.length ∧
      3 * e.dim ≤ e₁.workspace.keep.length := by
    simp only [e₁, Buffer.length_grow, analysisIntegers]
    omega
  obtain ⟨result, answered, accepted, recommendedIntegers, recommendedReals, order⟩ :=
    (fresh.replace _).analysis equipped₁ room.1 room.2
  -- the kernel recommends what a factorization needs, and scaling does not take from it
  refine ends_callAnalysis_of_ok answered ?_
  rw [if_pos accepted]
  refine ends_length (recommendedIntegers ▸ integersRead) ?_
  have equipped₂ : Equipped e₁.afterAnalysis := equipped₁.steady { Steady.refl e₁ with }
  refine ends_unlimited_integers equipped₂.memory (by unfold factorIntegers at integersLong; omega) ?_
  refine ends_length (recommendedReals ▸ realsRead) ?_
  refine ends_unlimited_reals equipped₂.memory (le_max_of_le_left (Int.natCast_nonneg _)) ?_
  rw [ends_modify]
  refine ⟨rfl, rfl, { Steady.refl e with }, ?_, fresh.pending, rfl, rfl⟩
  refine ⟨?_, fresh.rows_length, fresh.cols_length, order, fun kind => ?_, fun kind due => ?_⟩
  · exact dim ▸ Int.ofNat_le.2 fresh.rows
  · cases kind
    · show factorIntegers e.dim e.nonzeros ≤ (Buffer.grow _ integers.toNat).length
      rw [Buffer.length_grow]
      omega
    · show factorReals e.dim e.nonzeros ≤ (Buffer.grow _ (max (e.nonzeros : Int) reals).toNat).length
      rw [Buffer.length_grow]
      omega
  · have due : e.pending.of kind = true := due
    rw [fresh.pending, PendingGrowth.of_none] at due
    cases due

end Analysis

/-! ### Growth -/

section Growth

variable [KeepsLengths α] {e₁ : Engine α Unit}

/-- What a call may make of a length: growth is carried out only if it is due. `large` says that the
factor is at least two. -/
inductive Enlarges (due : Bool) (large : Prop) (before after : Nat) : Prop
  | same (h : after = before)
  | grown (asked : due = true) (le : before ≤ after) (twice : large → 2 * before ≤ after)

theorem Enlarges.le {due : Bool} {large : Prop} {before after : Nat}
    (h : Enlarges due large before after) : before ≤ after := by
  cases h with
  | same h => exact Nat.le_of_eq h.symm
  | grown _ le _ => exact le

/-- The options let a workspace at least double. -/
def Doubles (e : Engine α Unit) : Prop := Scalar.le (Scalar.ofInt 2) e.options.growthFactor = true

theorem Equipped.grownLength (h : Equipped e) (n : Nat) :
    ∃ length : Nat, grownLength n n e.options.growthFactor = .ok (length : Int) ∧
      n ≤ length ∧ (e.Doubles → 2 * n ≤ length) := by
  obtain ⟨-, -, -, growing, -⟩ := e.options.length_factors
  obtain ⟨length, read, long⟩ := KeepsLengths.le_scaled _ n h.finite.growth (.inr growing)
  refine ⟨max n length, ?_, Nat.le_max_left _ _, fun large => ?_⟩
  · simp only [SymSolve.grownLength, read, Except.map, Nat.cast_max]
  · obtain ⟨length', read', twice⟩ := KeepsLengths.twice_le_scaled _ n h.finite.growth large
    rw [read] at read'
    have same := Int.ofNat.inj (Except.ok.inj read')
    omega

theorem growReals_enlarges (h₁ : Equipped e₁) (h : Equipped e)
    (same : e.workspace.reals.length = e₁.workspace.reals.length) :
    Ends (growReals e₁) e
      (fun _ e' => ∃ reals : Buffer α, e' = { e with workspace := { e.workspace with reals } } ∧
        Enlarges e₁.pending.real e₁.Doubles e₁.workspace.reals.length reals.length)
      (fun _ _ => False) := by
  unfold growReals
  split
  · next due =>
    obtain ⟨length, read, le, twice⟩ := h₁.grownLength e₁.workspace.reals.length
    refine ends_length read ?_
    rw [← bind_pure (ensureReals _)]
    refine ends_unlimited_reals h.memory (Int.natCast_nonneg length) ⟨_, rfl, ?_⟩
    rw [Buffer.length_grow, Int.toNat_natCast, same, Nat.max_eq_right le]
    exact .grown due le twice
  · exact ⟨e.workspace.reals, rfl, .same same⟩

theorem growIntegers_enlarges (h₁ : Equipped e₁) (h : Equipped e)
    (same : e.workspace.integers.length = e₁.workspace.integers.length) :
    Ends (growIntegers e₁) e
      (fun _ e' => ∃ integers, e' = { e with workspace := { e.workspace with integers } } ∧
        Enlarges e₁.pending.integer e₁.Doubles e₁.workspace.integers.length integers.length)
      (fun _ _ => False) := by
  unfold growIntegers
  split
  · next due =>
    obtain ⟨length, read, le, twice⟩ := h₁.grownLength e₁.workspace.integers.length
    refine ends_length read ?_
    rw [← bind_pure (ensureIntegers _)]
    refine ends_unlimited_integers h.memory (Int.natCast_nonneg length) ⟨_, rfl, ?_⟩
    rw [Buffer.length_grow, Int.toNat_natCast, same, Nat.max_eq_right le]
    exact .grown due le twice
  · exact ⟨e.workspace.integers, rfl, .same same⟩

/-- Pending growth has been carried out: nothing is pending any more, and nothing else about the
workspaces has changed. -/
structure Grows (e e' : Engine α Unit) : Prop where
  steady : Steady e e'
  keep : e'.workspace.keep = e.workspace.keep
  pending : e'.pending = .none
  trace : e'.trace = e.trace
  count : e'.factorizationCount = e.factorizationCount
  enlarges : ∀ kind, Enlarges (e.pending.of kind) e.Doubles (e.workspace.lengthOf kind)
    (e'.workspace.lengthOf kind)

theorem applyPendingGrowth_grows (h : Equipped e) :
    Ends (applyPendingGrowth k) e (fun _ => Grows e) (fun _ _ => False) := by
  rw [applyPendingGrowth_eq, ends_get]
  split
  · refine (growReals_enlarges h h rfl).bind ?_ (by simp)
    rintro - _ ⟨reals, rfl, enlargesReals⟩
    refine (growIntegers_enlarges h (h.replace { e.workspace with reals }) rfl).bind ?_ (by simp)
    rintro - _ ⟨integers, rfl, enlargesIntegers⟩
    unfold settleGrowth emitReallocated
    rw [ends_modify, ends_get]
    refine (ends_emit_graded (k := k) .warning (by decide +kernel) (by simp [toString])
      (by exact h.named) ?_).mono ?_ (by simp)
    · simp only [List.append_nil, List.forall_mem_cons]
      exact ⟨⟨_, rfl⟩, ⟨_, rfl⟩, by simp⟩
    · rintro - _ ⟨diagnostics, rfl, -⟩
      refine ⟨{ Steady.refl e with }, rfl, rfl, rfl, rfl, fun kind => ?_⟩
      cases kind
      · exact enlargesIntegers
      · exact enlargesReals
  · next idle =>
    have none : e.pending = .none := PendingGrowth.eq_none (by simpa using idle)
    exact ⟨.refl e, rfl, none, rfl, rfl, fun kind => .same rfl⟩

omit [KeepsLengths α] in
theorem Supplied.grows (h : Supplied e) (grown : Grows e e') : Supplied e' where
  dim := grown.steady.dim ▸ h.dim
  rows := by rw [grown.steady.pattern, grown.steady.nonzeros, h.rows]
  cols := by rw [grown.steady.pattern, grown.steady.nonzeros, h.cols]
  order := by
    rw [grown.steady.dim, grown.keep]
    exact h.order
  enough kind := by
    rw [grown.steady.need]
    exact Int.le_trans (h.enough kind) (Int.ofNat_le.2 (grown.enlarges kind).le)
  scheduled kind due := by
    rw [grown.pending, PendingGrowth.of_none] at due
    cases due

end Growth

/-! ### Attempts -/

open Reference (Judges)

theorem rests_afterFactorization (h : Equipped e) (fits : m.values.length ≤ e.workspace.reals.length) :
    Rests e (e.afterFactorization m) where
  steady := { Steady.refl e with }
  lengths kind := by
    cases kind
    · exact Session.size_factorize_iw ..
    · exact (Session.size_factorize_a ..).trans (length_of_fill (MatrixView.fill_of_le fits))
  keep := by
    unfold afterFactorization
    rw [Reference.session_factorize h.kernel]
    show (⟨(Reference.factorize e.pattern _ _ _ _).keep.toArray⟩ : Buffer Int) = _
    rw [Reference.keep_factorize]
  trace := rfl
  count := rfl

/-- With enough room one attempt is made, which is a success or finds the matrix singular. -/
theorem attempts_supplied (equipped : Equipped e) (h : Supplied e)
    (fits : m.values.length ≤ e.workspace.reals.length) (i : Nat) :
    ∃ result, Judges e.pattern e.workspace.reals.length e.workspace.integers.length result ∧
      attempts m k i e =
        (.ok (some (result, i)), recordAttempt result k i (e.afterFactorization m)) := by
  have filled : (overwriteFront m.values.toArray e.workspace.reals.words).size =
      e.workspace.reals.length := length_of_fill (MatrixView.fill_of_le fits)
  have integers : factorIntegers e.dim e.nonzeros ≤ e.workspace.integers.length := h.enough .integer
  have reals : factorReals e.dim e.nonzeros ≤ e.workspace.reals.length := h.enough .real
  rw [← h.rows] at integers reals
  obtain ⟨result, answered, judges⟩ := Reference.read_factorize h.dim (h.cols.trans h.rows.symm)
    ⟨overwriteFront m.values.toArray e.workspace.reals.words, rfl⟩
    ⟨e.workspace.integers.words, rfl⟩ ⟨e.workspace.keep.words, rfl⟩ e.session.controls integers
    (by rwa [filled]) h.order
  rw [filled] at judges
  have tried : attempt m k i e = (.ok result, recordAttempt result k i (e.afterFactorization m)) := by
    rw [attempt_eq fits, Reference.session_factorize equipped.kernel]
    simp only [answered]
  refine ⟨result, judges, ?_⟩
  have enough : shortage? result.verdict = none := by
    rcases judges.verdict with verdict | verdict <;> rw [verdict] <;> rfl
  rw [attempts]
  simp only [tried, enough]

end Steps

end Engine

end SymSolve
