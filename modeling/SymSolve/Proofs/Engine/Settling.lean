import SymSolve.Proofs.Engine.ExactSolutions
import SymSolve.Proofs.Engine.Supply

/-!
# Workspaces suffice and settle

The calls of an engine with the reference kernel, followed from a supplied engine on (`Serves`): each
factorization takes one attempt, and a workspace gets longer only where growth was pending. Growth
that at least doubles a workspace makes it so long that no growth is asked for any more.

**Theorem (`workspaces_suffice_and_settle`).** Whatever a caller does: the kernel never lacks words,
so that a call fails in solving only; and if the options let workspaces at least double, each of the
two is enlarged once at most until the structure is reset.
-/

namespace SymSolve

/-- How often a workspace was compressed. -/
def FactorizationResult.compressions (r : FactorizationResult) : WorkspaceKind → Int
  | .integer => r.integerCompressions
  | .real => r.realCompressions

namespace Engine

section Calls

variable {α : Type} [Scalar α] {e e' e'' : Engine α Unit} {k : Nat} {m : MatrixView α}

/-! ## The end of a factorization -/

/-- Growth that is pending after a factorization was pending before, or its compressions have
reached the threshold. -/
theorem ends_scheduleGrowth (named : e.solverId ≠ "") (result : FactorizationResult) (i : Nat) :
    Ends (scheduleGrowth result k i) e
      (fun _ e' => ∃ pending diagnostics, e' = { e with pending, diagnostics } ∧
        ∀ kind, pending.of kind = true → e.pending.of kind = true ∨
          e.options.compressionThreshold ≤ result.compressions kind)
      (fun _ _ => False) := by
  unfold scheduleGrowth
  rw [ends_get]
  dsimp only
  split
  · rw [ends_set]
    refine (ends_emit_graded .warning (by decide +kernel) (by simp) (by exact named)
      (by simp [Payload.normalize])).mono ?_ fun _ _ h => h
    rintro - _ ⟨diagnostics, rfl, -⟩
    refine ⟨_, diagnostics, rfl, fun kind due => ?_⟩
    cases kind <;> simpa [PendingGrowth.of, FactorizationResult.compressions] using due
  · exact ⟨e.pending, e.diagnostics, rfl, fun _ due => .inl due⟩

/-- Only a workspace that is not twice as long as needed is compressed. -/
theorem Supplied.short_of_compressions (h : Supplied e) {result : FactorizationResult}
    (judges : Reference.Judges e.pattern e.workspace.reals.length e.workspace.integers.length result)
    (success : result.verdict = .success) {kind : WorkspaceKind}
    (compressed : e.options.compressionThreshold ≤ result.compressions kind) :
    e.workspace.lengthOf kind < 2 * e.need kind := by
  by_contra long
  -- the kernel compresses nothing then, and a threshold is at least one
  have least := e.options.length_factors.2.2.2.2
  have never : result.compressions kind = 0 := by
    cases judges with
    | singular singular => rw [success] at singular; cases singular
    | success _ reals integers =>
      rw [h.rows] at reals integers
      cases kind
      · exact integers.trans (congrArg Nat.cast (Reference.compressionCount_eq_zero (not_lt.1 long)))
      · exact reals.trans (congrArg Nat.cast (Reference.compressionCount_eq_zero (not_lt.1 long)))
  omega

/-- What becomes of a preparation: factors that are current, maybe of the wrong inertia, or a
singular matrix. -/
def Readied (outcome : Option Outcome) (phase : Phase) : Prop :=
  phase = .factorized ∧ outcome ≠ some .fatalError ∨
    phase = .factorizationStale ∧ outcome = some .singular

theorem Readied.current {phase : Phase} (h : Readied none phase) : phase = .factorized := by
  rcases h with ⟨late, -⟩ | ⟨-, singular⟩
  · exact late
  · cases singular

theorem conclude_supplies (equipped : Equipped e) (h : Supplied e) {result : FactorizationResult}
    (judges : Reference.Judges e.pattern e.workspace.reals.length e.workspace.integers.length result)
    (i : Nat) :
    Ends (conclude result k i) e
      (fun outcome e' => Rests e e' ∧ Supplied e' ∧ Readied outcome e'.phase) (fun _ _ => False) := by
  unfold conclude
  rw [ends_get]
  rcases judges.verdict with judged | judged <;> simp only [judged]
  · rw [ends_set]
    refine (ends_scheduleGrowth (by exact equipped.named) result i).bind ?_ (by simp)
    rintro - _ ⟨pending, diagnostics, rfl, scheduled⟩
    rw [ends_modify]
    have rests := (Rests.refl e).note .factorized e.matrixTag pending (some result.negative) diagnostics
    refine ⟨rests, h.rests rests fun kind due => ?_, .inl ⟨rfl, nofun⟩⟩
    rcases scheduled kind due with before | compressed
    · exact h.scheduled kind before
    · exact h.short_of_compressions judges judged compressed
  · rw [ends_set]
    refine (ends_emit_graded .error (by decide +kernel) (by simp [toString]) (by exact equipped.named)
      (by simp [Payload.normalize])).bind ?_ (by simp)
    rintro - _ ⟨diagnostics, rfl, -⟩
    have rests := (Rests.refl e).note .factorizationStale e.matrixTag e.pending e.negative diagnostics
    exact ⟨rests, h.rests rests h.scheduled, .inr ⟨rfl, rfl⟩⟩

/-! ## One attempt -/

/-- The attempt was the first, it had all the words that a factorization needs, and it was a success
or found the matrix singular. -/
structure Sole (e : Engine α Unit) (r : AttemptRecord α) : Prop where
  first : r.attemptIndex = 0
  judged : r.status = Verdict.success.name ∨ r.status = Verdict.singular.name
  integers : e.need .integer ≤ r.integerLength
  reals : e.need .real ≤ r.realLength

/-- At most one attempt was made. -/
def Once (e e' : Engine α Unit) : Prop :=
  (e'.trace = e.trace ∧ e'.factorizationCount = e.factorizationCount) ∨
    ∃ r, e'.trace = e.trace ++ [r] ∧ e'.factorizationCount = e.factorizationCount + 1 ∧ e.Sole r

/-- From `e` on the engine has been served with all that a factorization needs. -/
structure Serves (e e' : Engine α Unit) : Prop where
  steady : Steady e e'
  supplied : Supplied e'
  once : Once e e'
  enlarges : e.phase.Analysed → ∀ kind, Enlarges (e.pending.of kind) e.Doubles
    (e.workspace.lengthOf kind) (e'.workspace.lengthOf kind)

theorem Supplied.serves (h : Supplied e) : Serves e e :=
  ⟨.refl e, h, .inl ⟨rfl, rfl⟩, fun _ _ => .same rfl⟩

/-- After the factorization the workspaces stay as they are. -/
theorem Serves.rests (h : Serves e e') (rests : Rests e' e'') (pending : e''.pending = e'.pending) :
    Serves e e'' where
  steady := h.steady.trans rests.steady
  supplied := h.supplied.rests rests (pending ▸ h.supplied.scheduled)
  once := by
    rw [Once, rests.trace, rests.count]
    exact h.once
  enlarges analysed kind := by
    rw [rests.lengths]
    exact h.enlarges analysed kind

/-- Before the factorization the engine has been supplied, and if it was before, the workspaces are
as they were. -/
structure Opens (e e' : Engine α Unit) : Prop where
  steady : Steady e e'
  supplied : Supplied e'
  analysed : e'.phase.Analysed
  trace : e'.trace = e.trace
  count : e'.factorizationCount = e.factorizationCount
  pending : e.phase.Analysed → e'.pending = e.pending
  lengths : e.phase.Analysed → ∀ kind, e'.workspace.lengthOf kind = e.workspace.lengthOf kind

theorem Supplied.opens (h : Supplied e) (analysed : e.phase.Analysed) : Opens e e :=
  ⟨.refl e, h, analysed, rfl, rfl, fun _ => rfl, fun _ _ => rfl⟩

theorem Opens.trans (h : Opens e e') (h' : Opens e' e'') : Opens e e'' where
  steady := h.steady.trans h'.steady
  supplied := h'.supplied
  analysed := h'.analysed
  trace := h'.trace.trans h.trace
  count := h'.count.trans h.count
  pending analysed := (h'.pending h.analysed).trans (h.pending analysed)
  lengths analysed kind := (h'.lengths h.analysed kind).trans (h.lengths analysed kind)

theorem Opens.serves (opens : Opens e e') (h : Serves e' e'') : Serves e e'' where
  steady := opens.steady.trans h.steady
  supplied := h.supplied
  once := by
    have once := h.once
    rw [Once, opens.trace, opens.count] at once
    refine once.imp_right ?_
    rintro ⟨r, trace, count, first, judged, integers, reals⟩
    exact ⟨r, trace, count, first, judged, opens.steady.need _ ▸ integers,
      opens.steady.need _ ▸ reals⟩
  enlarges analysed kind := by
    have enlarges := h.enlarges opens.analysed kind
    rw [opens.lengths analysed, opens.pending analysed, Doubles, opens.steady.options] at enlarges
    exact enlarges

/-- From `e` on one attempt was made, with that result, and it had enough room. -/
structure Tried (e : Engine α Unit) (result : FactorizationResult) (e' : Engine α Unit) : Prop where
  steady : Steady e e'
  supplied : Supplied e'
  lengths : ∀ kind, e'.workspace.lengthOf kind = e.workspace.lengthOf kind
  judges : Reference.Judges e'.pattern e'.workspace.reals.length e'.workspace.integers.length result
  sole : ∃ r, e'.trace = e.trace ++ [r] ∧ e'.factorizationCount = e.factorizationCount + 1 ∧ e.Sole r

theorem attempts_tried (equipped : Equipped e) (h : Supplied e)
    (fits : m.values.length ≤ e.workspace.reals.length) :
    ∃ result e', attempts m k 0 e = (.ok (some (result, 0)), e') ∧ Tried e result e' := by
  obtain ⟨result, judges, attempted⟩ := attempts_supplied (k := k) equipped h fits 0
  have rests := rests_afterFactorization equipped fits
  have room := h.rests rests h.scheduled
  have integers : (e.afterFactorization m).workspace.integers.length = e.workspace.integers.length :=
    rests.lengths .integer
  have reals : (e.afterFactorization m).workspace.reals.length = e.workspace.reals.length :=
    rests.lengths .real
  refine ⟨result, _, attempted, { rests.steady with }, { room with }, rests.lengths, ?_, _, rfl, rfl,
    rfl, ?_, ?_, ?_⟩
  · show Reference.Judges e.pattern (e.afterFactorization m).workspace.reals.length
      (e.afterFactorization m).workspace.integers.length result
    rwa [integers, reals]
  · exact judges.verdict.imp (congrArg Verdict.name) (congrArg Verdict.name)
  · exact (h.enough .integer).trans (Int.ofNat_le.2 (Nat.le_of_eq integers.symm))
  · exact (h.enough .real).trans (Int.ofNat_le.2 (Nat.le_of_eq reals.symm))

variable [KeepsLengths α]

/-- **A factorization takes one attempt**, and is a success or finds the matrix singular. -/
theorem factorize_serves (equipped : Equipped e) (h : Supplied e)
    (fits : m.values.length = e.nonzeros) :
    Ends (factorize m k) e (fun outcome e' => Serves e e' ∧ Readied outcome e'.phase)
      (fun _ _ => False) := by
  unfold factorize
  refine (applyPendingGrowth_grows equipped).bind ?_ (by simp)
  rintro - e₁ grown
  have supplied := h.grows grown
  have room : m.values.length ≤ e₁.workspace.reals.length := by
    rw [fits, ← grown.steady.nonzeros]
    exact supplied.capacity
  have equipped₁ := equipped.steady grown.steady
  obtain ⟨result, e₂, attempted, tried⟩ := attempts_tried (k := k) equipped₁ supplied room
  refine (ends_bind_of_ok attempted).2
    ((conclude_supplies (equipped₁.steady tried.steady) tried.supplied tried.judges 0).mono ?_
      fun _ _ h => h)
  rintro outcome e₃ ⟨rests, supplied₃, readied⟩
  obtain ⟨r, trace, count, sole⟩ := tried.sole
  refine ⟨⟨grown.steady.trans (tried.steady.trans rests.steady), supplied₃, .inr ⟨r, ?_, ?_, ?_⟩,
    fun _ kind => ?_⟩, readied⟩
  · rw [rests.trace, trace, grown.trace]
  · rw [rests.count, count, grown.count]
  -- growth has not changed what is needed
  · exact ⟨sole.first, sole.judged, grown.steady.need .integer ▸ sole.integers,
      grown.steady.need .real ▸ sole.reals⟩
  · rw [rests.lengths, tried.lengths]
    exact grown.enlarges kind

/-! ## Preparing -/

/-- The engine has the structure of a matrix with rows, or it is supplied. -/
def Opened (A : SymTriplets α) (e : Engine α Unit) : Prop :=
  e.phase = .structureKnown ∧ Fresh A e ∨ e.phase.Analysed ∧ Supplied e

theorem opens_analysis {A : SymTriplets α} (equipped : Equipped e) (opened : Opened A e) :
    Ends (if e.phase = .structureKnown then analyse k else pure none) e
      (fun refused e' => refused = none ∧ Opens e e') (fun _ _ => False) := by
  rcases opened with ⟨known, fresh⟩ | ⟨analysed, supplied⟩
  · rw [if_pos known]
    refine (analyse_supplies equipped fresh).mono ?_ fun _ _ h => h
    rintro _ e' ⟨rfl, done, steady, supplied, -, trace, count⟩
    refine ⟨rfl, steady, supplied, ?_, trace, count, ?_, ?_⟩
    · rw [done]
      trivial
    · rw [known]
      exact False.elim
    · rw [known]
      exact False.elim
  · rw [if_neg (fun known => by rw [known] at analysed; exact analysed)]
    exact ⟨rfl, supplied.opens analysed⟩

omit [KeepsLengths α] in
theorem opens_noteValues (h : Supplied e) (analysed : e.phase.Analysed) (m : MatrixView α) :
    Opens e (noteValues m e) := by
  unfold noteValues
  split
  · exact ⟨{ Steady.refl e with }, { h with }, Phase.analysed_stale.2 analysed, rfl, rfl,
      fun _ => rfl, fun _ _ => rfl⟩
  · exact h.opens analysed

theorem serves_factors (equipped : Equipped e) (h : Supplied e) (fits : m.values.length = e.nonzeros) :
    Ends (if e.phase = .factorized then pure none else factorize m k) e
      (fun outcome e' => Serves e e' ∧ Readied outcome e'.phase) (fun _ _ => False) := by
  split
  · next late => exact ⟨h.serves, .inl ⟨late, nofun⟩⟩
  · exact factorize_serves equipped h fits

omit [KeepsLengths α] in
/-- The check of the inertia. -/
theorem rests_demand (named : e.solverId ≠ "") (late : e.phase = .factorized)
    (demand : InertiaDemand) :
    Ends (checkInertia demand k) e
      (fun outcome e' => Rests e e' ∧ e'.pending = e.pending ∧ Readied outcome e'.phase)
      (fun _ _ => False) := by
  refine ends_checkInertia_of (fun _ => ⟨.refl e, rfl, .inl ⟨late, nofun⟩⟩) fun expected _ _ => ?_
  refine (ends_emitWrongInertia named e.negative expected).mono ?_ fun _ _ h => h
  rintro - _ ⟨diagnostics, rfl, -⟩
  exact ⟨(Rests.refl e).note _ _ _ _ diagnostics, rfl, .inl ⟨late, by simp⟩⟩

/-- **Preparing never fails**, and serves the engine. -/
theorem prepare_serves {A : SymTriplets α} (equipped : Equipped (captureIfNew m e))
    (opened : Opened A (captureIfNew m e))
    (fits : m.values.length = (captureIfNew m e).nonzeros) (demand : InertiaDemand) :
    Ends (prepare m demand k) e
      (fun outcome e' => Serves (captureIfNew m e) e' ∧ Readied outcome e'.phase)
      (fun _ _ => False) := by
  refine ends_prepare_of (Opens (captureIfNew m e)) ?_ (fun e₁ opens => ?_) ?_
  · refine (opens_analysis equipped opened).mono ?_ fun _ _ h => h
    rintro _ e₁ ⟨rfl, opens⟩
    exact opens.trans (opens_noteValues opens.supplied opens.analysed m)
  · refine (serves_factors (equipped.steady opens.steady) opens.supplied
      (fits.trans opens.steady.nonzeros.symm)).mono ?_ fun _ _ h => h
    exact fun _ _ served => ⟨opens.serves served.1, served.2⟩
  · rintro e₂ ⟨served, readied⟩
    have late : e₂.phase = .factorized := readied.current
    refine (rests_demand (served.steady.solverId ▸ equipped.named) late demand).mono ?_
      fun _ _ h => h
    rintro outcome e₃ ⟨rests, pending, readied⟩
    exact ⟨served.rests rests pending, readied⟩

/-! ## Solving -/

/-- Neither the workspaces nor the notes have changed. -/
structure Idles (e e' : Engine α Unit) : Prop where
  rests : Rests e e'
  notes : e'.notes = e.notes

omit [KeepsLengths α] in
theorem Idles.trans (h : Idles e e') (h' : Idles e' e'') : Idles e e'' :=
  ⟨h.rests.trans h'.rests, h'.notes.trans h.notes⟩

omit [KeepsLengths α] in
theorem idles_afterBacksolve (rhs : DenseVector α) (e : Engine α Unit) :
    Idles e (e.afterBacksolve rhs) where
  rests := {
    steady := (proceeds_afterBacksolve (k := 0) rhs e).during.steady
    lengths := fun kind => by
      cases kind
      · exact Session.size_backsolve_iw ..
      · exact Session.size_backsolve_a ..
    keep := rfl
    trace := rfl
    count := rfl }
  notes := rfl

omit [KeepsLengths α] in
theorem idles_solveOne (index : Nat) (rhs solution : DenseVector α) :
    Ends (solveOne k index rhs solution) e (fun _ => Idles e) (fun _ => Idles e) := by
  have solved : Idles e (e.afterBacksolve rhs) := idles_afterBacksolve rhs e
  unfold solveOne
  refine ends_callSolve (fun result _ => ?_) fun _ _ => solved
  split
  · unfold emitBacksolveFailed
    refine (ends_emit ..).bind ?_ ?_
    · rintro - _ ⟨diagnostics, rfl⟩
      exact ⟨solved.rests.note _ _ _ _ diagnostics, solved.notes⟩
    · rintro - _ rfl
      exact solved
  · cases solution.set _ with
    | error cause => exact solved
    | ok y => exact solved

omit [KeepsLengths α] in
theorem idles_backsolve (k index : Nat) (rhs solutions : List (DenseVector α))
    (e : Engine α Unit) : Idles e (backsolve k index rhs solutions e).2 := by
  fun_induction backsolve k index rhs solutions e with
  | case1 index b more x solutions e fault after solved =>
    exact (idles_solveOne index b x).bad_of_exec solved
  | case2 index b more x solutions e after solved =>
    exact (idles_solveOne (k := k) index b x).ok_of_exec solved
  | case3 index b more x solutions e x' after solved answer last rest ih =>
    rw [rest] at ih
    exact ((idles_solveOne (k := k) index b x).ok_of_exec solved).trans ih
  | case4 index rhs solutions e => exact ⟨.refl e, rfl⟩

/-! ## A whole call -/

omit [KeepsLengths α] in
theorem opened_captured {A : SymTriplets α}
    (start : e.phase = .uninitialized ∧ 0 < A.dim ∨ e.phase.Analysed ∧ Supplied e) :
    Opened A (e.captured A.view) := by
  rcases start with ⟨new, rows⟩ | ⟨analysed, supplied⟩
  · rw [captured_of_new new]
    exact .inl ⟨rfl, rows, rfl, by simp [captureStructure, MatrixView.nonzeros, SymTriplets.view,
      SymTriplets.nonzeros], rfl⟩
  · rw [captured_of_analysed analysed]
    exact .inr ⟨analysed, { supplied with }⟩

/-- **A call serves the engine**: it ends with factors that are current, or it finds the matrix
singular. -/
theorem multiSolve_serves {A : SymTriplets α} (equipped : Equipped e)
    (start : e.phase = .uninitialized ∧ 0 < A.dim ∨ e.phase.Analysed ∧ Supplied e)
    {rhs solutions : List (DenseVector α)} {demand : InertiaDemand}
    (accepted : e.usageFault? A.view rhs solutions demand = none) :
    let called := e.multiSolve A.view rhs solutions demand
    Serves (e.captured A.view) called.2 ∧ (called.2.phase = .factorized ∨
      called.2.phase = .factorizationStale ∧ called.1.result = .ok .singular) := by
  have equipped' : Equipped (e.captured A.view) := equipped.sameMake (sameMake_captured A.view e)
    (congrArg Session.kernel (session_captured A.view e))
  have fits : A.view.values.length = (e.captured A.view).nonzeros :=
    A.length_values.trans (nonzeros_captured (usageFault?_eq_none.1 accepted)).symm
  refine multiSolve_of_prepare
    (fun e₁ => Serves (e.captured A.view) e₁ ∧ Readied none e₁.phase)
    (fun answer e' => Serves (e.captured A.view) e' ∧ (e'.phase = .factorized ∨
      e'.phase = .factorizationStale ∧ answer.result = .ok .singular)) accepted ?_ ?_
  · refine (prepare_serves (e := e.beginCall) equipped' (opened_captured start) fits demand).mono ?_
      fun _ _ h => h.elim
    rintro (_ | outcome) e₁ ⟨served, readied⟩
    · exact ⟨served, readied⟩
    · refine ⟨served, readied.imp And.left fun failed => ⟨failed.1, ?_⟩⟩
      exact congrArg Except.ok (Option.some.inj failed.2)
  · rintro e₁ ⟨served, readied⟩
    have idles := idles_backsolve e.solveCount 0 rhs solutions e₁
    have phase := congrArg Notes.phase idles.notes
    exact ⟨served.rests idles.rests (congrArg Notes.pending idles.notes),
      .inl (phase.trans readied.current)⟩

/-- What a call comes to that never lacked words: factors are current or the matrix is singular, at
most one attempt was made, and a fatal error comes from solving. -/
structure Suffices (e : Engine α Unit) (result : Except Fault Outcome) (e' : Engine α Unit) :
    Prop where
  analysed : e'.phase = .factorized ∨ e'.phase = .factorizationStale ∧ result = .ok .singular
  attempts : e'.trace = [] ∨ ∃ r, e'.trace = [r] ∧ e'.Sole r
  count : e'.factorizationCount = e.factorizationCount + e'.trace.length
  fatal : result = .ok .fatalError → Reported e.solveCount (some "E_LIN_BACKSOLVE_FAILED")
    (e.diagnostics.filter fun event => event.solveIndex.isNone) e'.diagnostics

theorem multiSolve_suffices {A : SymTriplets α} (equipped : Equipped e)
    (start : e.phase = .uninitialized ∧ 0 < A.dim ∨ e.phase.Analysed ∧ Supplied e)
    {rhs solutions : List (DenseVector α)} {demand : InertiaDemand}
    (accepted : e.usageFault? A.view rhs solutions demand = none) :
    let called := e.multiSolve A.view rhs solutions demand
    e.Suffices called.1.result called.2 := by
  intro called
  obtain ⟨served, ready⟩ := multiSolve_serves equipped start accepted
  have before : (e.captured A.view).factorizationCount = e.factorizationCount := by
    unfold captured captureIfNew
    split <;> rfl
  have once := served.once
  rw [Once, before, (history_captured A.view e).2.1] at once
  have tried : (called.2.trace = [] ∨ ∃ r, called.2.trace = [r] ∧ called.2.Sole r) ∧
      called.2.factorizationCount = e.factorizationCount + called.2.trace.length := by
    rcases once with ⟨trace, count⟩ | ⟨r, trace, count, first, judged, integers, reals⟩
    · exact ⟨.inl trace, count.trans (trace ▸ rfl)⟩
    · exact ⟨.inr ⟨r, trace, first, judged, served.steady.need _ ▸ integers,
        served.steady.need _ ▸ reals⟩, count.trans (trace ▸ rfl)⟩
  refine ⟨ready, tried.1, tried.2, fun fatal => ?_⟩
  have closes := multiSolve_closes equipped.named accepted
  rw [show _ = Except.ok Outcome.fatalError from fatal] at closes
  obtain ⟨failure, tells, reported⟩ := closes.accounts.reported
  have late : called.2.phase = .factorized := ready.resolve_right fun singular => by
    rw [fatal] at singular
    cases singular.2
  rw [show _ = Phase.factorized from late] at tells
  cases tells
  exact reported

end Calls

end Engine

/-! ## Whole runs -/

namespace World

variable {α : Type} [RealScalar α] [Printable α] {w : World α Unit}

/-- The matrix is passed to the engine in a run. -/
def Passes {σ : Type} (w : World α σ) (actions : List (Action α)) (A : SymTriplets α) : Prop :=
  ∃ before action since, actions = before ++ action :: since ∧
    (w.run before).passed? action = some A

/-- What a caller has, who passed only matrices with rows. -/
structure Stocked (w : World α Unit) : Prop where
  equipped : w.engine.Equipped
  supplied : w.engine.phase = .uninitialized ∨ w.engine.phase.Analysed ∧ w.engine.Supplied

/-- What an action makes of an engine with an analysed structure, if it does not reset it. -/
structure Evolves (w w' : World α Unit) : Prop where
  analysed : w'.engine.phase.Analysed
  need : ∀ kind, w'.engine.need kind = w.engine.need kind
  enlarges : ∀ kind, Engine.Enlarges (w.engine.pending.of kind) w.engine.Doubles
    (w.engine.workspace.lengthOf kind) (w'.engine.workspace.lengthOf kind)

omit [Printable α] in
theorem Stocked.supplied_of_analysed (h : w.Stocked) (analysed : w.engine.phase.Analysed) :
    w.engine.Supplied := by
  rcases h.supplied with new | ⟨-, supplied⟩
  · rw [new] at analysed
    exact analysed.elim
  · exact supplied

omit [Printable α] in
theorem options_of_create {memory : Memory} {options : Options α} {k : Kernel α Unit}
    {solverId : String} {providesInertia : Bool} {e : Engine α Unit}
    (created : Engine.create memory options k () solverId providesInertia = .ok e) :
    e.options = options := by
  unfold Engine.create at created
  split at created <;> cases created
  rfl

omit [Printable α] in
theorem stocked_start {options : Options α} (finite : options.Finite) {solverId : String}
    {providesInertia : Bool} {e : Engine α Unit}
    (created : Engine.create .unlimited options Reference.kernel () solverId providesInertia = .ok e)
    (tags : TagSource) : (start e tags).Stocked := by
  unfold Engine.create at created
  split at created
  · cases created
  · next named =>
    cases created
    exact ⟨⟨rfl, rfl, named, finite⟩, .inl rfl⟩

variable [KeepsLengths α]

omit [Printable α] in
theorem Stocked.turns (h : w.Stocked) {action : Action α} {e : Engine α Unit}
    (turns : w.Turns action e)
    (rows : w.engine.phase = .uninitialized → ∀ A, w.passed? action = some A → 0 < A.dim) :
    Stocked { w with engine := e } ∧
      (action ≠ .resetStructure → w.engine.phase.Analysed → w.Evolves { w with engine := e }) := by
  cases turns with
  | idle => exact ⟨h, fun _ analysed => ⟨analysed, fun _ => rfl, fun _ => .same rfl⟩⟩
  | @solve place A rhs solutions demand found accepted =>
    have start := h.supplied.imp_left fun new => And.intro new (rows new A found)
    obtain ⟨served, ready⟩ := Engine.multiSolve_serves h.equipped start accepted
    have analysed := Phase.analysed_of_late (ready.imp_right And.left)
    have made := Engine.made_multiSolve h.equipped.named A.view rhs solutions demand
    refine ⟨⟨h.equipped.sameMake made.1 made.2.1, .inr ⟨analysed, served.supplied⟩⟩,
      fun _ before => ?_⟩
    rw [Engine.captured_of_analysed before] at served
    exact ⟨analysed, served.steady.need, served.enlarges before⟩
  | raise tolerance diagnostics =>
    refine ⟨⟨h.equipped.sameMake ⟨rfl, rfl, rfl, rfl⟩ rfl, ?_⟩,
      fun _ analysed => ⟨Phase.analysed_stale.2 analysed, fun _ => rfl, fun _ => .same rfl⟩⟩
    refine h.supplied.imp (fun new => ?_) fun supplied =>
      ⟨Phase.analysed_stale.2 supplied.1, { supplied.2 with }⟩
    simp only [new, Phase.stale]
  | reset =>
    exact ⟨⟨h.equipped.sameMake ⟨rfl, rfl, rfl, rfl⟩ rfl, .inl rfl⟩,
      fun other => absurd rfl other⟩

theorem Stocked.step (h : w.Stocked) (action : Action α)
    (rows : w.engine.phase = .uninitialized → ∀ A, w.passed? action = some A → 0 < A.dim) :
    (w.step action).Stocked ∧ (action ≠ .resetStructure → w.engine.phase.Analysed →
      w.Evolves (w.step action)) := by
  obtain ⟨stocked, evolves⟩ := h.turns (w.step_turns action) rows
  exact ⟨{ stocked with }, fun other analysed => { evolves other analysed with }⟩

theorem Stocked.step_of_analysed (h : w.Stocked) (analysed : w.engine.phase.Analysed)
    (action : Action α) :
    (w.step action).Stocked ∧ (action ≠ .resetStructure → w.Evolves (w.step action)) := by
  obtain ⟨stocked, evolves⟩ := h.step action fun new => by
    rw [new] at analysed
    exact analysed.elim
  exact ⟨stocked, fun other => evolves other analysed⟩

theorem Stocked.run (h : w.Stocked) {actions : List (Action α)}
    (rows : ∀ A, w.Passes actions A → 0 < A.dim) : (w.run actions).Stocked := by
  induction actions generalizing w with
  | nil => exact h
  | cons action actions ih =>
    refine ih (h.step action fun _ A passed => ?_).1 fun A passes => ?_
    · exact rows A ⟨[], action, actions, rfl, passed⟩
    · obtain ⟨before, last, since, rfl, passed⟩ := passes
      exact rows A ⟨action :: before, last, since, rfl, passed⟩

/-- **A workspace that is twice as long as needed never changes** until the structure is reset. -/
theorem Stocked.settled_run (h : w.Stocked) (analysed : w.engine.phase.Analysed)
    {kind : WorkspaceKind} (long : 2 * w.engine.need kind ≤ w.engine.workspace.lengthOf kind)
    {since : List (Action α)} (kept : .resetStructure ∉ since) :
    (w.run since).engine.workspace.lengthOf kind = w.engine.workspace.lengthOf kind := by
  induction since generalizing w with
  | nil => rfl
  | cons action since ih =>
    rw [List.mem_cons, not_or] at kept
    obtain ⟨other, kept⟩ := kept
    obtain ⟨stocked, evolves⟩ := h.step_of_analysed analysed action
    obtain ⟨analysed', need, enlarges⟩ := evolves (Ne.symm other)
    have same : (w.step action).engine.workspace.lengthOf kind =
        w.engine.workspace.lengthOf kind := by
      cases enlarges kind with
      | same same => exact same
      | grown asked _ _ =>
        -- growth is pending for short workspaces only
        exact absurd long (not_le.2 ((h.supplied_of_analysed analysed).scheduled kind asked))
    refine (ih stocked analysed' ?_ kept).trans same
    rw [need, same]
    exact long

/-- The action has made a workspace longer, as was due, and that was the last time: now it is at least
twice as long as needed, and it stays as long as it is until the structure is reset. -/
structure Settles (w : World α Unit) (kind : WorkspaceKind) (action : Action α) : Prop where
  due : w.engine.pending.of kind = true
  longer : w.engine.workspace.lengthOf kind < (w.step action).engine.workspace.lengthOf kind
  twice : 2 * w.engine.need kind ≤ (w.step action).engine.workspace.lengthOf kind
  last : ∀ since, .resetStructure ∉ since →
    ((w.step action).run since).engine.workspace.lengthOf kind =
      (w.step action).engine.workspace.lengthOf kind

theorem Stocked.settles (h : w.Stocked) (analysed : w.engine.phase.Analysed)
    (large : w.engine.Doubles) {kind : WorkspaceKind} {action : Action α}
    (other : action ≠ .resetStructure)
    (changed : (w.step action).engine.workspace.lengthOf kind ≠ w.engine.workspace.lengthOf kind) :
    w.Settles kind action := by
  obtain ⟨stocked, evolves⟩ := h.step_of_analysed analysed action
  obtain ⟨analysed', need, enlarges⟩ := evolves other
  cases enlarges kind with
  | same same => exact absurd same changed
  | grown asked le twice =>
    have long : 2 * w.engine.need kind ≤ (w.step action).engine.workspace.lengthOf kind := by
      have enough := (h.supplied_of_analysed analysed).enough kind
      have double := twice large
      omega
    refine ⟨asked, Nat.lt_of_le_of_ne le (Ne.symm changed), long, fun since kept => ?_⟩
    exact stocked.settled_run analysed' (by rw [need]; exact long) kept

end World

variable {α : Type} [RealScalar α] [Printable α] [KeepsLengths α]

/-- **Workspaces suffice and settle**: no call lacks words, and if the options let workspaces at least
double, each of the two changes at most once after the analysis, until the structure is reset. -/
theorem workspaces_suffice_and_settle {options : Options α} (finite : options.Finite)
    {solverId : String} {providesInertia : Bool} {e : Engine α Unit}
    (created : Engine.create .unlimited options Reference.kernel () solverId providesInertia = .ok e)
    (tags : TagSource) {actions : List (Action α)}
    (rows : ∀ A, (World.start e tags).Passes actions A → 0 < A.dim) :
    let w := (World.start e tags).run actions
    (∀ (A : SymTriplets α) (rhs solutions : List (DenseVector α)) (demand : InertiaDemand),
      0 < A.dim → w.engine.usageFault? A.view rhs solutions demand = none →
      let called := w.engine.multiSolve A.view rhs solutions demand
      w.engine.Suffices called.1.result called.2) ∧
    (Scalar.le (Scalar.ofInt 2) options.growthFactor = true →
      ∀ (kind : WorkspaceKind) (action : Action α), w.engine.phase ≠ .uninitialized →
        action ≠ .resetStructure →
        (w.step action).engine.workspace.lengthOf kind ≠ w.engine.workspace.lengthOf kind →
        w.Settles kind action) := by
  intro w
  have stocked : w.Stocked := (World.stocked_start finite created tags).run rows
  have made : w.engine.options = options := by
    have same := ((World.regular_start created tags).run actions).2.1.options
    exact same.trans (World.options_of_create created)
  refine ⟨fun A rhs solutions demand rows accepted => ?_,
    fun large kind action known other changed => ?_⟩
  · exact Engine.multiSolve_suffices stocked.equipped
      (stocked.supplied.imp_left fun new => ⟨new, rows⟩) accepted
  · have analysed := (stocked.supplied.resolve_left known).1
    refine stocked.settles analysed ?_ other changed
    rw [Engine.Doubles, made]
    exact large

theorem rows_negation {A : SymTriplets ℚ} (passes : unusedWorld.Passes negation A) : 0 < A.dim := by
  obtain ⟨before, action, since, split, passed⟩ := passes
  rcases before with _ | ⟨first, _ | ⟨second, _ | ⟨third, before⟩⟩⟩
  · cases split
    cases passed
  · cases split
    have shown : ((unusedWorld.run [.ofTriplets 1 [0] [0] (some [2])]).passed?
        (.multiSolve 0 [⟨[1]⟩] [⟨[0]⟩] (some 0))).map SymTriplets.dim = some 1 := by decide +kernel
    rw [passed] at shown
    exact (Option.some.inj shown).symm ▸ Nat.one_pos
  · cases split
    cases passed
  · simp [negation] at split

/-- The negated matrix is factorized at once, and no workspace of its solver ever changes twice. -/
theorem workspaces_suffice_and_settle_negated :
    let w := unusedWorld.run negation
    let called := w.engine.multiSolve negated.view [⟨[1]⟩] [⟨[0]⟩] none
    called.2.phase = .factorized ∧
    (∃ r, called.2.trace = [r] ∧ r.attemptIndex = 0 ∧ called.2.need .real ≤ r.realLength) ∧
    ∀ (kind : WorkspaceKind) (action : Action ℚ), action ≠ .resetStructure →
      (w.step action).engine.workspace.lengthOf kind ≠ w.engine.workspace.lengthOf kind →
      w.Settles kind action := by
  intro w called
  have rows : ∀ A, (World.start (exactEngine Reference.kernel ()) ⟨0⟩).Passes negation A →
      0 < A.dim := fun A => rows_negation
  obtain ⟨enough, settles⟩ := workspaces_suffice_and_settle ⟨rfl, rfl, rfl, rfl⟩
    (create_exactEngine Reference.kernel ()) ⟨0⟩ rows
  have done : w.engine.Suffices called.1.result called.2 :=
    enough negated [⟨[1]⟩] [⟨[0]⟩] none (by decide +kernel) (by decide +kernel)
  refine ⟨?_, ?_, fun kind action => settles (by decide +kernel) kind action (by decide +kernel)⟩
  · refine done.analysed.resolve_right fun singular => ?_
    have success : called.1.result = .ok .success := by decide +kernel
    cases success.symm.trans singular.2
  · rcases done.attempts with never | ⟨r, trace, sole⟩
    · have tried : called.2.trace.length = 1 := by decide +kernel
      rw [never] at tried
      cases tried
    · exact ⟨r, trace, sole.first, sole.reals⟩

end SymSolve
