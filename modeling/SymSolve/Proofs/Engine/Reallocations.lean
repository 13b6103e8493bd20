import SymSolve.Proofs.Engine.ScheduledGrowth

/-!
# Reports of growth

The workspaces are made longer for a retry, or because growth was pending before the first attempt.
Both is reported under the same code, with the lengths before and after.

**Theorem (`reallocations_are_told`).** Every such report in a run tells the lengths that the
workspaces had and those with which the kernel was called next. None of them is shorter. After a
shortage the workspace that was short is longer. Pending growth makes a workspace longer exactly if
the growth factor adds a whole word to it, and it is reported in any case.

So a report does not mean that anything has grown (`reallocation_of_nothing`).
-/

namespace SymSolve

/-! ## What a report tells -/

section Reports

variable {α : Type}

/-- The event reports that pending growth was carried out. -/
def Event.isApplied (event : Event α) : Bool :=
  event.code == reallocated.code && event.solveIndex.isSome && event.attemptIndex.isNone

/-- The name under which the length of a workspace is told. -/
def WorkspaceKind.lengthKey : WorkspaceKind → String
  | .integer => "integer_workspace_len"
  | .real => "real_workspace_len"

/-- The lengths of a workspace that an event tells, before and after. -/
def Event.told (event : Event α) (kind : WorkspaceKind) : Option (Int × Int) :=
  match event.witness with
  | some (.object fields) =>
    match fields.lookup kind.lengthKey with
    | some (.list [.int before, .int after]) => some (before, after)
    | _ => none
  | _ => none

theorem FactorizeCall.told_retry (f f' : FactorizeCall α) (solverId : String)
    (solveIndex i : Nat) (kind : WorkspaceKind) :
    (f.retry f' solverId solveIndex i).told kind =
      some ((f.workspace.lengthOf kind : Int), (f'.workspace.lengthOf kind : Int)) := by
  cases kind <;> rfl

namespace Engine

/-- The event that reports growth before the attempts, from the lengths `w` to the lengths `w'`. -/
def applied (solverId : String) (solveIndex : Nat) (w w' : Workspace α) : Event α :=
  .ofEntry reallocated (appliedReport solverId solveIndex w w')

theorem told_applied (solverId : String) (solveIndex : Nat) (w w' : Workspace α)
    (kind : WorkspaceKind) : (applied solverId solveIndex w w').told kind =
      some ((w.lengthOf kind : Int), (w'.lengthOf kind : Int)) := by
  cases kind <;> rfl

/-- The report depends on the lengths alone. -/
theorem applied_congr {w₁ w₁' w₂ w₂' : Workspace α}
    (h : ∀ kind, w₁.lengthOf kind = w₂.lengthOf kind)
    (h' : ∀ kind, w₁'.lengthOf kind = w₂'.lengthOf kind) (solverId : String) (solveIndex : Nat) :
    applied solverId solveIndex w₁ w₁' = applied solverId solveIndex w₂ w₂' := by
  obtain ⟨integers, reals⟩ := lengths_of_kinds h
  obtain ⟨integers', reals'⟩ := lengths_of_kinds h'
  unfold applied appliedReport
  rw [integers, reals, integers', reals']

end Engine

end Reports

namespace Engine

/-! ## Growth before the attempts -/

section Applications

variable {α σ : Type} [Scalar α] {e : Engine α σ} {l : List (Event α)}

/-- The reports of pending growth that the engine lists. -/
def applications (e : Engine α σ) : List (Event α) := e.diagnostics.filter Event.isApplied

/-- Reports of other things. -/
def NoApplication (code : String) (attemptIndex : Option Nat) : Prop :=
  code ≠ reallocated.code ∨ attemptIndex.isSome

theorem unmoved_applications (l : List (Event α)) :
    Unmoved NoApplication fun e : Engine α σ => e.applications = l where
  notes _ _ _ h := h
  report {e} event other h := by
    have : event.isApplied = false := by
      rcases other with other | other
      · simp [Event.isApplied, other]
      · simp [Event.isApplied, Option.isNone_eq_false_iff.2 other]
    simpa [applications, this] using h

theorem unplanned_applications (l : List (Event α)) :
    Unplanned fun e : Engine α σ => e.applications = l where
  sizes _ h := h
  plans _ _ _ h := h

theorem applications_captured (m : MatrixView α) (e : Engine α σ) :
    (e.captured m).applications = [] := by
  simp only [applications, (history_captured m e).1, List.filter_filter, List.filter_eq_nil_iff,
    Event.isApplied]
  intro event _
  cases event.solveIndex <;> simp

/-- What is reported before the attempts, if they find the workspaces `w'`. -/
def applies (e : Engine α σ) (solveIndex : Nat) (w' : Workspace α) : List (Event α) :=
  if e.pending.any then [applied e.solverId solveIndex e.workspace w'] else []

/-- **Growth is reported if and only if it was pending.** -/
theorem ends_applies (e : Engine α σ) (named : e.solverId ≠ "") (solveIndex : Nat) :
    Ends (applyPendingGrowth solveIndex) e
      (fun _ e' => e'.applications = e.applications ++ e.applies solveIndex e'.workspace)
      (fun _ e' => e'.applications = e.applications) := by
  let Same (e' : Engine α σ) : Prop :=
    e'.applications = e.applications ∧ e'.solverId = e.solverId
  have unsized : Unsized Same := ⟨fun _ h => h⟩
  rw [applyPendingGrowth_eq, ends_get]
  by_cases due : e.pending.any = true
  · rw [if_pos due]
    refine (unsized.growReals e e ⟨rfl, rfl⟩).bind (fun _ e₁ h₁ => ?_) fun _ _ h => h.1
    refine (unsized.growIntegers e e₁ h₁).bind (fun _ e₂ h₂ => ?_) fun _ _ h => h.1
    refine (ends_of_ok (exec_settleGrowth (h₂.2 ▸ named) solveIndex e.workspace)).2 ?_
    rw [applies, if_pos due, ← h₂.1, ← h₂.2]
    exact List.filter_append ..
  · rw [if_neg due]
    have none : e.applies solveIndex e.workspace = [] := if_neg due
    exact (none ▸ List.append_nil _).symm

end Applications

/-! ## Whole calls -/

section Calls

variable {K σ : Type} [Field K] [LinearOrder K] [IsStrictOrderedRing K] [FloorRing K]
variable {k : Kernel K σ} {m : MatrixView K} {solveIndex : Nat}
variable {e e' c : Engine K (Recorded K σ)} {fs : List (FactorizeCall K)}

/-- A call that started at `c` has made the factorizations `fs`, and has reported growth before
them. -/
structure Applies (solveIndex : Nat) (c : Engine K (Recorded K σ)) (fs : List (FactorizeCall K))
    (e' : Engine K (Recorded K σ)) : Prop where
  tally : e'.tally = c.tally.ran solveIndex 0 fs
  chain : fs.IsChain (Relieves c.options.growthFactor)
  applications : e'.applications = c.applications ++
    fs.head?.toList.flatMap fun f => c.applies solveIndex f.workspace

omit [IsStrictOrderedRing K] in
theorem applies_nil (tally : e'.tally = c.tally) (same : e'.applications = c.applications) :
    Applies solveIndex c [] e' :=
  ⟨tally.trans (Tally.ran_nil ..).symm, .nil, same.trans (List.append_nil _).symm⟩

omit [IsStrictOrderedRing K] in
theorem Applies.goes_on (h : Applies solveIndex c fs e) (tally : e'.tally = e.tally)
    (same : e'.applications = e.applications) : Applies solveIndex c fs e' :=
  ⟨tally.trans h.tally, h.chain, same.trans h.applications⟩

omit [IsStrictOrderedRing K] in
/-- On the way to the factorization nothing changes that is told of growth. -/
theorem Fronts.applies (fronts : Fronts c e) (late : c.pending.any → c.phase.Analysed)
    {w w' : Workspace K} (same : ∀ kind, w.lengthOf kind = w'.lengthOf kind) :
    e.applies solveIndex w = c.applies solveIndex w' := by
  have solver : e.solverId = c.solverId := congrArg Tally.solverId fronts.postpones.tally
  unfold Engine.applies
  rw [fronts.postpones.pending]
  split
  · next due => rw [solver, applied_congr (fronts.stays (late due)).lengths same]
  · rfl

theorem applies_factorize (recorded : c.session.kernel = k.recorded) (named : c.solverId ≠ "")
    (late : c.pending.any → c.phase.Analysed) (fronts : Fronts c e)
    (unreported : e.applications = c.applications) :
    Ends (factorize m solveIndex) e (fun _ e' => ∃ fs, Applies solveIndex c fs e')
      (fun fault e' => fault = .view .shortOutput ∨ ∃ fs, Applies solveIndex c fs e') := by
  have begun := fronts.postpones.tally
  have named : e.solverId ≠ "" := ne_of_eq_of_ne (congrArg Tally.solverId begun) named
  have recorded : e.session.kernel = k.recorded := (congrArg Tally.kernel begun).trans recorded
  unfold factorize
  refine ((ends_applyPendingGrowth e named solveIndex).and
    (ends_applies e named solveIndex)).bind ?_ ?_
  · rintro - e₁ ⟨grown, reported⟩
    have same : e₁.tally = c.tally := grown.tally.trans begun
    have named : e₁.solverId ≠ "" := ne_of_eq_of_ne (congrArg Tally.solverId grown.tally) named
    have recorded : e₁.session.kernel = k.recorded :=
      (congrArg Tally.kernel grown.tally).trans recorded
    have run : exec (ExceptT.mk (attempts m solveIndex 0)) e₁ = attempts m solveIndex 0 e₁ := rfl
    rcases Nat.lt_or_ge e₁.workspace.reals.length m.values.length with short | fits
    · rw [Ends, exec_bind, run, attempts_of_lt short solveIndex 0]
      exact .inl rfl
    obtain ⟨f, fs, ran⟩ := ran_attempts m solveIndex 0 e₁ recorded named fits
    have unmoved := unmoved_applications (σ := Recorded K σ) e₁.applications
    have unplanned := unplanned_applications (σ := Recorded K σ) e₁.applications
    have attempted : (attempts m solveIndex 0 e₁).2.applications = e₁.applications :=
      unplanned.attempts unmoved (fun _ => .inr rfl) (fun _ => .inl (by decide))
        (fun e i h => (congrArg (List.filter _) (diagnostics_attempt ..)).trans h) 0 rfl
    have applies : Applies solveIndex c (f :: fs) (attempts m solveIndex 0 e₁).2 := by
      refine ⟨same ▸ ran.tally, ?_, attempted.trans (reported.trans ?_)⟩
      · rw [← show e₁.options = c.options from congrArg Tally.options same]
        exact ran.chain
      · rw [unreported, fronts.applies late fun kind => ran.before.lengthOf kind]
        simp
    generalize attempts m solveIndex 0 e₁ = ended at run attempted applies
    rcases ended with ⟨fault | _ | ⟨report, i⟩, e₂⟩
    · rw [Ends, exec_bind, run]
      exact .inr ⟨_, applies⟩
    · rw [ends_bind_of_ok run]
      exact ⟨_, applies⟩
    · rw [ends_bind_of_ok run]
      have concluded := (quiet_conclude (t := e₂.tally) report solveIndex i e₂ rfl).and
        (unplanned.conclude unmoved (.inl (by decide)) (.inl (by decide)) (.inl (by decide)) report
          solveIndex e₂ attempted)
      exact concluded.mono
        (fun _ _ h => ⟨_, applies.goes_on h.1 (h.2.trans attempted.symm)⟩)
        fun _ _ h => .inr ⟨_, applies.goes_on h.1 (h.2.trans attempted.symm)⟩
  · rintro fault e' ⟨⟨tally, -, -⟩, same⟩
    exact .inr ⟨[], applies_nil (tally.trans begun) (same.trans unreported)⟩

/-- What has come of a call so far: it reported growth as it should, unless it found no room for the
values. -/
def Announces (solveIndex : Nat) (c : Engine K (Recorded K σ)) (r : Except Fault (Option Outcome))
    (e' : Engine K (Recorded K σ)) : Prop :=
  r = .error (.view .shortOutput) ∨ ∃ fs, Applies solveIndex c fs e'

omit [IsStrictOrderedRing K] in
theorem Announces.goes_on {r : Except Fault (Option Outcome)}
    (h : Announces solveIndex c (.ok none) e) (tally : e'.tally = e.tally)
    (same : e'.applications = e.applications) : Announces solveIndex c r e' := by
  rcases h with ⟨⟨⟩⟩ | ⟨fs, applies⟩
  exact .inr ⟨fs, applies.goes_on tally same⟩

theorem announces_prepare (recorded : (captureIfNew m e).session.kernel = k.recorded)
    (named : (captureIfNew m e).solverId ≠ "")
    (late : (captureIfNew m e).pending.any → (captureIfNew m e).phase.Analysed)
    (demand : InertiaDemand) :
    Ends (prepare m demand solveIndex) e
      (fun outcome => Announces solveIndex (captureIfNew m e) (.ok outcome))
      (fun fault => Announces solveIndex (captureIfNew m e) (.error fault)) := by
  let c := captureIfNew m e
  have unmoved := unmoved_applications (σ := Recorded K σ) c.applications
  have unplanned := unplanned_applications (σ := Recorded K σ) c.applications
  have analysed := preserves_ite (c := c.phase = .structureKnown)
    (unmoved.analyse unplanned.toUnsized (fun h => h) (.inl (by decide)) solveIndex)
    (preserves_pure none)
  refine ends_prepare_of (fun e' => Fronts c e' ∧ e'.applications = c.applications) ?_
    (fun e₁ ⟨fronts, unreported⟩ => ?_) fun e₂ announces => ?_
  · refine ((ends_fronts recorded m solveIndex).and (analysed c rfl)).mono ?_
      fun _ _ ⟨⟨postpones, _⟩, same⟩ => .inr ⟨[], applies_nil postpones.tally same⟩
    rintro (_ | outcome) e₁ ⟨h, same⟩
    · exact ⟨h, unmoved.noteValues same⟩
    · exact .inr ⟨[], applies_nil h.1.tally same⟩
  · split
    · exact .inr ⟨[], applies_nil fronts.postpones.tally unreported⟩
    · exact (applies_factorize recorded named late fronts unreported).mono (fun _ _ => .inr)
        fun _ _ h => h.imp_left (congrArg _)
  · have checked := ((unmoved_tally e₂.tally).checkInertia (.inr rfl) demand solveIndex e₂ rfl).and
      ((unmoved_applications e₂.applications).checkInertia (.inl (by decide)) demand solveIndex e₂
        rfl)
    exact checked.mono (fun _ _ h => announces.goes_on h.1 h.2)
      fun _ _ h => announces.goes_on h.1 h.2

theorem announces_multiSolve (recorded : e.session.kernel = k.recorded) (named : e.solverId ≠ "")
    (late : (e.captured m).pending.any → (e.captured m).phase.Analysed)
    {rhs solutions : List (DenseVector K)} {demand : InertiaDemand}
    (accepted : e.usageFault? m rhs solutions demand = none) :
    let called := e.multiSolve m rhs solutions demand
    Announces e.solveCount (e.captured m) (called.1.result.map some) called.2 := by
  have recorded : (e.captured m).session.kernel = k.recorded := session_captured m e ▸ recorded
  have named : (e.captured m).solverId ≠ "" := solverId_captured m e ▸ named
  refine multiSolve_of_prepare (Announces e.solveCount (e.captured m) (.ok none))
    (fun answer => Announces e.solveCount (e.captured m) (answer.result.map some)) accepted ?_
    fun e₁ announces => ?_
  · refine (announces_prepare (e := e.beginCall) recorded named late demand).mono ?_ fun _ _ h => h
    rintro (_ | outcome) e₁ h <;> exact h
  · have recorded : e₁.tally.kernel = k.recorded := by
      rcases announces with ⟨⟨⟩⟩ | ⟨fs, applies⟩
      exact (congrArg Tally.kernel applies.tally).trans recorded
    have unreported : Untouched NoApplication fun e' : Engine K (Recorded K σ) =>
        e'.applications = e₁.applications :=
      { unmoved_applications e₁.applications with analysed := fun h => h, solved := fun _ h => h }
    exact announces.goes_on ((untouched_tally recorded).backsolve (.inr rfl) e.solveCount 0 rhs
      solutions rfl) (unreported.backsolve (.inl (by decide)) e.solveCount 0 rhs solutions rfl)

/-! ## What a call reports -/

/-- Pending growth adds at least one word to the workspace. -/
def Lengthens (e : Engine K σ) (kind : WorkspaceKind) : Prop :=
  e.pending.of kind = true ∧
    (e.workspace.lengthOf kind : K) + 1 ≤ e.options.growthFactor * e.workspace.lengthOf kind

theorem lt_dueLength_iff (e : Engine K σ) (kind : WorkspaceKind) :
    e.workspace.lengthOf kind < e.dueLength kind ↔ e.Lengthens kind := by
  unfold dueLength Lengthens
  dsimp only
  split
  · next due =>
    rw [lt_max_iff, or_iff_right (Nat.lt_irrefl _), Nat.lt_iff_add_one_le,
      Nat.le_floor_iff' (Nat.succ_ne_zero _), Nat.cast_add_one]
    exact (and_iff_right due).symm
  · next idle =>
    exact ⟨fun longer => absurd longer (Nat.lt_irrefl _), fun lengthens => absurd lengthens.1 idle⟩

/-- In a call that takes the engine from `e` to `e'` the lengths of the workspaces were `before`, and
then the kernel was called with the lengths `after`. The event reports it. -/
inductive Reallocates (e e' : Engine K (Recorded K σ)) (event : Event K) :
    (WorkspaceKind → Nat) → (WorkspaceKind → Nat) → Prop
  /-- A shortage was relieved after the attempt `i`. -/
  | retry {fs : List (FactorizeCall K)} {f f' : FactorizeCall K} {i : Nat}
      (made : e'.factorizations = e.factorizations ++ fs) (tried : fs[i]? = some f)
      (next : fs[i + 1]? = some f') (relieves : Relieves e.options.growthFactor f f')
      (reports : event = f.retry f' e.solverId e.solveCount i) :
      Reallocates e e' event f.workspace.lengthOf f'.workspace.lengthOf
  /-- Growth was pending before the first attempt. -/
  | applied {f : FactorizeCall K} {later : List (FactorizeCall K)}
      (made : e'.factorizations = e.factorizations ++ f :: later) (due : e.pending.any)
      (grown : ∀ kind, f.workspace.lengthOf kind = e.dueLength kind)
      (reports : event = Engine.applied e.solverId e.solveCount e.workspace f.workspace) :
      Reallocates e e' event e.workspace.lengthOf f.workspace.lengthOf

section Reallocates

variable {event : Event K} {before after : WorkspaceKind → Nat}

omit [IsStrictOrderedRing K] in
/-- The event tells the lengths as they were. -/
theorem Reallocates.told (h : Reallocates e e' event before after) (kind : WorkspaceKind) :
    event.told kind = some ((before kind : Int), (after kind : Int)) := by
  cases h with
  | retry _ _ _ _ reports => rw [reports, FactorizeCall.told_retry]
  | applied _ _ _ reports => rw [reports, told_applied]

omit [IsStrictOrderedRing K] in
theorem Reallocates.le (h : Reallocates e e' event before after) (kind : WorkspaceKind) :
    before kind ≤ after kind := by
  cases h with
  | retry _ _ _ relieves _ =>
    obtain ⟨short, required, -, -, -, lengths⟩ := relieves.lengths
    exact (le_max_left ..).trans_eq (lengths kind).symm
  | applied _ _ grown _ => exact (e.le_dueLength kind).trans_eq (grown kind).symm

/-- **What a report is worth.** A workspace is longer after every retry; pending growth may make none
longer. -/
theorem Reallocates.exists_lt_iff (h : Reallocates e e' event before after) :
    (∃ kind, before kind < after kind) ↔
      event.attemptIndex.isSome ∨ ∃ kind, e.Lengthens kind := by
  cases h with
  | retry _ _ _ relieves reports =>
    obtain ⟨short, required, -, missing, present, -⟩ := relieves.lengths
    subst reports
    exact ⟨fun _ => .inl rfl, fun _ => ⟨short, missing.trans_le present⟩⟩
  | applied _ _ grown reports =>
    subst reports
    simp only [grown, lt_dueLength_iff]
    exact ⟨.inr, fun h => h.resolve_left Bool.false_ne_true⟩

end Reallocates

theorem applies_multiSolve (recorded : e.session.kernel = k.recorded) (named : e.solverId ≠ "")
    (consistent : e.Consistent) {A : SymTriplets K} {rhs solutions : List (DenseVector K)}
    {demand : InertiaDemand} (accepted : e.usageFault? A.view rhs solutions demand = none) :
    ∃ fs, Applies e.solveCount (e.captured A.view) fs
      (e.multiSolve A.view rhs solutions demand).2 := by
  have paired : A.view.cols.length = A.view.rows.length := by simp [SymTriplets.view]
  have fits := consistent.fits named paired A.length_values rhs solutions demand
  have late (due : (e.captured A.view).pending.any) : (e.captured A.view).phase.Analysed :=
    Phase.analysed_of_late ((consistent.captured paired).1.pending due)
  rcases announces_multiSolve recorded named late accepted with short | applies
  · cases result : (e.multiSolve A.view rhs solutions demand).1.result with
    | error fault =>
      rw [result] at short
      exact absurd (result.trans (congrArg _ (Except.error.inj short))) fits
    | ok outcome =>
      rw [result] at short
      cases short
  · exact applies

/-- What a call reports of growth is told of its factorizations `fs`. -/
structure ReportsGrowth (e : Engine K (Recorded K σ)) (fs : List (FactorizeCall K))
    (e' : Engine K (Recorded K σ)) : Prop where
  made : e'.factorizations = e.factorizations ++ fs
  chain : fs.IsChain (Relieves e.options.growthFactor)
  retries : e'.diagnostics.filter Event.isRetry = (fs.zip fs.tail).zipIdx.map fun ((f, f'), i) =>
    f.retry f' e.solverId e.solveCount i
  applied : e'.applications = fs.head?.toList.flatMap fun f => e.applies e.solveCount f.workspace
  first : e.pending.any → ∀ f ∈ fs.head?, ∀ kind, f.workspace.lengthOf kind = e.dueLength kind

omit [IsStrictOrderedRing K] in
/-- What is pending at the beginning is reported of the workspaces as they were then. -/
theorem Consistent.applies_captured (consistent : e.Consistent) (m : MatrixView K) (solveIndex : Nat)
    (w' : Workspace K) : (e.captured m).applies solveIndex w' = e.applies solveIndex w' := by
  unfold applies
  rw [consistent.pending_captured, solverId_captured]
  split
  · next due =>
    rw [captured_of_analysed (Phase.analysed_of_late (consistent.pending due))]
    rfl
  · rfl

theorem reportsGrowth_multiSolve (recorded : e.session.kernel = k.recorded)
    (named : e.solverId ≠ "") (consistent : e.Consistent) {A : SymTriplets K}
    {rhs solutions : List (DenseVector K)} {demand : InertiaDemand}
    (accepted : e.usageFault? A.view rhs solutions demand = none) :
    ∃ fs, ReportsGrowth e fs (e.multiSolve A.view rhs solutions demand).2 := by
  obtain ⟨fs, applies⟩ := applies_multiSolve recorded named consistent accepted
  obtain ⟨fs', advances⟩ := advances_multiSolve recorded named consistent (List.mem_singleton_self A)
    accepted
  have begun : (e.captured A.view).tally = e.beginCall.tally :=
    (unplanned_tally _).captureIfNew (unmoved_tally _) rfl
  have made : (e.multiSolve A.view rhs solutions demand).2.factorizations =
      e.factorizations ++ fs := by
    rw [← factorizations_captured A.view e]
    exact congrArg Tally.factorizations applies.tally
  have same : fs' = fs := List.append_cancel_left (advances.factorizations.symm.trans made)
  refine ⟨fs, made, ?_, ?_, ?_, fun due => ?_⟩
  · rw [← (sameMake_captured A.view e).options]
    exact applies.chain
  · have retries := congrArg Tally.retries applies.tally
    rw [begun, Tally.ran, retries_beginCall, List.nil_append] at retries
    exact retries
  · rw [applies.applications, applications_captured, List.nil_append]
    simp only [consistent.applies_captured]
  · intro f hf
    exact (advances.first (Phase.analysed_of_late (consistent.pending due)) f (same ▸ hf)).2

omit [IsStrictOrderedRing K] in
theorem ReportsGrowth.reallocates (h : ReportsGrowth e fs e') {event : Event K}
    (listed : event ∈ e'.diagnostics) (code : event.code = reallocated.code)
    (own : event.solveIndex.isSome) : ∃ before after, Reallocates e e' event before after := by
  cases attempted : event.attemptIndex with
  | none =>
    have applied : event.isApplied = true := by simp [Event.isApplied, code, own, attempted]
    have among : event ∈ e'.applications := List.mem_filter.2 ⟨listed, applied⟩
    rw [h.applied] at among
    obtain ⟨f, first, reports⟩ := List.mem_flatMap.1 among
    have first : fs.head? = some f := Option.mem_toList.1 first
    unfold applies at reports
    split at reports
    · next due =>
      obtain ⟨later, rfl⟩ := List.head?_eq_some_iff.1 first
      exact ⟨_, _, .applied h.made due (h.first due f first) (List.mem_singleton.1 reports)⟩
    · cases reports
  | some i =>
    have retried : event.isRetry = true := by
      have code : event.code = "W_LIN_WORKSPACE_REALLOCATED" := code
      simp [Event.isRetry, code, own, attempted]
    have among : event ∈ e'.diagnostics.filter Event.isRetry :=
      List.mem_filter.2 ⟨listed, retried⟩
    rw [h.retries] at among
    obtain ⟨⟨⟨f, f'⟩, i⟩, place, reports⟩ := List.mem_map.1 among
    obtain ⟨tried, next⟩ := List.getElem?_zip_eq_some.1 (List.mem_zipIdx_iff_getElem?.1 place)
    rw [List.getElem?_tail] at next
    dsimp only at tried next
    obtain ⟨inside, rfl⟩ := List.getElem?_eq_some_iff.1 next
    obtain ⟨_, rfl⟩ := List.getElem?_eq_some_iff.1 tried
    exact ⟨_, _, .retry h.made tried next (h.chain.getElem i inside) reports.symm⟩

omit [IsStrictOrderedRing K] in
/-- Growth that was pending before a factorization is among the reports. -/
theorem ReportsGrowth.mem_diagnostics {f : FactorizeCall K} {later : List (FactorizeCall K)}
    (h : ReportsGrowth e (f :: later) e') (due : e.pending.any) :
    Engine.applied e.solverId e.solveCount e.workspace f.workspace ∈ e'.diagnostics := by
  have among : Engine.applied e.solverId e.solveCount e.workspace f.workspace ∈
      e'.applications := by
    rw [h.applied]
    simp [applies, due]
  exact (List.mem_filter.1 among).1

end Calls

end Engine

/-! ## Whole runs -/

section Reached

open Engine

variable {K σ : Type} [Field K] [LinearOrder K] [IsStrictOrderedRing K] [FloorRing K]
variable [Powers K] [Printable K] {k : Kernel K σ} {w : World K (Recorded K σ)}

namespace World

/-- A reallocation that is reported after an action was reported before, or the action is a call that
made it. -/
theorem Reached.reallocates (reached : w.Reached k) (action : Action K) {event : Event K}
    (listed : event ∈ (w.step action).engine.diagnostics) (code : event.code = reallocated.code) :
    event ∈ w.engine.diagnostics ∨
      ∃ before after, Reallocates w.engine (w.step action).engine event before after := by
  have regular := reached.arises.regular
  by_cases raising : action = .increaseQuality
  · subst raising
    have listed : event ∈ (w.engine.exec increaseQuality).2.diagnostics := listed
    rw [exec_increaseQuality regular.named] at listed
    split at listed
    · exact .inl listed
    · refine .inl ((List.mem_append.1 listed).resolve_right fun raised => ?_)
      obtain rfl := List.mem_singleton.1 raised
      have other : qualityIncreased.code ≠ reallocated.code := by decide
      exact other code
  have turns := w.step_turns action
  generalize (w.step action).engine = e at turns listed
  cases turns with
  | idle => exact .inl listed
  | raise => exact absurd rfl raising
  | reset => exact .inl listed
  | @solve place A rhs solutions demand found accepted =>
    by_cases own : event.solveIndex.isSome
    · obtain ⟨fs, reports⟩ := reportsGrowth_multiSolve regular.kernel regular.named
        regular.consistent accepted
      exact .inr (reports.reallocates listed code own)
    · obtain ⟨failure, during⟩ := (multiSolve_closes regular.named accepted).during
      obtain ⟨warnings, error, added, warn, fail, -⟩ := during.reported
      rw [added, (history_captured A.view w.engine).1] at listed
      rcases List.mem_append.1 listed with old | new
      · exact .inl (List.mem_filter.1 old).1
      · have belongs : event.solveIndex = some w.engine.solveCount := by
          rcases List.mem_append.1 new with new | new
          · exact (warn event new).solveIndex
          · exact (fail event (Option.mem_toList.1 new)).solveIndex
        exact absurd (by rw [belongs]; rfl) own

theorem Reached.reportsGrowth (reached : w.Reached k) {action : Action K} {f : FactorizeCall K}
    {later : List (FactorizeCall K)} (made : (w.step action).engine.factorizations =
      w.engine.factorizations ++ f :: later) :
    ReportsGrowth w.engine (f :: later) (w.step action).engine := by
  have regular := reached.arises.regular
  have turns := w.step_turns action
  generalize (w.step action).engine = e at turns made
  have idle (same : e.factorizations = w.engine.factorizations) :
      ReportsGrowth w.engine (f :: later) e :=
    absurd (List.append_right_eq_self.1 (made.symm.trans same)) (List.cons_ne_nil _ _)
  cases turns with
  | idle => exact idle rfl
  | raise => exact idle rfl
  | reset => exact idle rfl
  | solve found accepted =>
    obtain ⟨fs, reports⟩ := reportsGrowth_multiSolve regular.kernel regular.named
      regular.consistent accepted
    obtain rfl : fs = f :: later := List.append_cancel_left (reports.made.symm.trans made)
    exact reports

/-- **Every report of a reallocation was made by a call.** -/
theorem Reached.exists_reallocates (reached : w.Reached k) {event : Event K}
    (listed : event ∈ w.engine.diagnostics) (code : event.code = reallocated.code) :
    ∃ (w₀ : World K (Recorded K σ)) (action : Action K) (since : List (Action K)),
      w₀.Reached k ∧ w = (w₀.step action).run since ∧
      ∃ before after, Reallocates w₀.engine (w₀.step action).engine event before after := by
  obtain ⟨memory, options, state, solverId, providesInertia, e, tags, actions, created, rfl⟩ :=
    reached
  induction actions using List.reverseRecOn with
  | nil =>
    unfold Engine.create at created
    split at created <;> cases created
    cases listed
  | append_singleton actions action ih =>
    have before : ((World.start e tags).run actions).Reached k :=
      ⟨memory, options, state, solverId, providesInertia, e, tags, actions, created, rfl⟩
    rw [run_concat] at listed ⊢
    rcases before.reallocates action listed code with old | new
    · obtain ⟨w₀, action', since, reached, same, reallocates⟩ := ih old
      refine ⟨w₀, action', since ++ [action], reached, ?_, reallocates⟩
      rw [run_concat, same]
    · exact ⟨_, action, [], before, rfl, new⟩

end World

/-- **Reallocations are told as they were.** -/
theorem reallocations_are_told (reached : w.Reached k) :
    (∀ event ∈ w.engine.diagnostics, event.code = reallocated.code →
      ∃ (w₀ : World K (Recorded K σ)) (action : Action K) (since : List (Action K)),
        w₀.Reached k ∧ w = (w₀.step action).run since ∧
        ∃ before after, Reallocates w₀.engine (w₀.step action).engine event before after ∧
          (∀ kind, event.told kind = some ((before kind : Int), (after kind : Int)) ∧
            before kind ≤ after kind) ∧
          ((∃ kind, before kind < after kind) ↔
            event.attemptIndex.isSome ∨ ∃ kind, w₀.engine.Lengthens kind)) ∧
    ∀ action f later, (w.step action).engine.factorizations =
        w.engine.factorizations ++ f :: later → w.engine.pending.any →
      Engine.applied w.engine.solverId w.engine.solveCount w.engine.workspace f.workspace ∈
          (w.step action).engine.diagnostics ∧
        ∀ kind, w.engine.workspace.lengthOf kind < f.workspace.lengthOf kind ↔
          w.engine.Lengthens kind := by
  refine ⟨fun event listed code => ?_, fun action f later made due => ?_⟩
  · obtain ⟨w₀, action, since, before, same, lengths, lengths', reallocates⟩ :=
      reached.exists_reallocates listed code
    exact ⟨w₀, action, since, before, same, lengths, lengths', reallocates,
      fun kind => ⟨reallocates.told kind, reallocates.le kind⟩, reallocates.exists_lt_iff⟩
  · have reports := reached.reportsGrowth made
    refine ⟨reports.mem_diagnostics due, fun kind => ?_⟩
    rw [reports.first due f rfl kind, lt_dueLength_iff]

end Reached

/-- The growth of a real workspace from 5 to 50 words is told. -/
theorem reallocations_are_told_compressed :
    ∃ event ∈ (recoveredWorld.step recovery).engine.diagnostics,
      event.told .integer = some (12, 12) ∧ event.told .real = some (5, 50) ∧
      ∃ (w₀ : World ℚ (Recorded ℚ (Script ℚ))) (action : Action ℚ) (since : List (Action ℚ)),
        w₀.Reached scripted ∧ recoveredWorld.step recovery = (w₀.step action).run since ∧
        ∃ kind, w₀.engine.Lengthens kind := by
  have listed : (recoveredWorld.step recovery).engine.diagnostics ≠ [] ∧
      ∀ event ∈ (recoveredWorld.step recovery).engine.diagnostics,
        event.code = reallocated.code ∧ event.attemptIndex = none ∧
          event.told .integer = some (12, 12) ∧ event.told .real = some (5, 50) := by
    rw [recoveredWorld_called]
    decide +kernel
  obtain ⟨event, member⟩ := List.exists_mem_of_ne_nil _ listed.1
  obtain ⟨code, first, integers, reals⟩ := listed.2 event member
  have reached := (compressedWorld_reached.run [.setValues 0 [3]]).step recovery
  obtain ⟨w₀, action, since, before, same, lengths, lengths', -, told, longer⟩ :=
    (reallocations_are_told reached).1 event member code
  refine ⟨event, member, integers, reals, w₀, action, since, before, same, ?_⟩
  have grown : lengths .real < lengths' .real := by
    have tells := (told .real).1
    simp only [reals, Option.some.injEq, Prod.mk.injEq] at tells
    omega
  exact (longer.1 ⟨.real, grown⟩).resolve_left (by simp [first])

/-! ## A run in which nothing grows -/

namespace Engine

section Served

variable {α σ : Type} [Scalar α] (e : Engine α σ) (m : MatrixView α) (r : FactorizationResult)

/-- The engine before the factorization of a call. -/
def fronted : Engine α σ :=
  noteValues m (exec (if (e.captured m).phase = .structureKnown then analyse e.solveCount
    else pure none) (e.captured m)).2

/-- The engine with the growth carried out that was pending. -/
def readied (solveIndex : Nat) : Engine α σ :=
  if e.pending.any then
    (exec (growIntegers e) (exec (growReals e) e).2).2.afterGrowth solveIndex e.workspace
  else e

/-- The engine after the attempts of a call. -/
def tried : Engine α σ := (attempts m e.solveCount 0 ((e.fronted m).readied e.solveCount)).2

/-- The engine after a call whose first attempt is a success. -/
def served (rhs solutions : List (DenseVector α)) : Engine α σ :=
  (backsolve e.solveCount 0 rhs solutions ((e.tried m).afterSuccess r e.solveCount 0)).2

variable {e m r}

theorem exec_readied (reals : (exec (growReals e) e).1 = .ok ())
    (integers : (exec (growIntegers e) (exec (growReals e) e).2).1 = .ok ())
    (named : (exec (growIntegers e) (exec (growReals e) e).2).2.solverId ≠ "") (solveIndex : Nat) :
    exec (applyPendingGrowth solveIndex) e = (.ok (), e.readied solveIndex) := by
  unfold readied
  split
  · next due =>
    exact exec_applyPendingGrowth due (Prod.ext reals rfl) (Prod.ext integers rfl) named solveIndex
  · next idle =>
    rw [applyPendingGrowth_eq, exec_bind, exec_get]
    dsimp only
    rw [if_neg idle]
    rfl

theorem multiSolve_served {rhs solutions : List (DenseVector α)}
    (accepted : e.usageFault? m rhs solutions none = none)
    (analysed : (exec (if (e.captured m).phase = .structureKnown then analyse e.solveCount
      else pure none) (e.captured m)).1 = .ok none)
    (due : (e.fronted m).phase ≠ .factorized)
    (grown : exec (applyPendingGrowth e.solveCount) (e.fronted m) =
      (.ok (), (e.fronted m).readied e.solveCount))
    (attempted : (attempts m e.solveCount 0 ((e.fronted m).readied e.solveCount)).1 =
      .ok (some (r, 0)))
    (success : r.verdict = .success) (named : (e.tried m).solverId ≠ "")
    (idle : (e.tried m).pending = .none) :
    (e.multiSolve m rhs solutions none).2 = e.served m r rhs solutions :=
  congrArg Prod.snd (multiSolve_of_success rfl accepted (Prod.ext analysed rfl) due grown
    (Prod.ext attempted rfl) (exec_conclude_of_success named idle success e.solveCount 0))

end Served

end Engine

open Engine

/-- Options with a growth factor that adds one word to twenty. -/
def slowOptions : Options ℚ :=
  { ({ Settings.standard with growthFactor := 21 / 20 } : Settings ℚ) with
    source := .constructed
    valid := by decide +kernel }

/-- An engine with these options whose kernel compresses both workspaces twelve times when it
factorizes first. -/
def slowEngine : Engine ℚ (Recorded ℚ (Script ℚ)) :=
  { scriptedEngine ⟨[], [KernelInfo.toRaw
      { rank := 1, realCompressions := 12, integerCompressions := 12 }], []⟩ with
    options := slowOptions }

theorem create_slowEngine : Engine.create .unlimited slowOptions scripted.recorded
    ⟨⟨[], [KernelInfo.toRaw { rank := 1, realCompressions := 12, integerCompressions := 12 }], []⟩,
      []⟩ "exact" true = .ok slowEngine := rfl

/-- A caller of that engine with the matrix with the entry 2. -/
def slowWorld : World ℚ (Recorded ℚ (Script ℚ)) :=
  (World.start slowEngine ⟨0⟩).run [.ofTriplets 1 [0] [0] (some [2])]

theorem slowWorld_matrices : 0 < slowWorld.matrices.length := by decide +kernel

/-- The matrix with the entry 2. -/
def slowMatrix : SymTriplets ℚ := slowWorld.matrices.get ⟨0, slowWorld_matrices⟩

/-- The engine after the call that compressed. -/
def packedEngine : Engine ℚ (Recorded ℚ (Script ℚ)) :=
  slowWorld.engine.served slowMatrix.view ⟨.success, 0, 1, 12, 12, 0, 0⟩ [⟨[1]⟩] [⟨[0]⟩]

/-- A call with one right-hand side. -/
def oneCall : Action ℚ := .multiSolve 0 [⟨[1]⟩] [⟨[0]⟩] none

theorem packedEngine_called : (slowWorld.step oneCall).engine = packedEngine := by
  refine (World.engine_multiSolve (List.getElem?_eq_getElem slowWorld_matrices) ..).trans ?_
  have grown := exec_readied (e := slowWorld.engine.fronted slowMatrix.view) (by decide +kernel)
    (by decide +kernel) (by decide +kernel) slowWorld.engine.solveCount
  exact multiSolve_served (by decide +kernel) (by decide +kernel) (by decide +kernel) grown
    (by decide +kernel) rfl (by decide +kernel) (by decide +kernel)

/-- The caller has solved and made the entry 3. -/
def packedWorld : World ℚ (Recorded ℚ (Script ℚ)) := slowWorld.run [oneCall, .setValues 0 [3]]

theorem packedWorld_engine : packedWorld.engine = packedEngine :=
  ((slowWorld.step oneCall).engine_revise 0 [3]).trans packedEngine_called

theorem packedWorld_matrices : 0 < packedWorld.matrices.length := by decide +kernel

/-- The matrix with the entry 3. -/
def packedMatrix : SymTriplets ℚ := packedWorld.matrices.get ⟨0, packedWorld_matrices⟩

/-- The engine after the call for the entry 3. -/
def stuckEngine : Engine ℚ (Recorded ℚ (Script ℚ)) :=
  packedEngine.served packedMatrix.view ⟨.success, 0, 1, 0, 0, 0, 0⟩ [⟨[1]⟩] [⟨[0]⟩]

theorem stuckEngine_called : (packedWorld.step oneCall).engine = stuckEngine := by
  refine (World.engine_multiSolve (List.getElem?_eq_getElem packedWorld_matrices) ..).trans ?_
  rw [packedWorld_engine]
  have grown := exec_readied (e := packedEngine.fronted packedMatrix.view) (by decide +kernel)
    (by decide +kernel) (by decide +kernel) packedEngine.solveCount
  exact multiSolve_served (by decide +kernel) (by decide +kernel) (by decide +kernel) grown
    (by decide +kernel) rfl (by decide +kernel) (by decide +kernel)

/-- Growth of both workspaces is pending and reported, and neither gets longer. -/
theorem reallocation_of_nothing :
    packedWorld.engine.pending = ⟨true, true⟩ ∧ (packedWorld.step oneCall).Reached scripted ∧
      ∃ event ∈ (packedWorld.step oneCall).engine.diagnostics, event.code = reallocated.code ∧
        event.told .integer = some (12, 12) ∧ event.told .real = some (5, 5) := by
  have reached : (packedWorld.step oneCall).Reached scripted :=
    ⟨_, _, _, _, _, slowEngine, ⟨0⟩,
      [.ofTriplets 1 [0] [0] (some [2]), oneCall, .setValues 0 [3], oneCall], create_slowEngine, rfl⟩
  have listed : (packedWorld.step oneCall).engine.diagnostics ≠ [] ∧
      ∀ event ∈ (packedWorld.step oneCall).engine.diagnostics, event.code = reallocated.code ∧
        event.told .integer = some (12, 12) ∧ event.told .real = some (5, 5) := by
    rw [stuckEngine_called]
    decide +kernel
  have pending : packedWorld.engine.pending = ⟨true, true⟩ := by
    rw [packedWorld_engine]
    decide +kernel
  obtain ⟨event, member⟩ := List.exists_mem_of_ne_nil _ listed.1
  exact ⟨pending, reached, event, member, listed.2 event member⟩

end SymSolve
