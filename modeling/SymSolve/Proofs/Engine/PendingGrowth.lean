import SymSolve.Proofs.Engine.Retries
import SymSolve.Proofs.Engine.Settling

/-!
# Growth between two factorizations

A factorization that compressed a workspace often makes growth of it pending, and before the next
one it is carried out.

**Theorem (`ends_applyPendingGrowth`).** Pending growth is carried out for both workspaces, to the
lengths that are due, and nothing is pending then; or memory refuses a length, and all of it is
still pending.

**Theorem (`schedules_factorize`).** While a factorization is attempted nothing is pending. What is
pending after it is asked for by the last attempt alone, if that was a success, and it is reported
just then.

Memory may refuse the integer workspace after the real one has grown. As it refuses it again each
time, no factorization comes to see the lengths in between (`Blocked`).
-/

namespace SymSolve

/-- The entry of the catalog for growth before the next factorization. -/
def growthScheduled : CatalogEntry where
  code := "W_LIN_WORKSPACE_GROWTH_SCHEDULED"
  severity := .warning
  stage := .factorize
  action := "raise the workspace init factors if compressions repeat"

section Requests

variable {α : Type}

/-- The event reports that growth is pending. -/
def Event.isSchedule (event : Event α) : Bool :=
  event.code == growthScheduled.code && event.solveIndex.isSome

/-- Growth of the workspaces that were compressed at least that often. -/
def FactorizationResult.growth (r : FactorizationResult) (threshold : Int) : PendingGrowth where
  real := threshold ≤ r.realCompressions
  integer := threshold ≤ r.integerCompressions

theorem FactorizationResult.growth_of (r : FactorizationResult) (threshold : Int)
    (kind : WorkspaceKind) :
    (r.growth threshold).of kind = true ↔ threshold ≤ r.compressions kind := by
  cases kind <;> exact decide_eq_true_iff

/-- The growth that a factorization asks for. Only a success asks for any. -/
def FactorizeCall.growth (f : FactorizeCall α) (threshold : Int) : PendingGrowth :=
  match f.result with
  | .ok report => if report.verdict = .success then report.growth threshold else .none
  | .error _ => .none

/-- A workspace is asked for by a success that compressed it often. -/
theorem FactorizeCall.growth_of (f : FactorizeCall α) (threshold : Int) (kind : WorkspaceKind) :
    (f.growth threshold).of kind = true ↔ ∃ report, f.result = .ok report ∧
      report.verdict = .success ∧ threshold ≤ report.compressions kind := by
  unfold growth
  cases f.result with
  | error cause => simp [PendingGrowth.of_none]
  | ok report =>
    by_cases success : report.verdict = .success
    · simp [success, report.growth_of]
    · simp [success, PendingGrowth.of_none]

/-- The report that growth is pending. -/
def scheduleReport (solverId : String) (solveIndex attemptIndex : Nat) (r : FactorizationResult)
    (pending : PendingGrowth) : Report α where
  message :=
    let reals := r.realCompressions
    let integers := r.integerCompressions
    s!"kernel compressed {reals} real / {integers} integer times; " ++
      "growing workspace before the next factorization"
  solverId
  solveIndex := some solveIndex
  attemptIndex := some attemptIndex
  witness := .object [
    ("integer", .bool pending.integer), ("integer_compressions", .int r.integerCompressions),
    ("real", .bool pending.real), ("real_compressions", .int r.realCompressions)]

/-- What is reported of the growth that a factorization asks for. -/
def FactorizeCall.notices (f : FactorizeCall α) (threshold : Int) (solverId : String)
    (solveIndex attemptIndex : Nat) : List (Event α) :=
  match f.result with
  | .ok report =>
    let pending := f.growth threshold
    if pending.any then
      [.ofEntry growthScheduled (scheduleReport solverId solveIndex attemptIndex report pending)]
    else []
  | .error _ => []

theorem PendingGrowth.any_iff (p : PendingGrowth) : p.any = true ↔ ∃ kind, p.of kind = true := by
  rw [any, Bool.or_eq_true]
  constructor
  · rintro (due | due)
    · exact ⟨.real, due⟩
    · exact ⟨.integer, due⟩
  · rintro ⟨_ | _, due⟩
    · exact .inr due
    · exact .inl due

/-- **Growth is reported just where it is asked for.** -/
theorem FactorizeCall.notices_eq_nil_iff (f : FactorizeCall α) (threshold : Int)
    (solverId : String) (solveIndex attemptIndex : Nat) :
    f.notices threshold solverId solveIndex attemptIndex = [] ↔
      ∀ kind, (f.growth threshold).of kind = false := by
  have idle : (f.growth threshold).any = false ↔ ∀ kind, (f.growth threshold).of kind = false := by
    simp [← Bool.not_eq_true, PendingGrowth.any_iff]
  rw [← idle]
  unfold notices
  split
  · dsimp only
    split <;> simp_all
  · next cause failed => simp [growth, failed, PendingGrowth.any, PendingGrowth.none]

theorem FactorizeCall.growth_of_failure {f : FactorizeCall α}
    (failed : ∀ report, f.result = .ok report → report.verdict ≠ .success) (threshold : Int) :
    f.growth threshold = .none := by
  unfold growth
  cases answer : f.result with
  | error cause => rfl
  | ok report => exact if_neg (failed report answer)

end Requests

namespace Engine

/-! ## Scheduling -/

section Schedule

variable {α σ : Type} [Scalar α] {e e' : Engine α σ}

/-- The reports of growth that the engine lists. -/
def schedule (e : Engine α σ) : List (Event α) := e.diagnostics.filter Event.isSchedule

omit [Scalar α] in
/-- The evidence of scheduled growth, in its JSON form. -/
theorem normalize_schedule (real integer : Bool) (reals integers : Int) :
    (Payload.ofFields [("integer", .bool integer), ("integer_compressions", .int integers),
        ("real", .bool real), ("real_compressions", .int reals)] : Payload α).normalize =
      .ok (.object [("integer", .bool integer), ("integer_compressions", .int integers),
        ("real", .bool real), ("real_compressions", .int reals)]) :=
  Payload.normalize_ofFields_sorted (by simp) rfl

/-- Where nothing is pending, the growth that a report asks for becomes so. -/
theorem exec_scheduleGrowth (named : e.solverId ≠ "") (idle : e.pending = .none)
    (r : FactorizationResult) (solveIndex i : Nat) :
    let pending := r.growth e.options.compressionThreshold
    exec (scheduleGrowth r solveIndex i) e = (.ok (), { e with
      pending
      diagnostics := e.diagnostics ++
        if pending.any then
          [.ofEntry growthScheduled (scheduleReport e.solverId solveIndex i r pending)]
        else [] }) := by
  intro pending
  have asked : (⟨e.pending.real || e.options.compressionThreshold ≤ r.realCompressions,
      e.pending.integer || e.options.compressionThreshold ≤ r.integerCompressions⟩ :
        PendingGrowth) = pending := by
    rw [idle]
    rfl
  unfold scheduleGrowth
  rw [exec_bind, exec_get]
  dsimp only
  rw [asked, idle]
  by_cases due : pending.any = true
  · rw [if_pos due, if_pos (fun none => by rw [none] at due; cases due), exec_bind, exec_set]
    exact exec_emit growthScheduled (by decide +kernel) (by decide) (by decide) (by simp) named
      (fun _ => rfl) (normalize_schedule ..)
  · have none : pending = .none := PendingGrowth.eq_none (by simpa using due)
    rw [if_neg due, if_neg (not_not_intro none), none, List.append_nil]
    show (_, e) = (_, { e with pending := .none })
    rw [← idle]

/-- The engine after a factorization whose last attempt, with the number `i`, was a success. -/
def afterSuccess (r : FactorizationResult) (solveIndex i : Nat) (e : Engine α σ) : Engine α σ :=
  let pending := r.growth e.options.compressionThreshold
  { e with
    phase := .factorized
    negative := some r.negative
    pending
    diagnostics := e.diagnostics ++
      if pending.any then
        [.ofEntry growthScheduled (scheduleReport e.solverId solveIndex i r pending)]
      else [] }

theorem schedule_afterSuccess (r : FactorizationResult) (solveIndex i : Nat) (e : Engine α σ) :
    let pending := r.growth e.options.compressionThreshold
    (e.afterSuccess r solveIndex i).schedule = e.schedule ++
      if pending.any then
        [.ofEntry growthScheduled (scheduleReport e.solverId solveIndex i r pending)]
      else [] := by
  intro pending
  show List.filter _ (e.diagnostics ++ _) = _
  rw [List.filter_append]
  refine congrArg (e.schedule ++ ·) ?_
  split <;> rfl

theorem exec_conclude_of_success (named : e.solverId ≠ "") (idle : e.pending = .none)
    {r : FactorizationResult} (success : r.verdict = .success) (solveIndex i : Nat) :
    exec (conclude r solveIndex i) e = (.ok none, e.afterSuccess r solveIndex i) := by
  let noted : Engine α σ := { e with negative := some r.negative }
  have scheduled := exec_scheduleGrowth (e := noted) named idle r solveIndex i
  unfold conclude
  rw [exec_bind, exec_get]
  simp only [success]
  rw [exec_bind, exec_set]
  dsimp only
  rw [exec_bind, scheduled]
  rfl

/-- The report that pending growth was carried out, from the lengths `w` to the lengths `w'`. -/
def appliedReport (solverId : String) (solveIndex : Nat) (w w' : Workspace α) : Report α where
  message := "scheduled growth applied" ++ "; integer workspace " ++
    toString w.integers.length ++ " -> " ++ toString w'.integers.length ++
    ", real workspace " ++ toString w.reals.length ++ " -> " ++ toString w'.reals.length
  solverId
  solveIndex := some solveIndex
  attemptIndex := none
  witness := .object [
    ("integer_workspace_len", .list [.int w.integers.length, .int w'.integers.length]),
    ("real_workspace_len", .list [.int w.reals.length, .int w'.reals.length])]

omit [Scalar α] in
/-- The evidence of growth, in its JSON form. -/
theorem normalize_growth (w w' : Workspace α) :
    (Payload.ofFields [("integer_workspace_len", change w.integers.length w'.integers.length),
        ("real_workspace_len", change w.reals.length w'.reals.length)] : Payload α).normalize =
      .ok (.object [
        ("integer_workspace_len", .list [.int w.integers.length, .int w'.integers.length]),
        ("real_workspace_len", .list [.int w.reals.length, .int w'.reals.length])]) :=
  Payload.normalize_ofFields_sorted (by simp) rfl

theorem exec_emitApplied (named : e.solverId ≠ "") (solveIndex : Nat) (w w' : Workspace α) :
    exec (emitReallocated "scheduled growth applied" solveIndex none w w' []) e =
      (.ok (), { e with diagnostics := e.diagnostics ++
        [.ofEntry reallocated (appliedReport e.solverId solveIndex w w')] }) := by
  have evidence := normalize_growth w w'
  unfold emitReallocated appliedReport
  exact exec_emit reallocated (by decide +kernel) (by decide) (by decide) (by simp) named nofun
    evidence

/-- The engine after its workspaces have grown from `before`. -/
def afterGrowth (solveIndex : Nat) (before : Workspace α) (e : Engine α σ) : Engine α σ :=
  { e with
    pending := .none
    diagnostics := e.diagnostics ++
      [.ofEntry reallocated (appliedReport e.solverId solveIndex before e.workspace)] }

theorem exec_settleGrowth (named : e.solverId ≠ "") (solveIndex : Nat) (before : Workspace α) :
    exec (settleGrowth solveIndex before) e = (.ok (), e.afterGrowth solveIndex before) := by
  let settled : Engine α σ := { e with pending := .none }
  have reported := exec_emitApplied (e := settled) named solveIndex before settled.workspace
  unfold settleGrowth
  rw [exec_bind]
  show exec (get >>= _) settled = _
  rw [exec_bind, exec_get]
  exact reported

theorem exec_applyPendingGrowth {e₁ e₂ : Engine α σ} (due : e.pending.any = true)
    (reals : exec (growReals e) e = (.ok (), e₁)) (integers : exec (growIntegers e) e₁ = (.ok (), e₂))
    (named : e₂.solverId ≠ "") (solveIndex : Nat) :
    exec (applyPendingGrowth solveIndex) e =
      (.ok (), e₂.afterGrowth solveIndex e.workspace) := by
  rw [applyPendingGrowth_eq, exec_bind, exec_get]
  dsimp only
  rw [if_pos due, exec_bind, reals]
  dsimp only
  rw [exec_bind, integers]
  exact exec_settleGrowth named solveIndex e.workspace

end Schedule

/-! ## What else a call does -/

section Postpones

variable {α σ : Type} [Scalar α] {k : Kernel α σ} {e e' e'' base : Engine α (Recorded α σ)}

/-- Nothing was done about growth: no factorization was made, and what was pending still is. -/
structure Postpones (e e' : Engine α (Recorded α σ)) : Prop where
  tally : e'.tally = e.tally
  pending : e'.pending = e.pending
  schedule : e'.schedule = e.schedule

theorem Postpones.refl (e : Engine α (Recorded α σ)) : Postpones e e := ⟨rfl, rfl, rfl⟩

theorem Postpones.trans (h : Postpones e e') (h' : Postpones e' e'') : Postpones e e'' :=
  ⟨h'.tally.trans h.tally, h'.pending.trans h.pending, h'.schedule.trans h.schedule⟩

/-- Reports of other things. -/
def Aside (code : String) (attemptIndex : Option Nat) : Prop :=
  NoRetry code attemptIndex ∧ code ≠ growthScheduled.code

theorem schedule_concat {event : Event α} (other : event.code ≠ growthScheduled.code)
    (e : Engine α σ) : schedule { e with diagnostics := e.diagnostics ++ [event] } = e.schedule := by
  have : event.isSchedule = false := by simp [Event.isSchedule, other]
  simp [schedule, this]

theorem schedule_report (entry : CatalogEntry) (other : entry.code ≠ growthScheduled.code)
    (report : Report α) (e : Engine α σ) :
    schedule { e with diagnostics := e.diagnostics ++ [.ofEntry entry report] } = e.schedule :=
  schedule_concat other e

theorem unmoved_postpones (base : Engine α (Recorded α σ)) : Unmoved Aside (Postpones base) where
  notes _ _ _ h := ⟨h.tally, h.pending, h.schedule⟩
  report {e} event other h :=
    ⟨(unmoved_tally base.tally).report event other.1 h.tally, h.pending,
      (schedule_concat other.2 e).trans h.schedule⟩

theorem untouched_postpones (recorded : base.session.kernel = k.recorded) :
    Untouched Aside (Postpones base) where
  toUnmoved := unmoved_postpones base
  analysed h := ⟨(untouched_tally recorded).analysed h.tally, h.pending, h.schedule⟩
  solved rhs h := ⟨(untouched_tally recorded).solved rhs h.tally, h.pending, h.schedule⟩

theorem unsized_postpones (base : Engine α (Recorded α σ)) : Unsized (Postpones base) where
  sizes _ h := ⟨h.tally, h.pending, h.schedule⟩

/-- Nothing was done about growth, and the workspaces are as long as they were. -/
structure Stays (e e' : Engine α (Recorded α σ)) : Prop extends Postpones e e' where
  lengths : ∀ kind, e'.workspace.lengthOf kind = e.workspace.lengthOf kind

theorem Stays.refl (e : Engine α (Recorded α σ)) : Stays e e := ⟨.refl e, fun _ => rfl⟩

theorem unmoved_stays (base : Engine α (Recorded α σ)) : Unmoved Aside (Stays base) where
  notes phase tag negative h :=
    ⟨(unmoved_postpones base).notes phase tag negative h.toPostpones, h.lengths⟩
  report event other h := ⟨(unmoved_postpones base).report event other h.toPostpones, h.lengths⟩

theorem untouched_stays (recorded : base.session.kernel = k.recorded) :
    Untouched Aside (Stays base) where
  toUnmoved := unmoved_stays base
  analysed h := by
    refine ⟨(untouched_postpones recorded).analysed h.toPostpones, fun kind => ?_⟩
    rw [← h.lengths kind]
    cases kind
    · exact Session.size_analyse_iw ..
    · rfl
  solved rhs h := by
    refine ⟨(untouched_postpones recorded).solved rhs h.toPostpones, fun kind => ?_⟩
    rw [← h.lengths kind]
    cases kind
    · exact Session.size_backsolve_iw ..
    · exact Session.size_backsolve_a ..

end Postpones

/-! ## Growth that is due -/

section Due

variable {K σ : Type} [Field K] [LinearOrder K] [IsStrictOrderedRing K] [FloorRing K]
variable {e e' e'' : Engine K (Recorded K σ)}

omit [IsStrictOrderedRing K] in
/-- The length that a workspace gets before the next factorization. -/
def dueLength (e : Engine K σ) (kind : WorkspaceKind) : Nat :=
  let length := e.workspace.lengthOf kind
  if e.pending.of kind then max length ⌊e.options.growthFactor * length⌋₊ else length

/-- Growth of the integer workspace is pending that memory refuses. -/
structure Blocked (e : Engine K σ) : Prop where
  longer : e.workspace.lengthOf .integer < e.dueLength .integer
  refused : (e.memory.refusal? (e.dueLength .integer)).isSome

/-- Growth was carried out, and nothing is pending any more. -/
structure Grown (e e' : Engine K (Recorded K σ)) : Prop where
  tally : e'.tally = e.tally
  schedule : e'.schedule = e.schedule
  pending : e'.pending = .none
  lengths : ∀ kind, e'.workspace.lengthOf kind = e.dueLength kind
  free : ¬ e.Blocked

/-- Growth is still pending. The workspaces are as long as they were, or the real one has grown and
the integer one is blocked. -/
structure Held (e e' : Engine K (Recorded K σ)) : Prop where
  memory : e'.memory = e.memory
  options : e'.options = e.options
  pending : e'.pending = e.pending
  integers : e'.workspace.lengthOf .integer = e.workspace.lengthOf .integer
  reals : e'.workspace.lengthOf .real = e.workspace.lengthOf .real ∨ e.Blocked

omit [IsStrictOrderedRing K] in
theorem Stays.held (h : Stays e e') : Held e e' :=
  ⟨congrArg Tally.memory h.tally, congrArg Tally.options h.tally, h.pending, h.lengths .integer,
    .inl (h.lengths .real)⟩

omit [IsStrictOrderedRing K] in
theorem dueLength_congr {e e' : Engine K σ} (options : e'.options = e.options)
    (pending : e'.pending = e.pending) {kind : WorkspaceKind}
    (length : e'.workspace.lengthOf kind = e.workspace.lengthOf kind) :
    e'.dueLength kind = e.dueLength kind := by
  rw [dueLength, dueLength, options, pending, length]

namespace Held

omit [IsStrictOrderedRing K] in
theorem due_integer (h : Held e e') : e'.dueLength .integer = e.dueLength .integer :=
  dueLength_congr h.options h.pending h.integers

omit [IsStrictOrderedRing K] in
theorem blocked_iff (h : Held e e') : e'.Blocked ↔ e.Blocked := by
  constructor
  · rintro ⟨longer, refused⟩
    rw [h.integers, h.due_integer] at longer
    rw [h.memory, h.due_integer] at refused
    exact ⟨longer, refused⟩
  · rintro ⟨longer, refused⟩
    rw [← h.integers, ← h.due_integer] at longer
    rw [← h.memory, ← h.due_integer] at refused
    exact ⟨longer, refused⟩

omit [IsStrictOrderedRing K] in
theorem trans (h : Held e e') (h' : Held e' e'') : Held e e'' where
  memory := h'.memory.trans h.memory
  options := h'.options.trans h.options
  pending := h'.pending.trans h.pending
  integers := h'.integers.trans h.integers
  reals := by
    rcases h.reals with same | blocked
    · rw [← same]
      exact h'.reals.imp_right h.blocked_iff.1
    · exact .inr blocked

omit [IsStrictOrderedRing K] in
/-- Unless the integer workspace is blocked, what is due does not change. -/
theorem due (h : Held e e') (free : ¬ e.Blocked) (kind : WorkspaceKind) :
    e'.dueLength kind = e.dueLength kind := by
  refine dueLength_congr h.options h.pending ?_
  cases kind
  · exact h.integers
  · exact h.reals.resolve_right free

end Held

theorem grownLength_due (e : Engine K σ) (kind : WorkspaceKind) (due : e.pending.of kind = true) :
    grownLength (e.workspace.lengthOf kind) (e.workspace.lengthOf kind) e.options.growthFactor =
      .ok (e.dueLength kind : Nat) := by
  have longer := e.options.one_lt_growthFactor
  rw [grownLength_exact (zero_le_one.trans longer.le), dueLength, if_pos due]

omit [IsStrictOrderedRing K] in
theorem dueLength_of_idle {e : Engine K σ} (kind : WorkspaceKind) (idle : ¬ e.pending.of kind = true) :
    e.dueLength kind = e.workspace.lengthOf kind := if_neg idle

theorem ends_growReals (e : Engine K (Recorded K σ)) :
    Ends (growReals e) e
      (fun _ e' => e' = { e with workspace := { e.workspace with
        reals := e.workspace.reals.grow (e.dueLength .real) } })
      (fun _ e' => e' = e) := by
  unfold growReals
  by_cases due : e.pending.real = true
  · have read := e.grownLength_due .real due
    rw [if_pos due]
    refine ends_lengthOrFault (fun n grown => ?_) fun cause failed => ?_
    · obtain rfl : n = (e.dueLength .real : Nat) := Except.ok.inj (grown.symm.trans read)
      rw [← bind_pure (ensureReals _)]
      exact ends_ensureReals rfl fun _ _ => rfl
    · cases failed.symm.trans read
  · have same : e.workspace.reals.grow (e.dueLength .real) = e.workspace.reals :=
      if_pos (Nat.le_of_eq (dueLength_of_idle .real due))
    rw [if_neg due, same]
    exact rfl

omit [LinearOrder K] [IsStrictOrderedRing K] [FloorRing K] in
theorem exists_error_of_ensure {β : Type} [OfNat β 0] {memory : Memory} {b : Buffer β} {n : Nat} :
    (∃ cause, b.ensure memory n = .error cause) ↔
      b.length < n ∧ (memory.refusal? n).isSome := by
  unfold Buffer.ensure
  rw [if_neg (by omega), Int.toNat_natCast]
  by_cases long : (n : Int) ≤ b.length
  · simp [Int.ofNat_le.1 long]
  · rw [if_neg long]
    cases memory.refusal? n with
    | none => simp
    | some cause => simpa using long

/-- The integer workspace grows as well, unless it is blocked. -/
theorem ends_growIntegers {e e₁ : Engine K (Recorded K σ)} (memory : e₁.memory = e.memory)
    (integers : e₁.workspace.integers = e.workspace.integers) :
    Ends (growIntegers e) e₁
      (fun _ e' => ¬ e.Blocked ∧ e' = { e₁ with workspace := { e₁.workspace with
        integers := e₁.workspace.integers.grow (e.dueLength .integer) } })
      (fun _ e' => e.Blocked ∧ e' = e₁) := by
  unfold growIntegers
  by_cases due : e.pending.integer = true
  · have read := e.grownLength_due .integer due
    rw [if_pos due]
    refine ends_lengthOrFault (fun n grown => ?_) fun cause failed => ?_
    · obtain rfl : n = (e.dueLength .integer : Nat) := Except.ok.inj (grown.symm.trans read)
      unfold ensureIntegers
      rw [ends_get, memory, integers]
      cases ensured : e.workspace.integers.ensure e.memory (e.dueLength .integer) with
      | error cause =>
        obtain ⟨longer, refused⟩ := exists_error_of_ensure.1 ⟨cause, ensured⟩
        exact ⟨⟨longer, refused⟩, rfl⟩
      | ok grown =>
        refine ⟨fun blocked => ?_, by rw [Buffer.eq_grow_of_ensure ensured]; rfl⟩
        obtain ⟨cause, failed⟩ := exists_error_of_ensure.2 ⟨blocked.longer, blocked.refused⟩
        cases failed.symm.trans ensured
    · cases failed.symm.trans read
  · have idle := dueLength_of_idle .integer due
    have same : e₁.workspace.integers.grow (e.dueLength .integer) = e₁.workspace.integers := by
      rw [integers]
      exact if_pos (Nat.le_of_eq idle)
    rw [if_neg due, same]
    exact ⟨fun blocked => Nat.lt_irrefl _ (idle ▸ blocked.longer), rfl⟩

omit [IsStrictOrderedRing K] in
theorem le_dueLength (e : Engine K σ) (kind : WorkspaceKind) :
    e.workspace.lengthOf kind ≤ e.dueLength kind := by
  unfold dueLength
  dsimp only
  split
  · exact le_max_left ..
  · exact le_rfl

/-- **Growth is carried out for both workspaces at once**, and nothing is pending then. If memory
refuses it, nothing is cleared. -/
theorem ends_applyPendingGrowth (e : Engine K (Recorded K σ)) (named : e.solverId ≠ "")
    (solveIndex : Nat) :
    Ends (applyPendingGrowth solveIndex) e (fun _ => Grown e)
      (fun _ e' => e'.tally = e.tally ∧ e'.schedule = e.schedule ∧ Held e e') := by
  rw [applyPendingGrowth_eq, ends_get]
  by_cases due : e.pending.any = true
  · rw [if_pos due]
    refine (ends_growReals e).bind ?_ ?_
    · rintro - e₁ grown₁
      have memory : e₁.memory = e.memory := by rw [grown₁]
      have integers : e₁.workspace.integers = e.workspace.integers := by rw [grown₁]
      refine (ends_growIntegers memory integers).bind ?_ ?_ <;> subst grown₁
      · rintro - _ ⟨free, rfl⟩
        refine (ends_of_ok (exec_settleGrowth (by exact named) solveIndex e.workspace)).2
          ⟨?_, schedule_report reallocated (by decide) _ e, rfl, fun kind => ?_, free⟩
        · exact (unmoved_tally e.tally).report (e := { e with
            pending := .none
            workspace := e.workspace.grow (e.dueLength .integer) (e.dueLength .real) })
            (.ofEntry reallocated (appliedReport ..)) (.inr rfl) rfl
        cases kind
        · exact (Buffer.length_grow ..).trans (max_eq_right (e.le_dueLength .integer))
        · exact (Buffer.length_grow ..).trans (max_eq_right (e.le_dueLength .real))
      · rintro - _ ⟨blocked, rfl⟩
        exact ⟨rfl, rfl, rfl, rfl, rfl, rfl, .inr blocked⟩
    · rintro - _ rfl
      exact ⟨rfl, rfl, rfl, rfl, rfl, rfl, .inl rfl⟩
  · rw [if_neg due]
    have idle := PendingGrowth.eq_none (by simpa using due)
    have lengths (kind : WorkspaceKind) : e.dueLength kind = e.workspace.lengthOf kind :=
      dueLength_of_idle _ (by rw [idle, PendingGrowth.of_none]; exact Bool.false_ne_true)
    exact ⟨rfl, rfl, idle, fun kind => (lengths kind).symm,
      fun blocked => Nat.lt_irrefl _ (lengths .integer ▸ blocked.longer)⟩

/-! ## The attempts -/

omit [IsStrictOrderedRing K] in
theorem answered_of_relieves {factor : K} {f f' : FactorizeCall K} (h : Relieves factor f f') :
    ∃ report, f.result = .ok report := by
  obtain ⟨_, _, asked, -⟩ := h.lengths
  unfold FactorizeCall.verdict at asked
  split at asked
  · next report answer => exact ⟨report, answer⟩
  · cases asked

omit [IsStrictOrderedRing K] in
/-- If the last one of the factorizations has an answer, all of them have. -/
theorem answered_of_chain {factor : K} {fs : List (FactorizeCall K)}
    (chain : fs.IsChain (Relieves factor))
    (last : ∀ f ∈ fs.getLast?, ∃ report, f.result = .ok report) :
    ∀ f ∈ fs, ∃ report, f.result = .ok report := by
  induction fs with
  | nil => nofun
  | cons f fs ih =>
    cases fs with
    | nil =>
      rintro _ (_ | ⟨_, _, ⟨⟩⟩)
      exact last f rfl
    | cons f' fs =>
      obtain ⟨relieves, chain⟩ := List.isChain_cons_cons.1 chain
      rintro g (_ | ⟨_, hg⟩)
      · exact answered_of_relieves relieves
      · exact ih chain last g hg

omit [IsStrictOrderedRing K] in
theorem count_attempt {m : MatrixView K} {solveIndex i : Nat} {e : Engine K σ}
    {report : FactorizationResult} (answer : (attempt m solveIndex i e).1 = .ok report) :
    (attempt m solveIndex i e).2.factorizationCount = e.factorizationCount + 1 := by
  unfold attempt at answer ⊢
  split at answer
  · cases answer
  · dsimp only at answer ⊢
    split at answer
    · cases answer
    · rfl

omit [IsStrictOrderedRing K] in
/-- The number of the attempt that ends the attempts. -/
theorem count_attempts (m : MatrixView K) (solveIndex i : Nat) (e : Engine K σ)
    {report : FactorizationResult} {j : Nat}
    (ended : (attempts m solveIndex i e).1 = .ok (some (report, j))) :
    (attempts m solveIndex i e).2.factorizationCount + i = e.factorizationCount + j + 1 := by
  fun_induction attempts m solveIndex i e with
  | case2 i e tried report answer _ =>
    obtain ⟨rfl, rfl⟩ := Prod.mk.inj (Option.some.inj (Except.ok.inj ended))
    rw [count_attempt answer]
    omega
  | case5 i e tried report answer short required asked before lengths _ _ enough after relieved ih =>
    have counts (n : Nat) : Unmoved (fun _ _ => True) fun e : Engine K σ => e.factorizationCount = n :=
      ⟨fun _ _ _ h => h, fun _ _ h => h⟩
    have sizes (n : Nat) : Unsized fun e : Engine K σ => e.factorizationCount = n := ⟨fun _ h => h⟩
    have grown : after.factorizationCount = tried.2.factorizationCount :=
      ((sizes _).relieve (counts _) trivial report required enough solveIndex _ rfl).ok_of_exec
        relieved
    have counted := ih ended
    rw [grown, count_attempt answer] at counted
    omega
  | case1 => cases ended
  | case3 => cases ended
  | case4 => cases ended
  | case6 i e tried report answer short required asked before lengths _ _ refused =>
    cases h : refused.1 <;> simp [h, Except.map] at ended

/-! ## What a call does about growth -/

omit [IsStrictOrderedRing K] in
/-- The growth that is pending after factorizations. -/
def leaves (e : Engine K σ) (fs : List (FactorizeCall K)) : PendingGrowth :=
  match fs.getLast? with
  | none => e.pending
  | some f => f.growth e.options.compressionThreshold

omit [IsStrictOrderedRing K] in
/-- What is reported of that growth. -/
def notices (e : Engine K σ) (solveIndex : Nat) (fs : List (FactorizeCall K)) : List (Event K) :=
  match fs.getLast? with
  | none => []
  | some f => f.notices e.options.compressionThreshold e.solverId solveIndex (fs.length - 1)

/-- A call that started at `c` has made the factorizations `fs`, and `e'` is what it comes to. -/
structure Schedules (m : MatrixView K) (solveIndex : Nat) (c : Engine K (Recorded K σ))
    (fs : List (FactorizeCall K)) (e' : Engine K (Recorded K σ)) : Prop where
  tally : e'.tally = c.tally.ran solveIndex 0 fs
  pending : e'.pending = c.leaves fs
  schedule : e'.schedule = c.schedule ++ c.notices solveIndex fs
  /-- Nothing is pending while the factorizations are attempted. -/
  attempted : fs ≠ [] → ∃ e₁, e₁.pending = .none ∧ e₁.tally = c.tally ∧
    (attempts m solveIndex 0 e₁).2.pending = .none ∧
    (attempts m solveIndex 0 e₁).2.tally = c.tally.ran solveIndex 0 fs
  first : c.phase.Analysed → ∀ f ∈ fs.head?, ¬ c.Blocked ∧
    ∀ kind, f.workspace.lengthOf kind = c.dueLength kind
  held : c.phase.Analysed → fs = [] → Held c e'

variable {k : Kernel K σ} {m : MatrixView K} {solveIndex : Nat} {c e₁ : Engine K (Recorded K σ)}
variable {f : FactorizeCall K} {fs : List (FactorizeCall K)}

omit [IsStrictOrderedRing K] in
/-- Nothing was done about growth, or it could not be carried out. -/
theorem schedules_nil (postpones : Postpones c e') (held : c.phase.Analysed → Held c e') :
    Schedules m solveIndex c [] e' where
  tally := postpones.tally.trans (Tally.ran_nil ..).symm
  pending := postpones.pending
  schedule := postpones.schedule.trans (List.append_nil _).symm
  attempted other := absurd rfl other
  first _ := nofun
  held analysed _ := held analysed

omit [IsStrictOrderedRing K] in
theorem Schedules.stays (h : Schedules m solveIndex c fs e) (stays : Stays e e') :
    Schedules m solveIndex c fs e' where
  tally := stays.tally.trans h.tally
  pending := stays.pending.trans h.pending
  schedule := stays.schedule.trans h.schedule
  attempted := h.attempted
  first := h.first
  held analysed idle := (h.held analysed idle).trans stays.held

/-- The call has come to its factorization. -/
structure Fronts (c e : Engine K (Recorded K σ)) : Prop where
  postpones : Postpones c e
  stays : c.phase.Analysed → Stays c e

omit [IsStrictOrderedRing K] in
theorem Fronts.schedules (fronts : Fronts c e) (grown : Grown e e₁) {e₂ : Engine K (Recorded K σ)}
    {r : Except Fault (Option (FactorizationResult × Nat))}
    (ran : Ran solveIndex 0 e₁ f fs r e₂) (idle : e₂.pending = .none)
    (ended : attempts m solveIndex 0 e₁ = (r, e₂)) (tally : e'.tally = e₂.tally)
    (pending : e'.pending = c.leaves (f :: fs))
    (schedule : e'.schedule = c.schedule ++ c.notices solveIndex (f :: fs)) :
    Schedules m solveIndex c (f :: fs) e' := by
  have same : e₁.tally = c.tally := grown.tally.trans fronts.postpones.tally
  have counted : e₂.tally = c.tally.ran solveIndex 0 (f :: fs) := same ▸ ran.tally
  refine ⟨tally.trans counted, pending, schedule, fun _ => ⟨e₁, grown.pending, same, ?_, ?_⟩,
    fun analysed => ?_, fun _ => nofun⟩
  · rw [ended]
    exact idle
  · rw [ended]
    exact counted
  · rintro _ ⟨⟩
    have held := (fronts.stays analysed).held
    refine ⟨fun blocked => grown.free (held.blocked_iff.2 blocked), fun kind => ?_⟩
    rw [← ran.before.lengthOf kind, grown.lengths kind]
    exact dueLength_congr held.options held.pending ((fronts.stays analysed).lengths kind)

omit [IsStrictOrderedRing K] in
theorem Stops.failed {r : Except Fault (Option (FactorizationResult × Nat))} (h : Stops f e r)
    (unsuccessful : ∀ report i, r = .ok (some (report, i)) → report.verdict ≠ .success) :
    ∀ report, f.result = .ok report → report.verdict ≠ .success := by
  have short {report report' : FactorizationResult} {asked : WorkspaceKind × Requirement}
      (answer : f.result = .ok report) (short : shortage? report.verdict = some asked)
      (answer' : f.result = .ok report') : report'.verdict ≠ .success := by
    rw [answer] at answer'
    obtain rfl := Except.ok.inj answer'
    intro success
    rw [success] at short
    cases short
  intro report answer
  cases h with
  | fault failed => cases failed.symm.trans answer
  | settled answer' =>
    obtain rfl := Except.ok.inj (answer'.symm.trans answer)
    exact unsuccessful _ _ rfl
  | refused answer' asked => exact short answer' asked answer
  | exhausted answer' asked => exact short answer' asked answer

omit [IsStrictOrderedRing K] in
/-- Factorizations without success leave nothing pending, and nothing is reported. -/
theorem leaves_of_failure
    (failed : ∀ report, ((f :: fs).getLast (List.cons_ne_nil f fs)).result = .ok report →
      report.verdict ≠ .success) (c : Engine K (Recorded K σ)) (solveIndex : Nat) :
    c.leaves (f :: fs) = .none ∧ c.notices solveIndex (f :: fs) = [] := by
  have idle := FactorizeCall.growth_of_failure failed c.options.compressionThreshold
  simp only [leaves, notices, List.getLast?_eq_some_getLast (List.cons_ne_nil f fs)]
  refine ⟨idle, (FactorizeCall.notices_eq_nil_iff ..).2 fun kind => ?_⟩
  rw [idle, PendingGrowth.of_none]

omit [IsStrictOrderedRing K] in
/-- The attempt that ends the attempts with a report is the last one. -/
theorem Ran.count {report : FactorizationResult} {i : Nat}
    (ran : Ran solveIndex 0 e f fs (.ok (some (report, i))) e')
    (ended : attempts m solveIndex 0 e = (.ok (some (report, i)), e')) :
    i = (f :: fs).length - 1 := by
  have counted : e'.factorizationCount = e.factorizationCount + i + 1 := by
    have counted := count_attempts m solveIndex 0 e (congrArg Prod.fst ended)
    rwa [ended] at counted
  have listed : e'.factorizationCount = e.factorizationCount +
      ((f :: fs).zipIdx.filterMap fun g => g.1.record? e.tolerance solveIndex g.2).length :=
    congrArg Tally.count ran.tally
  have answered := answered_of_chain ran.chain fun g hg => by
    rw [List.getLast?_eq_some_getLast (List.cons_ne_nil f fs)] at hg
    obtain rfl := Option.some.inj hg
    cases ran.stops with
    | settled answer => exact ⟨report, answer⟩
  have all : ((f :: fs).zipIdx.filterMap fun g =>
      g.1.record? e.tolerance solveIndex g.2).length = (f :: fs).length := by
    rw [List.filterMap_length_eq_length.2, List.length_zipIdx]
    rintro ⟨g, j⟩ hg
    obtain ⟨answer, ha⟩ := answered g (List.fst_mem_of_mem_zipIdx hg)
    simp [FactorizeCall.record?, ha, Except.toOption]
  rw [all] at listed
  omega

omit [IsStrictOrderedRing K] in
/-- The attempts leave growth and its reports alone. -/
theorem idle_attempts (m : MatrixView K) (solveIndex : Nat) (e : Engine K (Recorded K σ)) :
    (attempts m solveIndex 0 e).2.pending = e.pending ∧
      (attempts m solveIndex 0 e).2.schedule = e.schedule := by
  let Same (e' : Engine K (Recorded K σ)) : Prop := e'.pending = e.pending ∧ e'.schedule = e.schedule
  have unmoved : Unmoved (fun code _ => code ≠ growthScheduled.code) Same :=
    ⟨fun _ _ _ h => h, fun {e'} _ other h => ⟨h.1, (schedule_concat other e').trans h.2⟩⟩
  have unsized : Unsized Same := ⟨fun _ h => h⟩
  refine unsized.attempts unmoved (fun _ => by decide) (fun _ => by decide) (fun e' i h => ?_) 0
    ⟨rfl, rfl⟩
  refine ⟨Eq.trans ?_ h.1, Eq.trans (congrArg (List.filter _) (diagnostics_attempt ..)) h.2⟩
  unfold attempt
  split
  · rfl
  · dsimp only
    split <;> rfl

omit [IsStrictOrderedRing K] in
/-- A success leaves pending what its report asks for. -/
theorem leaves_of_success {report : FactorizationResult} {i : Nat}
    (ran : Ran solveIndex 0 e f fs (.ok (some (report, i))) e')
    (ended : attempts m solveIndex 0 e = (.ok (some (report, i)), e'))
    (success : report.verdict = .success)
    (counted : e'.tally = c.tally.ran solveIndex 0 (f :: fs)) :
    let pending := report.growth e'.options.compressionThreshold
    pending = c.leaves (f :: fs) ∧ c.notices solveIndex (f :: fs) =
      if pending.any then
        [.ofEntry growthScheduled (scheduleReport e'.solverId solveIndex i report pending)]
      else [] := by
  have options : e'.options = c.options := congrArg Tally.options counted
  have solver : e'.solverId = c.solverId := congrArg Tally.solverId counted
  have answer : ((f :: fs).getLast (List.cons_ne_nil f fs)).result = .ok report := by
    cases ran.stops with
    | settled answer => exact answer
  have asked (threshold : Int) :
      ((f :: fs).getLast (List.cons_ne_nil f fs)).growth threshold = report.growth threshold := by
    simp only [FactorizeCall.growth, answer, success, if_true]
  intro pending
  simp only [leaves, notices, List.getLast?_eq_some_getLast (List.cons_ne_nil f fs), asked,
    FactorizeCall.notices, answer, ← ran.count ended, pending, options, solver, and_self]

/-- **What a factorization does about growth.** -/
theorem schedules_factorize (recorded : c.session.kernel = k.recorded) (named : c.solverId ≠ "")
    (fronts : Fronts c e) :
    Ends (factorize m solveIndex) e (fun _ e' => ∃ fs, Schedules m solveIndex c fs e')
      (fun fault e' => fault = .view .shortOutput ∨ ∃ fs, Schedules m solveIndex c fs e') := by
  have same := fronts.postpones
  have named : e.solverId ≠ "" := ne_of_eq_of_ne (congrArg Tally.solverId same.tally) named
  have recorded : e.session.kernel = k.recorded := (congrArg Tally.kernel same.tally).trans recorded
  unfold factorize
  refine (ends_applyPendingGrowth e named solveIndex).bind ?_ ?_
  · rintro - e₁ grown
    have named : e₁.solverId ≠ "" := ne_of_eq_of_ne (congrArg Tally.solverId grown.tally) named
    have recorded : e₁.session.kernel = k.recorded :=
      (congrArg Tally.kernel grown.tally).trans recorded
    have run : exec (ExceptT.mk (attempts m solveIndex 0)) e₁ = attempts m solveIndex 0 e₁ := rfl
    rcases Nat.lt_or_ge e₁.workspace.reals.length m.values.length with short | fits
    · rw [Ends, exec_bind, run, attempts_of_lt short solveIndex 0]
      exact .inl rfl
    obtain ⟨f, fs, ran⟩ := ran_attempts m solveIndex 0 e₁ recorded named fits
    obtain ⟨pending, schedule⟩ := idle_attempts m solveIndex e₁
    rw [grown.pending] at pending
    rw [grown.schedule, same.schedule] at schedule
    generalize ended : attempts m solveIndex 0 e₁ = answer at run ran pending schedule
    rcases answer with ⟨fault | _ | ⟨report, i⟩, e₂⟩ <;> dsimp only at ran pending schedule
    · rw [Ends, exec_bind, run]
      obtain ⟨left, unreported⟩ := leaves_of_failure
        (ran.stops.failed fun _ _ settled => by cases settled) c solveIndex
      refine .inr ⟨f :: fs, fronts.schedules grown ran pending ended rfl (left ▸ pending) ?_⟩
      rw [unreported, List.append_nil]
      exact schedule
    · rw [ends_bind_of_ok run]
      obtain ⟨left, unreported⟩ := leaves_of_failure
        (ran.stops.failed fun _ _ settled => by cases settled) c solveIndex
      refine ⟨f :: fs, fronts.schedules grown ran pending ended rfl (left ▸ pending) ?_⟩
      rw [unreported, List.append_nil]
      exact schedule
    · rw [ends_bind_of_ok run]
      have counted : e₂.tally = c.tally.ran solveIndex 0 (f :: fs) :=
        (grown.tally.trans same.tally) ▸ ran.tally
      have named : e₂.solverId ≠ "" := ne_of_eq_of_ne (congrArg Tally.solverId ran.tally) named
      have quiet := quiet_conclude (t := e₂.tally) report solveIndex i e₂ rfl
      by_cases success : report.verdict = .success
      · have concluded := exec_conclude_of_success named pending success solveIndex i
        obtain ⟨left, reported⟩ := leaves_of_success ran ended success counted
        refine (ends_of_ok concluded).2 ⟨f :: fs, fronts.schedules grown ran pending ended
          (quiet.ok_of_exec concluded) left ?_⟩
        rw [reported, ← schedule]
        exact schedule_afterSuccess ..
      · obtain ⟨left, unreported⟩ := leaves_of_failure
          (ran.stops.failed fun _ _ settled => by cases settled; exact success) c solveIndex
        have postpones := (unmoved_postpones e₂).conclude_of_failure (i := i)
          ⟨.inl (by decide), by decide⟩ ⟨.inl (by decide), by decide⟩ success solveIndex e₂ (.refl e₂)
        have failed {e' : Engine K (Recorded K σ)} (h : Postpones e₂ e') :
            ∃ fs, Schedules m solveIndex c fs e' := by
          refine ⟨f :: fs, fronts.schedules grown ran pending ended h.tally
            (h.pending.trans (left ▸ pending)) ?_⟩
          rw [unreported, List.append_nil]
          exact h.schedule.trans schedule
        exact postpones.mono (fun _ _ => failed) fun _ _ h => .inr (failed h)
  · rintro fault e' ⟨tally, schedule, held⟩
    refine .inr ⟨[], schedules_nil ?_ fun analysed => (fronts.stays analysed).held.trans held⟩
    exact same.trans ⟨tally, held.pending, schedule⟩

end Due

end Engine

end SymSolve
