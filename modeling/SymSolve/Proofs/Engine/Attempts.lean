import Mathlib.Data.List.Chain
import SymSolve.Proofs.Engine.Tally
import SymSolve.Proofs.Exact

/-!
# Attempts at a factorization

A kernel may find one of the two workspaces too short. Then both grow, and the factorization is
tried again.

**Theorem (`ran_attempts`).** Whatever the kernel answers, the calls that the attempts make form a
chain in which each call relieves the one before it of a shortage (`Relieves`). What the engine
counts of them is a function of the chain (`Tally.ran`), and there are four ways in which they can
stop (`Stops`).

Lengths are exact: no product is rounded.
-/

namespace SymSolve

/-! ## Calls and what is listed of them -/

namespace FactorizeCall

variable {α : Type}

/-- The work buffers that the kernel was given. -/
def workspace (f : FactorizeCall α) : Workspace α := ⟨⟨f.iw⟩, ⟨f.a⟩, ⟨f.keep⟩⟩

/-- What the answer says; an answer that cannot be read is an error. -/
def verdict (f : FactorizeCall α) : Verdict :=
  match f.result with
  | .ok report => report.verdict
  | .error _ => .error

/-- The record of the call as an attempt. An answer that cannot be read is not recorded. -/
def record? (f : FactorizeCall α) (tolerance : α) (solveIndex attemptIndex : Nat) :
    Option (AttemptRecord α) :=
  f.result.toOption.map fun report => {
    solveIndex
    attemptIndex
    status := report.verdict.name
    integerLength := f.iw.size
    realLength := f.a.size
    required := report.verdict.required?.map Int.ofNat
    negative := if report.verdict = .success then some report.negative else none
    realCompressions := report.realCompressions
    integerCompressions := report.integerCompressions
    tolerance }

end FactorizeCall

/-- The entry of the catalog for workspaces that were made longer. -/
def reallocated : CatalogEntry where
  code := "W_LIN_WORKSPACE_REALLOCATED"
  severity := .warning
  stage := .factorize
  action := "raise the workspace init factors if reallocations repeat"

/-- The report that workspaces were made longer, from the lengths `w` to the lengths `w'`, after
an attempt with some verdict. -/
def retryReport {α : Type} (solverId : String) (solveIndex attemptIndex : Nat) (verdict : Verdict)
    (w w' : Workspace α) : Report α where
  message := "kernel reported " ++ verdict.name ++
    "; integer workspace " ++ toString w.integers.length ++ " -> " ++
      toString w'.integers.length ++
    ", real workspace " ++ toString w.reals.length ++ " -> " ++ toString w'.reals.length
  solverId
  solveIndex := some solveIndex
  attemptIndex := some attemptIndex
  witness := .object [
    ("integer_workspace_len", .list [.int w.integers.length, .int w'.integers.length]),
    ("real_workspace_len", .list [.int w.reals.length, .int w'.reals.length]),
    ("required_len", .int (verdict.required?.getD 0))]

/-- The report of the retry that follows the call `f` and leads to the call `f'`. -/
def FactorizeCall.retry {α : Type} (f f' : FactorizeCall α) (solverId : String)
    (solveIndex attemptIndex : Nat) : Event α :=
  .ofEntry reallocated
    (retryReport solverId solveIndex attemptIndex f.verdict f.workspace f'.workspace)

section Tally

variable {α σ : Type} [Scalar α]

/-- The tally after factorizations, the first of which is the attempt `i`. -/
def Tally.ran (t : Tally α σ) (solveIndex i : Nat) (fs : List (FactorizeCall α)) : Tally α σ :=
  let records := (fs.zipIdx i).filterMap fun (f, i) => f.record? t.tolerance solveIndex i
  let retries := ((fs.zip fs.tail).zipIdx i).map fun ((f, f'), i) =>
    f.retry f' t.solverId solveIndex i
  { t with
    factorizations := t.factorizations ++ fs
    trace := t.trace ++ records
    count := t.count + records.length
    retries := t.retries ++ retries }

@[simp] theorem Tally.ran_nil (t : Tally α σ) (solveIndex i : Nat) : t.ran solveIndex i [] = t := by
  simp [ran]

theorem Tally.ran_cons (t : Tally α σ) (solveIndex i : Nat) (f f' : FactorizeCall α)
    (fs : List (FactorizeCall α)) :
    let t' := t.ran solveIndex i [f]
    t.ran solveIndex i (f :: f' :: fs) =
      { t' with retries := t'.retries ++ [f.retry f' t.solverId solveIndex i] }.ran solveIndex
        (i + 1) (f' :: fs) := by
  cases hr : f.record? t.tolerance solveIndex i with
  | none => simp [ran, List.zipIdx_cons, hr]
  | some record => simp [ran, List.zipIdx_cons, hr, Nat.add_assoc, Nat.add_comm 1]

end Tally

/-! ## The lengths after a shortage -/

section Lengths

variable {K : Type} [Field K] [LinearOrder K] [IsStrictOrderedRing K] [FloorRing K]

omit [IsStrictOrderedRing K] in
/-- What the options allow as a growth factor makes lengths longer. -/
theorem Options.one_lt_growthFactor (o : Options K) : 1 < o.growthFactor := by
  have valid := o.valid
  unfold Settings.fault? at valid
  by_contra small
  have : Scalar.lt 1 o.growthFactor = false := decide_eq_false small
  simp only [this, Bool.not_false, if_true] at valid
  split_ifs at valid

/-- The length of a workspace after a shortage: the short one grows from the length asked for, the
other one from its own. -/
def Workspace.relieved (w : Workspace K) (factor : K) (short : WorkspaceKind) (required : Nat)
    (kind : WorkspaceKind) : Nat :=
  let base := if kind = short then required else w.lengthOf kind
  max (w.lengthOf kind) ⌊factor * base⌋₊

theorem grownLength_exact {factor : K} (hf : 0 ≤ factor) (current base : Nat) :
    grownLength current base factor = .ok (max current ⌊factor * base⌋₊ : Nat) := by
  have hn : (0 : K) ≤ factor * base := mul_nonneg hf (Nat.cast_nonneg base)
  rw [grownLength, scaledLength_exact hf (Int.natCast_nonneg base)]
  simp only [Int.cast_natCast, Except.map, Nat.cast_max, Int.natCast_floor_eq_floor hn]

theorem Workspace.relief_exact (w : Workspace K) {factor : K} (hf : 0 ≤ factor)
    (short : WorkspaceKind) (required : Requirement) :
    w.relief factor short required =
      .ok (w.relieved factor short required.length .integer,
        w.relieved factor short required.length .real) := by
  simp only [relief, grownLength_exact hf, relieved, bind, Except.bind, pure, Except.pure,
    Int.toNat_natCast]

/-- What was asked for is there afterwards. -/
theorem Workspace.le_relieved (w : Workspace K) {factor : K} (hf : 1 < factor)
    (short : WorkspaceKind) (required : Nat) : required ≤ w.relieved factor short required short := by
  refine Nat.le_trans (Nat.le_floor ?_) (Nat.le_max_right _ _)
  rw [if_pos rfl]
  exact le_mul_of_one_le_left (Nat.cast_nonneg required) hf.le

theorem Workspace.sufficient_relieved (w : Workspace K) {factor : K} (hf : 1 < factor)
    (short : WorkspaceKind) (required : Requirement) :
    sufficient short required (w.relieved factor short required.length .integer,
        w.relieved factor short required.length .real) =
      (w.relieved factor short required.length .integer,
        w.relieved factor short required.length .real) := by
  have enough := w.le_relieved hf short required.length
  cases short <;> simp only [sufficient, max_eq_right enough]

omit [IsStrictOrderedRing K] in
theorem Workspace.lengthOf_grow_relieved (w : Workspace K) (factor : K) (short : WorkspaceKind)
    (required : Nat) (kind : WorkspaceKind) :
    (w.grow (w.relieved factor short required .integer)
      (w.relieved factor short required .real)).lengthOf kind =
        w.relieved factor short required kind := by
  cases kind <;> simp only [grow, lengthOf, Buffer.length_grow, relieved] <;> omega

/-- The call `f` found a workspace too short and asked for more than there was. The call `f'` gets
what was asked for, in lengths that come from the growth factor, and the index array as `f` left
it. -/
structure Relieves (factor : K) (f f' : FactorizeCall K) : Prop where
  lengths : ∃ short required, Engine.shortage? f.verdict = some (short, required) ∧
    f.workspace.lengthOf short < required.length ∧
    required.length ≤ f'.workspace.lengthOf short ∧
    ∀ kind, f'.workspace.lengthOf kind = f.workspace.relieved factor short required.length kind
  keep : f'.keep = f.keepAfter

end Lengths

/-! ## One attempt -/

namespace Engine

section Attempt

variable {α σ : Type} [Scalar α] {k : Kernel α σ} {m : MatrixView α}
variable {e e' : Engine α (Recorded α σ)}

/-- The work buffers have these lengths, and the index array has these words. -/
structure Buffers (e : Engine α (Recorded α σ)) (integers reals : Nat) (keep : Array Int) :
    Prop where
  integers : e.workspace.integers.length = integers
  reals : e.workspace.reals.length = reals
  keep : e.workspace.keep.words = keep

/-- The factorization `f` is called at `e`, and the engine is `e'` after it. -/
structure Tries (e : Engine α (Recorded α σ)) (f : FactorizeCall α) (solveIndex i : Nat)
    (e' : Engine α (Recorded α σ)) : Prop where
  before : e.Buffers f.iw.size f.a.size f.keep
  after : e'.Buffers f.iw.size f.a.size f.keepAfter
  tally : e'.tally = e.tally.ran solveIndex i [f]

omit [Scalar α] in
theorem result_of_tried {f : FactorizeCall α} {tried : Except Fault FactorizationResult}
    {report : FactorizationResult} (answered : tried = f.result.mapError .kernel)
    (answer : tried = .ok report) : f.result = .ok report := by
  subst answered
  cases h : f.result with
  | error cause =>
    rw [h] at answer
    cases answer
  | ok report' =>
    rw [h] at answer
    exact congrArg _ (Except.ok.inj answer)

theorem exists_afterFactorization (recorded : e.session.kernel = k.recorded)
    (fits : m.values.length ≤ e.workspace.reals.length) :
    ∃ f : FactorizeCall α, e.Buffers f.iw.size f.a.size f.keep ∧
      (e.afterFactorization m).Buffers f.iw.size f.a.size f.keepAfter ∧
      (e.session.factorize e.pattern (overwriteFront m.values.toArray e.workspace.reals.words)
        e.workspace.integers.words e.workspace.keep.words).result = f.result ∧
      (e.afterFactorization m).tally =
        { e.tally with factorizations := e.tally.factorizations ++ [f] } := by
  have front : (overwriteFront m.values.toArray e.workspace.reals.words).size =
      e.workspace.reals.words.size := length_of_fill (MatrixView.fill_of_le fits)
  obtain ⟨answer, read, record⟩ := Session.record_factorize recorded e.pattern
    (overwriteFront m.values.toArray e.workspace.reals.words) e.workspace.integers.words
    e.workspace.keep.words
  let f : FactorizeCall α := {
    pattern := e.pattern
    a := overwriteFront m.values.toArray e.workspace.reals.words
    iw := e.workspace.integers.words
    keep := e.workspace.keep.words
    controls := e.session.controls
    aAfter := (e.afterFactorization m).workspace.reals.words
    iwAfter := (e.afterFactorization m).workspace.integers.words
    keepAfter := (e.afterFactorization m).workspace.keep.words
    answer }
  refine ⟨f, ⟨rfl, front.symm, rfl⟩, ⟨?_, ?_, rfl⟩, read, ?_⟩
  · exact Session.size_factorize_iw ..
  · exact Session.size_factorize_a ..
  · simp only [tally, afterFactorization, record, List.filterMap_append]
    rfl

theorem attempt_tries (recorded : e.session.kernel = k.recorded)
    (fits : m.values.length ≤ e.workspace.reals.length) (solveIndex i : Nat) :
    ∃ f, e.Tries f solveIndex i (attempt m solveIndex i e).2 ∧
      (attempt m solveIndex i e).1 = f.result.mapError .kernel := by
  obtain ⟨f, before, after, answered, counted⟩ := exists_afterFactorization recorded fits
  rw [attempt_eq fits, answered]
  cases answer : f.result with
  | error cause =>
    refine ⟨f, ⟨before, after, ?_⟩, by rw [answer]; rfl⟩
    simp [counted, Tally.ran, FactorizeCall.record?, answer, Except.toOption]
  | ok report =>
    refine ⟨f, ⟨before, ⟨after.integers, after.reals, after.keep⟩, ?_⟩, by rw [answer]; rfl⟩
    have listed : (recordAttempt report solveIndex i (e.afterFactorization m)).tally =
        let t := (e.afterFactorization m).tally
        { t with
          trace := t.trace ++ (f.record? e.tolerance solveIndex i).toList
          count := t.count + 1 } := by
      rw [FactorizeCall.record?, answer, ← after.integers, ← after.reals]
      rfl
    have recorded : (f.record? e.tolerance solveIndex i).isSome := by
      rw [FactorizeCall.record?, answer]
      rfl
    obtain ⟨record, hr⟩ := Option.isSome_iff_exists.1 recorded
    have same : e.tally.tolerance = e.tolerance := rfl
    simp [listed, counted, Tally.ran, same, hr]

/-! ## Growth between two attempts -/

omit [Scalar α] in
theorem refusal_of_ensure [OfNat α 0] {memory : Memory} {b : Buffer α} {n : Nat}
    {cause : Buffer.LengthError} (h : b.ensure memory n = .error cause) :
    ∃ why, memory.refusal? n = some why ∧ cause = .refused why := by
  unfold Buffer.ensure at h
  rw [if_neg (by omega)] at h
  split at h
  · cases h
  · rw [Int.toNat_natCast] at h
    cases refused : memory.refusal? n with
    | none => simp [refused] at h
    | some why => exact ⟨why, rfl, by simpa [refused] using h.symm⟩

omit [Scalar α] in
/-- The evidence of a retry, in its JSON form. -/
theorem normalize_lengths (w w' : Workspace α) (required : Int) :
    (Payload.ofFields ([("integer_workspace_len", change w.integers.length w'.integers.length),
        ("real_workspace_len", change w.reals.length w'.reals.length)] ++
        [("required_len", .int required)]) : Payload α).normalize =
      .ok (.object [
        ("integer_workspace_len", .list [.int w.integers.length, .int w'.integers.length]),
        ("real_workspace_len", .list [.int w.reals.length, .int w'.reals.length]),
        ("required_len", .int required)]) :=
  Payload.normalize_ofFields_sorted (by simp) rfl

theorem exec_emitReallocated (named : e.solverId ≠ "") {verdict : Verdict}
    {required : Requirement} (asked : verdict.required? = some required.length)
    (solveIndex i : Nat) (w w' : Workspace α) :
    exec (emitReallocated ("kernel reported " ++ verdict.name) solveIndex (some i) w w'
        [("required_len", .int required.length)]) e =
      (.ok (), { e with diagnostics := e.diagnostics ++
        [.ofEntry reallocated (retryReport e.solverId solveIndex i verdict w w')] }) := by
  have evidence := normalize_lengths w w' required.length
  unfold emitReallocated retryReport
  rw [asked]
  exact exec_emit reallocated (by decide +kernel) (by decide) (by decide) (by simp) named
    (fun _ => rfl) evidence

omit [Scalar α] in
theorem lengths_of_kinds {w w' : Workspace α} (h : ∀ kind, w.lengthOf kind = w'.lengthOf kind) :
    w.integers.length = w'.integers.length ∧ w.reals.length = w'.reals.length :=
  ⟨h .integer, h .real⟩

omit [Scalar α] in
theorem retryReport_congr {w₁ w₁' w₂ w₂' : Workspace α}
    (h : ∀ kind, w₁.lengthOf kind = w₂.lengthOf kind)
    (h' : ∀ kind, w₁'.lengthOf kind = w₂'.lengthOf kind)
    (solverId : String) (solveIndex i : Nat) (verdict : Verdict) :
    retryReport solverId solveIndex i verdict w₁ w₁' =
      retryReport solverId solveIndex i verdict w₂ w₂' := by
  obtain ⟨integers, reals⟩ := lengths_of_kinds h
  obtain ⟨integers', reals'⟩ := lengths_of_kinds h'
  unfold retryReport
  rw [integers, reals, integers', reals']

omit [Scalar α] in
theorem required?_of_shortage? {verdict : Verdict} {short : WorkspaceKind} {required : Requirement}
    (h : shortage? verdict = some (short, required)) : verdict.required? = some required.length := by
  cases verdict <;> simp_all [shortage?, Verdict.required?]

/-- The engine after growth between two attempts. -/
def afterRelief (verdict : Verdict) (lengths : Nat × Nat) (solveIndex i : Nat)
    (e : Engine α (Recorded α σ)) : Engine α (Recorded α σ) :=
  let workspace := e.workspace.grow lengths.1 lengths.2
  { e with
    workspace
    diagnostics := e.diagnostics ++
      [.ofEntry reallocated (retryReport e.solverId solveIndex i verdict e.workspace workspace)] }

theorem tally_afterRelief (verdict : Verdict) (lengths : Nat × Nat) (solveIndex i : Nat)
    (e : Engine α (Recorded α σ)) :
    (e.afterRelief verdict lengths solveIndex i).tally = { e.tally with
      retries := e.tally.retries ++ [.ofEntry reallocated (retryReport e.solverId solveIndex i verdict
        e.workspace (e.afterRelief verdict lengths solveIndex i).workspace)] } := by
  simp only [tally, afterRelief, List.filter_append]
  rfl

theorem ends_relieve (named : e.solverId ≠ "") {result : FactorizationResult}
    {short : WorkspaceKind} {required : Requirement}
    (asked : shortage? result.verdict = some (short, required)) (lengths : Nat × Nat)
    (solveIndex i : Nat) :
    Ends (relieve result required lengths solveIndex i) e
      (fun _ e' => e' = e.afterRelief result.verdict lengths solveIndex i)
      (fun fault e' => e'.tally = e.tally ∧
        ∃ n why, e'.memory.refusal? n = some why ∧ fault = .length (.refused why)) := by
  unfold relieve
  rw [ends_get]
  refine ends_ensureIntegers ?_ fun cause failed => ?_
  · refine ends_ensureReals ?_ fun cause failed => ?_
    · rw [ends_get]
      let grown : Engine α (Recorded α σ) :=
        { e with workspace := e.workspace.grow lengths.1 lengths.2 }
      have reported := exec_emitReallocated (e := grown) named (required?_of_shortage? asked)
        solveIndex i e.workspace grown.workspace
      exact (ends_of_ok reported).2 rfl
    · obtain ⟨why, refused, rfl⟩ := refusal_of_ensure failed
      exact ⟨rfl, _, why, refused, rfl⟩
  · obtain ⟨why, refused, rfl⟩ := refusal_of_ensure failed
    exact ⟨rfl, _, why, refused, rfl⟩

/-- A shortage that asks for no more than there is changes the phase, and is reported. -/
theorem exec_refuseShortage (named : e.solverId ≠ "") (report : FactorizationResult)
    (short : WorkspaceKind) (required : Requirement) (solveIndex i : Nat) :
    ∃ event, exec (refuseShortage report short required solveIndex i) e =
      (.ok (), { e with
        phase := .factorizationStale, diagnostics := e.diagnostics ++ [event] }) := by
  let stale : Engine α (Recorded α σ) := { e with phase := .factorizationStale }
  unfold refuseShortage
  rw [exec_bind, exec_get]
  dsimp only
  rw [exec_bind, exec_set]
  exact exec_emit_listed (e := stale) (by decide +kernel) (by simp) named (fun _ => rfl)
    (by simp [Payload.normalize])

theorem quiet_refuseShortage (t : Tally α σ) (report : FactorizationResult) (short : WorkspaceKind)
    (required : Requirement) (solveIndex i : Nat) :
    Quiet t (refuseShortage report short required solveIndex i) :=
  (unmoved_tally t).refuseShortage (.inl (by decide)) report short required solveIndex

theorem Buffers.lengthOf {f : FactorizeCall α} {keep : Array Int}
    (h : e.Buffers f.iw.size f.a.size keep) (kind : WorkspaceKind) :
    e.workspace.lengthOf kind = f.workspace.lengthOf kind := by
  cases kind with
  | integer => exact h.integers
  | real => exact h.reals

end Attempt

/-! ## The attempts -/

section Attempts

variable {K σ : Type} [Field K] [LinearOrder K] [IsStrictOrderedRing K] [FloorRing K]
variable {k : Kernel K σ} {m : MatrixView K} {e e' e₁ : Engine K (Recorded K σ)}

/-- The attempts have ended like that with the call `f`, and have left the engine `e'`. -/
inductive Stops (f : FactorizeCall K) (e' : Engine K (Recorded K σ)) :
    Except Fault (Option (FactorizationResult × Nat)) → Prop
  /-- The kernel broke down, or broke its contract. -/
  | fault {cause : KernelFault} (answer : f.result = .error cause) :
    Stops f e' (.error (.kernel cause))
  /-- The answer is not a shortage. -/
  | settled {report : FactorizationResult} {i : Nat} (answer : f.result = .ok report)
    (enough : shortage? report.verdict = none) : Stops f e' (.ok (some (report, i)))
  /-- A shortage asked for no more than there was; nothing has grown. -/
  | refused {report : FactorizationResult} {short : WorkspaceKind} {required : Requirement}
    (answer : f.result = .ok report) (asked : shortage? report.verdict = some (short, required))
    (present : required.length ≤ f.workspace.lengthOf short) (phase : e'.phase = .factorizationStale)
    (buffers : e'.Buffers f.iw.size f.a.size f.keepAfter) : Stops f e' (.ok none)
  /-- The memory has no room for what was asked for. -/
  | exhausted {report : FactorizationResult} {short : WorkspaceKind} {required : Requirement}
    {n : Nat} {why : LengthRefusal} (answer : f.result = .ok report)
    (asked : shortage? report.verdict = some (short, required))
    (missing : f.workspace.lengthOf short < required.length)
    (refused : e'.memory.refusal? n = some why) : Stops f e' (.error (.length (.refused why)))

/-- From the attempt `i` on, the calls `f :: fs` are made, and they end with `r` and `e'`. -/
structure Ran (solveIndex i : Nat) (e : Engine K (Recorded K σ)) (f : FactorizeCall K)
    (fs : List (FactorizeCall K)) (r : Except Fault (Option (FactorizationResult × Nat)))
    (e' : Engine K (Recorded K σ)) : Prop where
  before : e.Buffers f.iw.size f.a.size f.keep
  tally : e'.tally = e.tally.ran solveIndex i (f :: fs)
  chain : (f :: fs).IsChain (Relieves e.options.growthFactor)
  stops : Stops ((f :: fs).getLast (List.cons_ne_nil f fs)) e' r

omit [IsStrictOrderedRing K] in
theorem Buffers.relieved {f : FactorizeCall K} {keep : Array Int}
    (h : e.Buffers f.iw.size f.a.size keep) (factor : K) (short : WorkspaceKind) (required : Nat)
    (kind : WorkspaceKind) :
    e.workspace.relieved factor short required kind =
      f.workspace.relieved factor short required kind := by
  simp only [Workspace.relieved, h.lengthOf]

omit [IsStrictOrderedRing K] in
/-- The engine that has made the workspaces longer after the call `f` is ready for the next one. -/
theorem Ran.cons {solveIndex i : Nat} {f f' : FactorizeCall K} {fs : List (FactorizeCall K)}
    {r : Except Fault (Option (FactorizationResult × Nat))} {e₁ e₂ : Engine K (Recorded K σ)}
    (tries : e.Tries f solveIndex i e₁) (relieves : Relieves e.options.growthFactor f f')
    (reported : e₂.tally = { e₁.tally with
      retries := e₁.tally.retries ++ [f.retry f' e.solverId solveIndex i] })
    (rest : Ran solveIndex (i + 1) e₂ f' fs r e') : Ran solveIndex i e f (f' :: fs) r e' where
  before := tries.before
  tally := by
    rw [rest.tally, reported, tries.tally]
    exact (Tally.ran_cons ..).symm
  chain := by
    have same : e₂.options = e.options := by
      have := congrArg Tally.options reported
      rwa [tries.tally] at this
    exact .cons_cons relieves (same ▸ rest.chain)
  stops := by
    rw [List.getLast_cons]
    exact rest.stops

theorem Tries.relief {f : FactorizeCall K} {solveIndex i : Nat} (h : e.Tries f solveIndex i e')
    (short : WorkspaceKind) (required : Requirement) :
    e'.workspace.relief e'.options.growthFactor short required =
      .ok (f.workspace.relieved e.options.growthFactor short required.length .integer,
        f.workspace.relieved e.options.growthFactor short required.length .real) := by
  have same : e'.options = e.options := congrArg Tally.options h.tally
  have longer := e.options.one_lt_growthFactor
  rw [same, Workspace.relief_exact _ (zero_le_one.trans longer.le), h.after.relieved,
    h.after.relieved]

/-- The growth after the attempt `f` makes everything ready for the next one, and reports it. -/
theorem Tries.relieve {f f' : FactorizeCall K} {solveIndex i : Nat} {report : FactorizationResult}
    {short : WorkspaceKind} {required : Requirement} {e₁ : Engine K (Recorded K σ)}
    (tries : e.Tries f solveIndex i e₁) (answer : f.result = .ok report)
    (asked : shortage? report.verdict = some (short, required))
    (missing : f.workspace.lengthOf short < required.length)
    (grown : e' = e₁.afterRelief report.verdict
      (f.workspace.relieved e.options.growthFactor short required.length .integer,
        f.workspace.relieved e.options.growthFactor short required.length .real) solveIndex i)
    (next : e'.Buffers f'.iw.size f'.a.size f'.keep) :
    Relieves e.options.growthFactor f f' ∧ e'.tally = { e₁.tally with
      retries := e₁.tally.retries ++ [f.retry f' e.solverId solveIndex i] } := by
  subst grown
  have said : f.verdict = report.verdict := by rw [FactorizeCall.verdict, answer]
  have named : e₁.solverId = e.solverId := congrArg Tally.solverId tries.tally
  have lengths (kind : WorkspaceKind) : f'.workspace.lengthOf kind =
      f.workspace.relieved e.options.growthFactor short required.length kind := by
    rw [← next.lengthOf, ← tries.after.relieved]
    simp only [← tries.after.relieved, afterRelief]
    exact Workspace.lengthOf_grow_relieved ..
  have kept : f'.keep = f.keepAfter := by
    rw [← next.keep, ← tries.after.keep]
    rfl
  refine ⟨⟨⟨short, required, said ▸ asked, missing, ?_, lengths⟩, kept⟩, ?_⟩
  · rw [lengths]
    exact f.workspace.le_relieved e.options.one_lt_growthFactor short required.length
  · rw [tally_afterRelief, FactorizeCall.retry, said, named,
      retryReport_congr tries.after.lengthOf next.lengthOf]

theorem ran_attempts (m : MatrixView K) (solveIndex i : Nat) (e : Engine K (Recorded K σ))
    (recorded : e.session.kernel = k.recorded) (named : e.solverId ≠ "")
    (fits : m.values.length ≤ e.workspace.reals.length) :
    ∃ f fs, Ran solveIndex i e f fs (attempts m solveIndex i e).1 (attempts m solveIndex i e).2 := by
  obtain ⟨f, tries, answered⟩ := attempt_tries recorded fits solveIndex i
  fun_induction attempts m solveIndex i e generalizing f with
  | case1 i e tried fault failed =>
    refine ⟨f, [], tries.before, tries.tally, .singleton f, ?_⟩
    cases answer : f.result with
    | error cause =>
      rw [answer] at answered
      obtain rfl : fault = .kernel cause := Except.error.inj (failed.symm.trans answered)
      exact .fault answer
    | ok report =>
      rw [answer] at answered
      cases failed.symm.trans answered
  | case2 i e tried report answer enough =>
    exact ⟨f, [], tries.before, tries.tally, .singleton f,
      .settled (result_of_tried answered answer) enough⟩
  | case3 i e tried report answer short required asked before cause unbounded =>
    cases unbounded.symm.trans (tries.relief short required)
  | case4 i e tried report answer short required asked before lengths _ missing enough fault after
      relieved =>
    have same : tried.2.solverId = e.solverId := congrArg Tally.solverId tries.tally
    obtain ⟨quiet, n, why, refused, rfl⟩ := (ends_relieve (same ▸ named) asked ..).bad_of_exec relieved
    refine ⟨f, [], tries.before, quiet.trans tries.tally, .singleton f, ?_⟩
    exact .exhausted (result_of_tried answered answer) asked
      (tries.after.lengthOf short ▸ missing) refused
  | case5 i e tried report answer short required asked before lengths grown missing enough after
      relieved ih =>
    have same : tried.2.solverId = e.solverId := congrArg Tally.solverId tries.tally
    obtain rfl : lengths = _ := Except.ok.inj (grown.symm.trans (tries.relief short required))
    have next : after = _ := (ends_relieve (same ▸ named) asked ..).ok_of_exec relieved
    simp only [enough, f.workspace.sufficient_relieved e.options.one_lt_growthFactor] at next
    have longer : tried.2.workspace.reals.length ≤ after.workspace.reals.length := by
      subst next
      simp only [afterRelief, Workspace.grow, Buffer.length_grow]
      exact Nat.le_max_left ..
    have fits' : m.values.length ≤ after.workspace.reals.length := by
      refine Nat.le_trans fits (Nat.le_trans (Nat.le_of_eq ?_) longer)
      exact tries.before.reals.trans tries.after.reals.symm
    have kernel : after.session.kernel = e.session.kernel := by
      subst next
      exact congrArg Tally.kernel tries.tally
    have named' : after.solverId = e.solverId := by
      subst next
      exact same
    obtain ⟨g, tries', answered'⟩ :=
      attempt_tries (kernel.trans recorded) fits' solveIndex (i + 1)
    obtain ⟨f', fs, ran⟩ := ih (kernel.trans recorded) (named' ▸ named) fits' g tries' answered'
    obtain ⟨relieves, reported⟩ := tries.relieve (result_of_tried answered answer) asked
      (tries.after.lengthOf short ▸ missing) next ran.before
    exact ⟨f, f' :: fs, ran.cons tries relieves reported⟩
  | case6 i e tried report answer short required asked before lengths _ present refused =>
    have same : tried.2.solverId = e.solverId := congrArg Tally.solverId tries.tally
    obtain ⟨event, after⟩ := exec_refuseShortage (same ▸ named) report short required solveIndex i
    have quiet := (quiet_refuseShortage _ report short required solveIndex i _ rfl).ok_of_exec after
    have done : refused = _ := after
    rw [done]
    refine ⟨f, [], tries.before, quiet.trans tries.tally, .singleton f, ?_⟩
    exact .refused (result_of_tried answered answer) asked
      (tries.after.lengthOf short ▸ Nat.le_of_not_lt present) rfl
      ⟨tries.after.integers, tries.after.reals, tries.after.keep⟩

end Attempts

end Engine

end SymSolve
