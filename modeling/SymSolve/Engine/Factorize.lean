import SymSolve.Engine.Basic

/-!
# Analysis and factorization

The analysis happens once for a structure. A factorization is attempted again and again as long
as the kernel reports that one of the two workspaces is too short; each time the short one grows
at least to the length asked for, so the attempts come to an end: lengths that can be asked for
are bounded by what one status word holds.
-/

namespace SymSolve

/-- The two workspaces that a kernel can find too short. -/
inductive WorkspaceKind where
  | integer
  | real
  deriving DecidableEq, Repr

namespace Workspace

variable {α : Type}

/-- The length of one of the two workspaces. -/
def lengthOf (w : Workspace α) : WorkspaceKind → Nat
  | .integer => w.integers.length
  | .real => w.reals.length

/-- How many words the two workspaces lack to the longest that can be asked for. -/
def room (w : Workspace α) : Nat :=
  (wordCount - w.integers.length) + (wordCount - w.reals.length)

/-- Grows the two workspaces. -/
def grow [OfNat α 0] (w : Workspace α) (integers reals : Nat) : Workspace α :=
  { w with integers := w.integers.grow integers, reals := w.reals.grow reals }

/-- The lengths of the two workspaces after a shortage: the short one grows by `factor` from the
length asked for, the other one by `factor` from its own. -/
def relief [Scalar α] (w : Workspace α) (factor : α) (short : WorkspaceKind)
    (required : Requirement) : Except Unbounded (Nat × Nat) := do
  let base (kind : WorkspaceKind) : Nat :=
    if kind = short then required.length else w.lengthOf kind
  let integers ← grownLength (w.lengthOf .integer) (base .integer) factor
  let reals ← grownLength (w.lengthOf .real) (base .real) factor
  return (integers.toNat, reals.toNat)

/-- Lengths for the two workspaces that give the short one at least the length asked for. -/
def sufficient (short : WorkspaceKind) (required : Requirement) (lengths : Nat × Nat) : Nat × Nat :=
  match short with
  | .integer => (max required.length lengths.1, lengths.2)
  | .real => (lengths.1, max required.length lengths.2)

theorem room_grow_sufficient_lt [OfNat α 0] (w : Workspace α) (short : WorkspaceKind)
    (required : Requirement) (lengths : Nat × Nat) (h : w.lengthOf short < required.length) :
    (w.grow (sufficient short required lengths).1 (sufficient short required lengths).2).room
      < w.room := by
  have := required.bounded
  cases short <;> simp only [sufficient, grow, room, lengthOf, Buffer.length_grow] at * <;> omega

end Workspace

namespace Engine

variable {α σ : Type} [Scalar α]

/-- Takes the value of a computation, or ends the step with its fault. -/
def orFault {ε β : Type} (fault : ε → Fault) : Except ε β → EngineM α σ β
  | .ok b => pure b
  | .error cause => throw (fault cause)

/-- A length that was computed from scalars. -/
def lengthOrFault (length : Except Unbounded Int) : EngineM α σ Int :=
  orFault (fun cause => .length (.unbounded cause)) length

/-- Makes sure of an integer workspace of some length. -/
def ensureIntegers (length : Int) : EngineM α σ Unit := do
  let e : Engine α σ ← get
  let integers ← orFault .length (e.workspace.integers.ensure e.memory length)
  set { e with workspace := { e.workspace with integers } }

/-- Makes sure of a real workspace of some length. -/
def ensureReals (length : Int) : EngineM α σ Unit := do
  let e : Engine α σ ← get
  let reals ← orFault .length (e.workspace.reals.ensure e.memory length)
  set { e with workspace := { e.workspace with reals } }

theorem workspace_of_exec_ensureIntegers {n : Int} {e after : Engine α σ}
    (h : exec (ensureIntegers n) e = (.ok (), after)) :
    after.workspace = { e.workspace with integers := e.workspace.integers.grow n.toNat } := by
  obtain ⟨_, _, hget, h⟩ := exec_bind_eq_ok h
  cases hget
  cases hi : e.workspace.integers.ensure e.memory n with
  | error cause => rw [hi] at h; cases h
  | ok integers =>
    rw [hi] at h
    cases h
    rw [Buffer.eq_grow_of_ensure hi]

theorem workspace_of_exec_ensureReals {n : Int} {e after : Engine α σ}
    (h : exec (ensureReals n) e = (.ok (), after)) :
    after.workspace = { e.workspace with reals := e.workspace.reals.grow n.toNat } := by
  obtain ⟨_, _, hget, h⟩ := exec_bind_eq_ok h
  cases hget
  cases hr : e.workspace.reals.ensure e.memory n with
  | error cause => rw [hr] at h; cases h
  | ok reals =>
    rw [hr] at h
    cases h
    rw [Buffer.eq_grow_of_ensure hr]

/-- Makes sure of an index array of some length. -/
def ensureKeep (length : Int) : EngineM α σ Unit := do
  let e : Engine α σ ← get
  let keep ← orFault .length (e.workspace.keep.ensure e.memory length)
  set { e with workspace := { e.workspace with keep } }

/-! ## Analysis -/

/-- Captures the structure of a matrix. -/
def captureStructure (m : MatrixView α) (e : Engine α σ) : Engine α σ :=
  { e.resetStructure with
    pattern := .ofView m
    nonzeros := m.nonzeros
    phase := .structureKnown }

/-- Calls the kernel's analysis. -/
def callAnalysis : EngineM α σ AnalysisResult := do
  let e : Engine α σ ← get
  let r := e.session.analyse e.pattern e.workspace.integers.words e.workspace.keep.words
  set { e with
    session := r.session
    workspace := { e.workspace with integers := ⟨r.iw⟩, keep := ⟨r.keep⟩ } }
  orFault .kernel r.result

/-- Analyses the captured structure and provides the workspaces that the kernel recommends. An
outcome is returned when the kernel refuses the structure. -/
def analyse (solveIndex : Nat) : EngineM α σ (Option Outcome) := do
  let e : Engine α σ ← get
  let needed := 2 * (e.nonzeros : Int) + 3 * e.dim + 1
  ensureIntegers (← lengthOrFault (scaledLength e.options.analysisOverestimate needed))
  ensureKeep (3 * e.dim)
  let result ← callAnalysis
  if result.accepted then
    ensureIntegers
      (← lengthOrFault (scaledLength e.options.integerInitFactor result.integerLength))
    let reals ← lengthOrFault (scaledLength e.options.realInitFactor result.realLength)
    ensureReals (max e.nonzeros reals)
    modify fun e : Engine α σ => { e with phase := .symbolicDone }
    return none
  else
    let flag := result.flag
    emit "E_LIN_STRUCTURE_INVALID" s!"symbolic analysis rejected the structure (iflag={flag})"
      (some solveIndex) none
      [("dim", .int e.dim), ("ierror", .int result.detail), ("iflag", .int result.flag),
       ("nonzeros", .int e.nonzeros)]
    return some .fatalError

/-! ## Growth -/

/-- A length before and after, as evidence. -/
def change (before after : Nat) : Payload α := .sequence [.int before, .int after]

/-- Reports that workspaces were made longer. -/
def emitReallocated (cause : String) (solveIndex : Nat) (attemptIndex : Option Nat)
    (before after : Workspace α) (more : List (String × Payload α)) : EngineM α σ Unit :=
  let integers := before.integers.length
  let integers' := after.integers.length
  let reals := before.reals.length
  let reals' := after.reals.length
  emit "W_LIN_WORKSPACE_REALLOCATED"
    (cause ++ "; integer workspace " ++ toString integers ++ " -> " ++ toString integers' ++
      ", real workspace " ++ toString reals ++ " -> " ++ toString reals')
    (some solveIndex) attemptIndex
    ([("integer_workspace_len", change integers integers'),
      ("real_workspace_len", change reals reals')] ++ more)

theorem workspace_exec_emitReallocated (cause : String) (solveIndex : Nat)
    (attemptIndex : Option Nat) (w w' : Workspace α) (more : List (String × Payload α))
    (e : Engine α σ) :
    (exec (emitReallocated cause solveIndex attemptIndex w w' more) e).2.workspace =
      e.workspace := by
  unfold emitReallocated
  rw [workspace_exec_emit]

/-- Carries out the growth that an earlier factorization asked for. -/
def applyPendingGrowth (solveIndex : Nat) : EngineM α σ Unit := do
  let e : Engine α σ ← get
  if e.pending.any then
    let factor := e.options.growthFactor
    let integers := e.workspace.integers.length
    let reals := e.workspace.reals.length
    if e.pending.real then ensureReals (← lengthOrFault (grownLength reals reals factor))
    if e.pending.integer then
      ensureIntegers (← lengthOrFault (grownLength integers integers factor))
    modify fun e : Engine α σ => { e with pending := .none }
    emitReallocated "scheduled growth applied" solveIndex none e.workspace
      (← get).workspace []

/-- Asks for growth before the next factorization if this one compressed a workspace often. -/
def scheduleGrowth (result : FactorizationResult) (solveIndex attemptIndex : Nat) :
    EngineM α σ Unit := do
  let e : Engine α σ ← get
  let threshold := e.options.compressionThreshold
  let pending : PendingGrowth := {
    real := e.pending.real || threshold ≤ result.realCompressions
    integer := e.pending.integer || threshold ≤ result.integerCompressions }
  if pending ≠ e.pending then
    set { e with pending }
    let reals := result.realCompressions
    let integers := result.integerCompressions
    emit "W_LIN_WORKSPACE_GROWTH_SCHEDULED"
      (s!"kernel compressed {reals} real / {integers} integer times; " ++
        "growing workspace before the next factorization")
      (some solveIndex) (some attemptIndex)
      [("integer", .bool pending.integer), ("integer_compressions", .int integers),
       ("real", .bool pending.real), ("real_compressions", .int reals)]

/-! ## Attempts -/

/-- Lists an attempt. -/
def recordAttempt (result : FactorizationResult) (solveIndex attemptIndex : Nat)
    (e : Engine α σ) : Engine α σ :=
  { e with
    factorizationCount := e.factorizationCount + 1
    trace := e.trace ++ [{
      solveIndex
      attemptIndex
      status := result.verdict.name
      integerLength := e.workspace.integers.length
      realLength := e.workspace.reals.length
      required := result.verdict.required?.map Int.ofNat
      negative := if result.verdict = .success then some result.negative else none
      realCompressions := result.realCompressions
      integerCompressions := result.integerCompressions
      tolerance := e.tolerance }] }

/-- One attempt at the factorization of a matrix, recorded unless it ends in a fault. -/
def attempt (m : MatrixView α) (solveIndex attemptIndex : Nat) (e : Engine α σ) :
    Except Fault FactorizationResult × Engine α σ :=
  match m.fill e.workspace.reals.words with
  | .error cause => (.error (.view cause), e)
  | .ok filled =>
    let r := e.session.factorize e.pattern filled e.workspace.integers.words
      e.workspace.keep.words
    let e := { e with session := r.session, workspace := ⟨⟨r.iw⟩, ⟨r.a⟩, ⟨r.keep⟩⟩ }
    match r.result with
    | .error cause => (.error (.kernel cause), e)
    | .ok result => (.ok result, recordAttempt result solveIndex attemptIndex e)

/-- Reports a shortage that asks for no more than there is. -/
def refuseShortage (result : FactorizationResult) (short : WorkspaceKind)
    (required : Requirement) (solveIndex attemptIndex : Nat) : EngineM α σ Unit := do
  let e : Engine α σ ← get
  let length := e.workspace.lengthOf short
  let status := result.verdict.name
  let words := required.length
  set { e with phase := .factorizationStale }
  emit "E_LIN_KERNEL_FAILED"
    (s!"kernel reported {status} with requirement {words} " ++
      s!"not above the current length {length}")
    (some solveIndex) (some attemptIndex)
    [("current_len", .int length), ("iflag", .int result.flag), ("required_len", .int words)]

/-- Grows the two workspaces after a shortage, the integer one first, and reports it. -/
def relieve (result : FactorizationResult) (required : Requirement) (lengths : Nat × Nat)
    (solveIndex attemptIndex : Nat) : EngineM α σ Unit := do
  let e : Engine α σ ← get
  ensureIntegers lengths.1
  ensureReals lengths.2
  emitReallocated ("kernel reported " ++ result.verdict.name) solveIndex (some attemptIndex)
    e.workspace (← get).workspace [("required_len", .int required.length)]

theorem workspace_of_exec_relieve {result : FactorizationResult} {required : Requirement}
    {lengths : Nat × Nat} {solveIndex attemptIndex : Nat} {e after : Engine α σ}
    (h : exec (relieve result required lengths solveIndex attemptIndex) e = (.ok (), after)) :
    after.workspace = e.workspace.grow lengths.1 lengths.2 := by
  obtain ⟨_, _, hget, h⟩ := exec_bind_eq_ok h
  cases hget
  obtain ⟨_, _, hi, h⟩ := exec_bind_eq_ok h
  obtain ⟨_, grown, hr, h⟩ := exec_bind_eq_ok h
  obtain ⟨_, _, hget, h⟩ := exec_bind_eq_ok h
  cases hget
  have unchanged : after.workspace = grown.workspace := by
    rw [← workspace_exec_emitReallocated _ _ _ _ _ _ grown, h]
  rw [unchanged, workspace_of_exec_ensureReals hr, workspace_of_exec_ensureIntegers hi]
  rfl

/-- The workspace that a verdict finds too short, and the length it asks for. -/
def shortage? : Verdict → Option (WorkspaceKind × Requirement)
  | .integerShortage required => some (.integer, required)
  | .realShortage required => some (.real, required)
  | _ => none

omit [Scalar α] in
theorem length_of_fill {m : MatrixView α} {a b : Array α} (h : m.fill a = .ok b) :
    b.size = a.size := by
  simp only [MatrixView.fill] at h
  split at h
  · cases h
  · cases h
    simp [overwriteFront]
    omega

theorem room_attempt (m : MatrixView α) (k i : Nat) (e : Engine α σ) :
    (attempt m k i e).2.workspace.room = e.workspace.room := by
  unfold attempt
  split
  · rfl
  · next filled h =>
    have hi := Session.size_factorize_iw e.session e.pattern filled
      e.workspace.integers.words e.workspace.keep.words
    have ha := Session.size_factorize_a e.session e.pattern filled
      e.workspace.integers.words e.workspace.keep.words
    have := length_of_fill h
    dsimp only
    split <;> simp [Workspace.room, Buffer.length, recordAttempt, *]

/-- Attempts to factorize until the kernel reports something else than a shortage; then that
report is returned with the number of the attempt. Nothing is returned when a shortage asks for
no more than there is. -/
def attempts (m : MatrixView α) (solveIndex attemptIndex : Nat) (e : Engine α σ) :
    Except Fault (Option (FactorizationResult × Nat)) × Engine α σ :=
  let tried := attempt m solveIndex attemptIndex e
  match tried.1 with
  | .error fault => (.error fault, tried.2)
  | .ok result =>
    match shortage? result.verdict with
    | none => (.ok (some (result, attemptIndex)), tried.2)
    | some (short, required) =>
      let before := tried.2.workspace
      match before.relief tried.2.options.growthFactor short required with
      | .error cause => (.error (.length (.unbounded cause)), tried.2)
      | .ok lengths =>
        if before.lengthOf short < required.length then
          let enough := Workspace.sufficient short required lengths
          match h : exec (relieve result required enough solveIndex attemptIndex) tried.2 with
          | (.error fault, after) => (.error fault, after)
          | (.ok (), after) => attempts m solveIndex (attemptIndex + 1) after
        else
          let refused := exec (refuseShortage result short required solveIndex attemptIndex) tried.2
          (refused.1.map fun _ => none, refused.2)
termination_by e.workspace.room
decreasing_by
  rename_i short_lt
  have := room_attempt m solveIndex attemptIndex e
  have := Workspace.room_grow_sufficient_lt _ _ _ lengths short_lt
  have := workspace_of_exec_relieve h
  simp_all [tried, before, enough]

/-- Reads the report that ends the attempts. -/
def conclude (result : FactorizationResult) (solveIndex attemptIndex : Nat) :
    EngineM α σ (Option Outcome) := do
  let e : Engine α σ ← get
  match result.verdict with
  | .success =>
    set { e with negative := some result.negative }
    scheduleGrowth result solveIndex attemptIndex
    modify fun e : Engine α σ => { e with phase := .factorized }
    return none
  | .singular =>
    set { e with phase := .factorizationStale }
    let rank := result.rank
    let dim := e.dim
    emit "E_LIN_SINGULAR" s!"matrix is singular (rank {rank} of {dim})"
      (some solveIndex) (some attemptIndex)
      [("iflag", .int result.flag), ("rank", .int result.rank)]
    return some .singular
  | _ =>
    set { e with phase := .factorizationStale }
    let flag := result.flag
    emit "E_LIN_KERNEL_FAILED" s!"numeric factorization failed (iflag={flag})"
      (some solveIndex) (some attemptIndex)
      [("ierror", .int result.detail), ("iflag", .int result.flag)]
    return some .fatalError

/-- Factorizes a matrix. An outcome is returned when there are no factors to solve with. -/
def factorize (m : MatrixView α) (solveIndex : Nat) : EngineM α σ (Option Outcome) := do
  applyPendingGrowth solveIndex
  match ← ExceptT.mk (attempts m solveIndex 0) with
  | none => return some .fatalError
  | some (result, attemptIndex) => conclude result solveIndex attemptIndex

end Engine

end SymSolve
