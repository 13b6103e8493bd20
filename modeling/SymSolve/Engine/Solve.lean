import SymSolve.Engine.Factorize

/-!
# Solving

A call is checked before anything happens, so a call that is rejected leaves no trace. A call
that passes gets a number, forgets the diagnostics of the call before it, and goes through
structure, analysis and factorization as far as they are needed. Then it solves for one
right-hand side after the other; solutions found before a failure are kept.
-/

namespace SymSolve

/-- What a caller expects of the inertia: nothing, or a number of negative eigenvalues. -/
abbrev InertiaDemand := Option Int

/-- The answer to a solve: its outcome, or the fault that ended it, and the solution vectors as
they are now. -/
structure SolveAnswer (α : Type) where
  result : Except Fault Outcome
  solutions : List (DenseVector α)

namespace Engine

variable {α σ : Type} [Scalar α]

/-- The first vector of a list that has another dimension. -/
def dimFault? (dim : Nat) (role : VectorRole) (vectors : List (DenseVector α)) :
    Option UsageError :=
  (vectors.zipIdx.find? fun (v, _) => v.dim ≠ dim).map fun (v, index) =>
    .vectorDim role index v.dim dim

/-- What is wrong with a call. -/
def usageFault? (e : Engine α σ) (m : MatrixView α) (rhs solutions : List (DenseVector α))
    (demand : InertiaDemand) : Option UsageError :=
  if rhs.length ≠ solutions.length then some (.listLengths rhs.length solutions.length)
  else if demand.isSome && !e.providesInertia then some .inertiaNotOffered
  else if e.phase ≠ .uninitialized ∧ ((m.dim : Int) ≠ e.dim ∨ m.nonzeros ≠ e.nonzeros) then
    some .otherStructure
  else (dimFault? m.dim .rhs rhs).or (dimFault? m.dim .solution solutions)

/-- Starts a call: it gets the next number, and what was reported about the one before is
dropped. Diagnostics that belong to no call stay. -/
def beginCall (e : Engine α σ) : Engine α σ :=
  { e with
    solveCount := e.solveCount + 1
    trace := []
    diagnostics := e.diagnostics.filter fun event => event.solveIndex.isNone }

/-- Captures the structure of a matrix if none is captured. -/
def captureIfNew (m : MatrixView α) (e : Engine α σ) : Engine α σ :=
  if e.phase = .uninitialized then e.captureStructure m else e

/-- Takes note of the values of a matrix: factors of other values are out of date. -/
def noteValues (m : MatrixView α) (e : Engine α σ) : Engine α σ :=
  if m.hasChanged e.matrixTag then { e with matrixTag := m.tag, phase := e.phase.stale } else e

/-- Reports that the inertia is not what was demanded. -/
def emitWrongInertia (found : Option Int) (expected : Int) (solveIndex : Nat) :
    EngineM α σ Unit :=
  let count := (found.map toString).getD "unknown"
  let number : Payload α := match found with
    | some i => .int i
    | none => .null
  emit "E_LIN_WRONG_INERTIA" s!"factorization has {count} negative eigenvalues, expected {expected}"
    (some solveIndex) none
    [("expected_neg_eigenvalues", .int expected), ("neg_eigenvalues", number)]

/-- Gets to current factors with the inertia demanded; otherwise an outcome is returned. -/
def prepare (m : MatrixView α) (demand : InertiaDemand) (solveIndex : Nat) :
    EngineM α σ (Option Outcome) := do
  modify (captureIfNew m)
  let e : Engine α σ ← get
  let refused ← if e.phase = .structureKnown then analyse solveIndex else pure none
  if refused.isSome then return refused
  modify (noteValues m)
  let e : Engine α σ ← get
  let failed ← if e.phase = .factorized then pure none else factorize m solveIndex
  if failed.isSome then return failed
  let e : Engine α σ ← get
  match demand with
  | none => return none
  | some expected =>
    if e.negative = some expected then return none
    else
      emitWrongInertia e.negative expected solveIndex
      return some .wrongInertia

/-- Solves for one right-hand side. -/
def callSolve (rhs : DenseVector α) : EngineM α σ (BacksolveResult α) := do
  let e : Engine α σ ← get
  let r := e.session.backsolve e.dim rhs.entries e.workspace.reals.words
    e.workspace.integers.words
  set { e with
    session := r.session
    workspace := { e.workspace with reals := ⟨r.a⟩, integers := ⟨r.iw⟩ } }
  orFault .kernel r.result

/-- Reports that a right-hand side could not be solved for. -/
def emitBacksolveFailed (index : Nat) (flag : Int) (solveIndex : Nat) : EngineM α σ Unit :=
  emit "E_LIN_BACKSOLVE_FAILED" s!"backsolve failed for right-hand side {index} (iflag={flag})"
    (some solveIndex) none
    [("iflag", .int flag), ("rhs_index", .int index)]

/-- Solves for one right-hand side and writes the solution; a failure is reported and nothing is
returned. -/
def solveOne (solveIndex index : Nat) (rhs solution : DenseVector α) :
    EngineM α σ (Option (DenseVector α)) := do
  let result ← callSolve rhs
  match result.solution with
  | none =>
    emitBacksolveFailed index result.flag solveIndex
    return none
  | some x => return some (← orFault .view (solution.set x))

/-- Solves for the right-hand sides one after the other, up to the first failure. -/
def backsolve (solveIndex : Nat) :
    (index : Nat) → List (DenseVector α) → List (DenseVector α) → Engine α σ →
      SolveAnswer α × Engine α σ
  | index, rhs :: more, solution :: solutions, e =>
    match exec (solveOne solveIndex index rhs solution) e with
    | (.error fault, e) => (⟨.error fault, solution :: solutions⟩, e)
    | (.ok none, e) => (⟨.ok .fatalError, solution :: solutions⟩, e)
    | (.ok (some x), e) =>
      let (answer, e) := backsolve solveIndex (index + 1) more solutions e
      ({ answer with solutions := x :: answer.solutions }, e)
  | _, _, solutions, e => (⟨.ok .success, solutions⟩, e)

/-- Solves `A x = b` for several right-hand sides `b`, and writes the solutions in place of the
vectors in `solutions`. -/
def multiSolve (e : Engine α σ) (m : MatrixView α) (rhs solutions : List (DenseVector α))
    (demand : InertiaDemand) : SolveAnswer α × Engine α σ :=
  match e.usageFault? m rhs solutions demand with
  | some cause => (⟨.error (.usage cause), solutions⟩, e)
  | none =>
    let solveIndex := e.solveCount
    match exec (prepare m demand solveIndex) e.beginCall with
    | (.error fault, e) => (⟨.error fault, solutions⟩, e)
    | (.ok (some outcome), e) => (⟨.ok outcome, solutions⟩, e)
    | (.ok none, e) => backsolve solveIndex 0 rhs solutions e

/-- Solves for one right-hand side. -/
def solve (e : Engine α σ) (m : MatrixView α) (rhs solution : DenseVector α)
    (demand : InertiaDemand) : SolveAnswer α × Engine α σ :=
  e.multiSolve m [rhs] [solution] demand

end Engine

end SymSolve
