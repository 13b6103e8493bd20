import SymSolve.DenseVector
import SymSolve.Engine.Fault
import SymSolve.Options

/-!
# The solve engine

The engine drives a kernel for one caller. It captures the structure of the first matrix it
sees, analyses the structure once, and factorizes once for every change of the values, which it
notices by their tag. It owns the work buffers and enlarges them when the kernel asks for more.

A step is a computation on the engine that may end in a fault; what was done to the engine
before the fault stays done.
-/

namespace SymSolve

/-- Growth that one factorization asked for and the next one gets. -/
structure PendingGrowth where
  real : Bool
  integer : Bool
  deriving DecidableEq, Repr

namespace PendingGrowth

/-- No growth. -/
def none : PendingGrowth := ⟨false, false⟩

/-- Growth of at least one workspace. -/
def any (p : PendingGrowth) : Bool := p.real || p.integer

end PendingGrowth

/-- The work buffers. -/
structure Workspace (α : Type) where
  integers : Buffer Int
  reals : Buffer α
  keep : Buffer Int

/-- Work buffers without words. -/
def Workspace.empty {α : Type} : Workspace α := ⟨.empty, .empty, .empty⟩

/-- One attempt at a factorization. -/
structure AttemptRecord (α : Type) where
  solveIndex : Int
  attemptIndex : Int
  status : String
  integerLength : Nat
  realLength : Nat
  required : Option Int
  negative : Option Int
  realCompressions : Int
  integerCompressions : Int
  tolerance : α

/-- An engine over scalars `α` whose kernel has a state of type `σ`. -/
structure Engine (α σ : Type) [Scalar α] where
  memory : Memory
  options : Options α
  solverId : String
  providesInertia : Bool
  session : Session α σ
  tolerance : α
  phase : Phase
  matrixTag : Nat
  pattern : Pattern
  nonzeros : Nat
  workspace : Workspace α
  pending : PendingGrowth
  negative : Option Int
  solveCount : Nat
  factorizationCount : Nat
  diagnostics : List (Event α)
  trace : List (AttemptRecord α)

/-- Steps of an engine. -/
abbrev EngineM (α σ : Type) [Scalar α] := ExceptT Fault (StateM (Engine α σ))

/-- The pattern of a matrix without rows. -/
def Pattern.empty : Pattern := ⟨0, [], []⟩

namespace Engine

variable {α σ : Type} [Scalar α]

/-- A new engine, whose buffers are kept in `memory`. Its kernel is called with the tolerance of
the options. -/
def create (memory : Memory) (options : Options α) (kernel : Kernel α σ) (state : σ)
    (solverId : String) (providesInertia : Bool) : Except UsageError (Engine α σ) :=
  if solverId = "" then .error .emptySolverId
  else .ok {
    memory, options, solverId, providesInertia
    session := (Session.start kernel state).withTolerance options.tolerance
    tolerance := options.tolerance
    phase := .uninitialized
    matrixTag := 0
    pattern := .empty
    nonzeros := 0
    workspace := .empty
    pending := .none
    negative := none
    solveCount := 0
    factorizationCount := 0
    diagnostics := []
    trace := [] }

/-- The dimension of the captured structure. -/
def dim (e : Engine α σ) : Int := e.pattern.dim

/-- Runs a step. -/
def exec {β : Type} (step : EngineM α σ β) (e : Engine α σ) : Except Fault β × Engine α σ :=
  (step.run).run e

theorem exec_get (e : Engine α σ) : exec (get : EngineM α σ (Engine α σ)) e = (.ok e, e) := rfl

theorem exec_bind {β γ : Type} (step : EngineM α σ β) (next : β → EngineM α σ γ)
    (e : Engine α σ) :
    exec (step >>= next) e =
      match exec step e with
      | (.ok b, e) => exec (next b) e
      | (.error fault, e) => (.error fault, e) := by
  simp only [exec, ExceptT.run_bind, StateT.run_bind]
  show (StateT.run _ e >>= _) = _
  rcases StateT.run step.run e with ⟨r, e'⟩
  cases r <;> simp <;> rfl

/-- What a step with a value was made of, when it is two steps in a row. -/
theorem exec_bind_eq_ok {β γ : Type} {step : EngineM α σ β} {next : β → EngineM α σ γ}
    {e after : Engine α σ} {result : γ} (h : exec (step >>= next) e = (.ok result, after)) :
    ∃ b between, exec step e = (.ok b, between) ∧ exec (next b) between = (.ok result, after) := by
  rw [exec_bind] at h
  split at h
  · next b between hb => exact ⟨b, between, hb, h⟩
  · cases h

/-- Forgets the structure and all that was made of it. The tolerance stays, and so do the
counters and the diagnostics. -/
def resetStructure (e : Engine α σ) : Engine α σ :=
  { e with
    phase := .uninitialized
    matrixTag := 0
    pattern := .empty
    nonzeros := 0
    workspace := .empty
    pending := .none
    negative := none }

/-- Adds a diagnostic. -/
def emit (code message : String) (solveIndex attemptIndex : Option Nat)
    (witness : List (String × Payload α)) : EngineM α σ Unit := do
  let e ← get
  let index (i : Option Nat) : Payload α := match i with
    | none => .null
    | some i => .int i
  let request : EventRequest α := {
    code := .text code
    message := .text message
    solverId := .text e.solverId
    solveIndex := index solveIndex
    attemptIndex := index attemptIndex
    witness := .ofFields witness }
  match Event.build request with
  | .error cause => throw (.event cause)
  | .ok event => set { e with diagnostics := e.diagnostics ++ [event] }

theorem workspace_exec_emit (code message : String) (solveIndex attemptIndex : Option Nat)
    (witness : List (String × Payload α)) (e : Engine α σ) :
    (exec (emit code message solveIndex attemptIndex witness) e).2.workspace = e.workspace := by
  unfold emit
  rw [exec_bind, exec_get]
  dsimp only
  split <;> rfl

/-- The number of negative eigenvalues of the matrix that is factorized at present. -/
def negativeEigenvalues (e : Engine α σ) : Except UsageError Int :=
  if !e.providesInertia then .error .noInertia
  else match e.phase, e.negative with
    | .factorized, some negative => .ok negative
    | phase, _ => .error (.noFactorization phase)

/-- Raises the pivot tolerance to its power, up to the maximum. The answer tells whether there
was room; if so, the next solve factorizes anew. -/
def increaseQuality {α : Type} [RealScalar α] [Printable α] : EngineM α σ Bool := do
  let e ← get
  let limit := e.options.toleranceMax
  if Scalar.le limit e.tolerance then return false
  else
    let previous := e.tolerance
    let raised := Scalar.smaller limit (RealScalar.pow previous e.options.qualityExponent)
    set { e with
      tolerance := raised
      session := e.session.withTolerance raised
      phase := e.phase.stale }
    let before := Printable.scientific 3 previous
    let after := Printable.scientific 3 raised
    emit "W_LIN_QUALITY_INCREASED" s!"pivot tolerance raised from {before} to {after}" none none
      [("from", .real previous), ("to", .real raised)]
    return true

end Engine

end SymSolve
