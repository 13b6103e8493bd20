import SymSolve.Diagnostic.Event
import SymSolve.Engine.Buffer
import SymSolve.Kernel.Session

/-!
# States, outcomes and faults of the solve engine
-/

namespace SymSolve

/-- How far the engine is with the matrix it was given. -/
inductive Phase where
  | uninitialized
  | structureKnown
  | symbolicDone
  | factorized
  | factorizationStale
  deriving DecidableEq, Repr

/-- The word for a phase. -/
def Phase.name : Phase → String
  | uninitialized => "uninitialized"
  | structureKnown => "structure_known"
  | symbolicDone => "symbolic_done"
  | factorized => "factorized"
  | factorizationStale => "factorization_stale"

/-- The phase after something happened that makes factors out of date. -/
def Phase.stale : Phase → Phase
  | factorized => factorizationStale
  | phase => phase

/-- What a solve comes to. -/
inductive Outcome where
  | success
  | singular
  | wrongInertia
  | fatalError
  deriving DecidableEq, Repr

/-- The word for an outcome. -/
def Outcome.name : Outcome → String
  | success => "success"
  | singular => "singular"
  | wrongInertia => "wrong_inertia"
  | fatalError => "fatal_error"

/-- The outcome that a word names. -/
def Outcome.ofName? (name : String) : Option Outcome :=
  [success, singular, wrongInertia, fatalError].find? fun o => o.name = name

/-- The two lists of vectors of a solve. -/
inductive VectorRole where
  | rhs
  | solution
  deriving DecidableEq, Repr

/-- The word for a role. -/
def VectorRole.name : VectorRole → String
  | rhs => "rhs"
  | solution => "solution"

/-- How the engine can be used wrongly. -/
inductive UsageError where
  | emptySolverId
  | listLengths (rhs solutions : Nat)
  | inertiaNotOffered
  | otherStructure
  | vectorDim (role : VectorRole) (index got expected : Nat)
  | noInertia
  | noFactorization (phase : Phase)
  deriving DecidableEq, Repr

namespace UsageError

/-- The code of all wrong uses. -/
def code : String := "E_LIN_USAGE_INVALID"

/-- The text of a wrong use. -/
def text : UsageError → String
  | emptySolverId => "solver_id must be non-empty"
  | listLengths rhs solutions =>
    s!"got {rhs} right-hand sides but {solutions} solution vectors"
  | inertiaNotOffered => "inertia check requested from a solver without inertia"
  | otherStructure =>
    "matrix structure differs from the captured one; call reset_structure() first"
  | vectorDim role index got expected =>
    let name := role.name
    s!"{name} vector {index} has dimension {got}, expected {expected}"
  | noInertia => "this solver does not provide inertia"
  | noFactorization phase =>
    let name := phase.name
    s!"inertia requires a current factorization; solver state is '{name}'"

end UsageError

/-- Why a call of the engine ends without an outcome. -/
inductive Fault where
  | usage (cause : UsageError)
  | kernel (cause : KernelFault)
  | length (cause : Buffer.LengthError)
  | view (cause : ViewError)
  | event (cause : EventError)
  deriving DecidableEq, Repr

end SymSolve
