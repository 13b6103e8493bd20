import SymSolve.Barrier.Step
import SymSolve.Engine.Solve
import SymSolve.Grid
import SymSolve.SignedIndex

/-!
# The probing rule for the barrier parameter

The rule tries the step that ignores the barrier. The closer that step comes to
complementarity, the smaller is the new parameter: it is the present average complementarity
times the cube of the ratio by which the step would reduce it, kept between two bounds.
-/

namespace SymSolve.Barrier

/-! ## The present point -/

/-- What is wrong with a point. -/
inductive PointError where
  | pairs
  | positions
  | sign
  deriving DecidableEq, Repr

/-- The text of a fault. -/
def PointError.text : PointError → String
  | pairs => "slacks and multipliers must be one-dimensional with equal length"
  | positions => "step positions must match the number of complementarity pairs"
  | sign => "slacks and multipliers must be strictly positive"

/-- Pairs of a slack and a multiplier, and where their steps stand in a step of all variables. -/
structure Point (α : Type) where
  slacks : List α
  multipliers : List α
  slackPositions : List Int
  multiplierPositions : List Int

namespace Point

variable {α : Type} [Scalar α]

/-- The number of pairs. -/
def pairs (p : Point α) : Nat := p.slacks.length

/-- Checks a point. A component that is no number passes. -/
def ofGrids (slacks multipliers : Grid α) (slackPositions multiplierPositions : Grid Int) :
    Except PointError (Point α) :=
  if slacks.shape.length ≠ 1 ∨ multipliers.shape ≠ slacks.shape then .error .pairs
  else if slackPositions.shape ≠ slacks.shape ∨ multiplierPositions.shape ≠ slacks.shape then
    .error .positions
  else if (slacks.entries ++ multipliers.entries).any fun a => Scalar.le a 0 then .error .sign
  else .ok ⟨slacks.entries, multipliers.entries, slackPositions.entries,
    multiplierPositions.entries⟩

/-- The average of the products of slacks and multipliers. -/
def mu (p : Point α) : α := Scalar.dot p.slacks p.multipliers / Scalar.ofNat p.pairs

end Point

/-! ## Solvers -/

/-- The answer to a solve for one right-hand side: its outcome, or the fault that ended it, and what
stands in the vector for the solution afterwards. -/
structure StepAnswer (α : Type) where
  result : Except Fault Outcome
  solution : DenseVector α

/-- What solves a system for one right-hand side, and may change its state `τ`. -/
abbrev Solver (α τ : Type) :=
  τ → MatrixView α → (rhs solution : DenseVector α) → StepAnswer α × τ

/-- An engine solves without a demand on the inertia. -/
def engineSolver {α σ : Type} [Scalar α] : Solver α (Engine α σ) := fun e m rhs solution =>
  let (answer, e) := e.solve m rhs solution none
  (⟨answer.result, answer.solutions.headD solution⟩, e)

/-! ## The rule -/

/-- The bounds of the rule. -/
structure Probing (α : Type) where
  muMin : α
  muMax : α
  tau : α

/-- What is wrong with the bounds of the rule. -/
inductive ProbingFault where
  | muBounds
  | tau
  deriving DecidableEq, Repr

/-- The text of a fault. -/
def ProbingFault.text : ProbingFault → String
  | muBounds => "mu bounds must satisfy 0 < mu_min <= mu_max"
  | tau => "fraction-to-the-boundary parameter tau must be in (0, 1]"

/-- Why the rule gives no parameter. -/
inductive MuError where
  /-- The solve ended in a fault. -/
  | fault (cause : Fault)
  /-- The solve ended without a step. -/
  | noStep (outcome : Outcome)
  /-- A position is outside of the step. -/
  | position
  | step (cause : StepError)
  /-- The present complementarity is zero. -/
  | zeroMu
  /-- The cube of the ratio is too large. -/
  | overflow

namespace MuError

/-- The text of a solve without a step. -/
def noStepText : String := "affine-scaling step could not be computed"

end MuError

namespace Probing

variable {α : Type} [Scalar α]

/-- The bounds that are used where no others are given. -/
def standard : Probing α where
  muMin := Scalar.ofDecimal 1 (-9)
  muMax := Scalar.ofDecimal 1 5
  tau := Scalar.ofDecimal 99 (-2)

/-- What is wrong with some bounds. -/
def fault? (r : Probing α) : Option ProbingFault :=
  if !(Scalar.lt 0 r.muMin && Scalar.le r.muMin r.muMax) then some .muBounds
  else if !(Scalar.lt 0 r.tau && Scalar.le r.tau 1) then some .tau
  else none

/-- The components of a step at some positions. -/
def pick? (step : List α) (positions : List Int) : Except MuError (List α) :=
  match positions.mapM fun i => (signedIndex? step.length i).map step.get with
  | some picked => .ok picked
  | none => .error .position

/-- The cube of a ratio. A cube that is infinite although the ratio is not is refused. -/
def cube (ratio : α) : Except MuError α :=
  let cubed := ratio * ratio * ratio
  if Scalar.isFinite ratio && !Scalar.isFinite cubed then .error .overflow else .ok cubed

/-- The value between the bounds that is nearest to `mu`. -/
def clip (r : Probing α) (mu : α) : α := Scalar.smaller r.muMax (Scalar.larger r.muMin mu)

/-- The parameter that follows from a step. -/
def muOfStep (r : Probing α) (p : Point α) (step : List α) : Except MuError α := do
  let stepSlacks ← pick? step p.slackPositions
  let stepMultipliers ← pick? step p.multiplierPositions
  let primal ← (fractionToBoundary p.slacks stepSlacks r.tau).mapError .step
  let dual ← (fractionToBoundary p.multipliers stepMultipliers r.tau).mapError .step
  let affine ← (affineMu primal dual p.slacks p.multipliers stepSlacks stepMultipliers).mapError
    .step
  if Scalar.eq p.mu 0 then throw .zeroMu
  let sigma ← cube (affine / p.mu)
  return r.clip (sigma * p.mu)

/-- The next barrier parameter at a point, whose step comes from a solver. Without pairs it is the
lower bound, and nothing is solved. -/
def nextMuWith {τ : Type} (r : Probing α) (solve : Solver α τ) (s : τ) (kkt : MatrixView α)
    (rhs : DenseVector α) (p : Point α) : Except MuError α × τ :=
  if p.pairs = 0 then (.ok r.muMin, s)
  else
    let (answer, s) := solve s kkt rhs ⟨List.replicate kkt.dim 0⟩
    match answer.result with
    | .error cause => (.error (.fault cause), s)
    | .ok .success => (r.muOfStep p answer.solution.entries, s)
    | .ok outcome => (.error (.noStep outcome), s)

/-- The next barrier parameter at a point, whose step comes from an engine. -/
def nextMu {σ : Type} (r : Probing α) (e : Engine α σ) (kkt : MatrixView α)
    (rhs : DenseVector α) (p : Point α) : Except MuError α × Engine α σ :=
  r.nextMuWith engineSolver e kkt rhs p

end Probing

end SymSolve.Barrier
