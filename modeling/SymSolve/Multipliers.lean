import SymSolve.Engine.Solve
import SymSolve.Grid

/-!
# Least-squares multipliers

The multipliers `y` that minimize `|g + Jᵀ y|` for a Jacobian `J` and a gradient `g` come from
the augmented system

    [ I  Jᵀ ] [ w ]   [ -g ]
    [ J  0  ] [ y ] = [  0 ]

whose matrix keeps its structure, and with it the analysis, as long as the entries of `J` stay
at the same positions.
-/

namespace SymSolve

/-- A sparse matrix, or something else in its place. -/
inductive SparseArgument (α : Type) where
  | sparse (A : Sparse α)
  | other

/-- Why no multipliers are computed. -/
inductive MultiplierError where
  | notSparse
  | gradientLength
  | view (cause : ViewError)
  | solve (cause : Fault)
  deriving DecidableEq, Repr

/-- The text of a refusal that has one of its own. -/
def MultiplierError.text? : MultiplierError → Option String
  | notSparse => some "jacobian must be a SciPy sparse matrix"
  | gradientLength => some "grad_f length must equal the number of Jacobian columns"
  | _ => none

/-- The positions of a Jacobian's entries, and its extents. -/
structure JacobianPattern where
  unknowns : Nat
  constraints : Nat
  positions : List (Nat × Nat)
  deriving DecidableEq, Repr

namespace JacobianPattern

/-- The pattern of a Jacobian without repeated positions. -/
def ofSparse {α : Type} (J : Sparse α) : JacobianPattern where
  unknowns := J.width
  constraints := J.height
  positions := J.entries.map fun e => (e.row.val, e.col.val)

/-- The dimension of the augmented system. -/
def dim (p : JacobianPattern) : Nat := p.unknowns + p.constraints

/-- The rows and columns of the augmented matrix: the diagonal of `I`, the entries of `J`, and
the diagonal of the zero block. -/
def augmented (p : JacobianPattern) : List (Int × Int) :=
  (List.range p.unknowns).map (fun (i : Nat) => ((i : Int), (i : Int))) ++
    p.positions.map (fun (i, j) => ((i : Int) + p.unknowns, (j : Int))) ++
    (List.range' p.unknowns p.constraints).map fun (i : Nat) => ((i : Int), (i : Int))

end JacobianPattern

/-- The values of the augmented matrix. -/
def augmentedValues {α : Type} [Scalar α] (J : Sparse α) : List α :=
  List.replicate J.width 1 ++ J.entries.map Entry.value ++ List.replicate J.height 0

/-- An engine that computes multipliers, with the augmented matrix it works on. -/
structure LeastSquares (α σ : Type) [Scalar α] where
  engine : Engine α σ
  matrix : Option (JacobianPattern × SymTriplets α)

namespace LeastSquares

variable {α σ : Type} [Scalar α]

/-- A calculator that has not met a Jacobian yet. -/
def start (engine : Engine α σ) : LeastSquares α σ := ⟨engine, none⟩

/-- Brings the augmented matrix up to date with a Jacobian: new values where the pattern is the
same, otherwise a new matrix and an engine that has forgotten the old structure. Values that are
refused leave the old matrix in place. -/
def update (c : LeastSquares α σ) (J : Sparse α) (source : TagSource) :
    Except ViewError (SymTriplets α) × LeastSquares α σ × TagSource :=
  let pattern := JacobianPattern.ofSparse J
  let values := augmentedValues J
  let build : Tagged ViewError (SymTriplets α) :=
    let positions := pattern.augmented
    SymTriplets.ofTriplets pattern.dim (positions.map Prod.fst) (positions.map Prod.snd)
      (some values)
  let (run, c) : Tagged ViewError (SymTriplets α) × LeastSquares α σ := match c.matrix with
    | none => (build, c)
    | some (old, A) =>
      if pattern = old then (A.setValues values, c)
      else (build, { c with engine := c.engine.resetStructure })
  match run.run.run source with
  | (.ok A, source) => (.ok A, { c with matrix := some (pattern, A) }, source)
  | (.error cause, source) => (.error cause, c, source)

/-- Solves the augmented system for a gradient. -/
def solve (c : LeastSquares α σ) (A : SymTriplets α) (unknowns constraints : Nat)
    (gradient : List α) : Except Fault (Option (List α)) × LeastSquares α σ :=
  let rhs : DenseVector α := ⟨gradient.map (- ·) ++ List.replicate constraints 0⟩
  let zero : DenseVector α := ⟨List.replicate (unknowns + constraints) 0⟩
  let demand := if c.engine.providesInertia then some (constraints : Int) else none
  let (answer, engine) := c.engine.solve A.view rhs zero demand
  let c := { c with engine }
  match answer.result, answer.solutions with
  | .error cause, _ => (.error cause, c)
  | .ok .success, [x] => (.ok (some (x.entries.drop unknowns)), c)
  | .ok _, _ => (.ok none, c)

/-- The multipliers for a Jacobian and a gradient. There are none when the augmented system is
not solved; without constraints there is nothing to solve. -/
def multipliers (c : LeastSquares α σ) (jacobian : SparseArgument α) (gradient : Grid α)
    (source : TagSource) :
    Except MultiplierError (Option (List α)) × LeastSquares α σ × TagSource :=
  match jacobian with
  | .other => (.error .notSparse, c, source)
  | .sparse J =>
    let J := J.merged
    if gradient.shape ≠ [J.width] then (.error .gradientLength, c, source)
    else if J.height = 0 then (.ok (some []), c, source)
    else match c.update J source with
      | (.error cause, c, source) => (.error (.view cause), c, source)
      | (.ok A, c, source) =>
        let (result, c) := c.solve A J.width J.height gradient.entries
        (result.mapError .solve, c, source)

end LeastSquares

end SymSolve
