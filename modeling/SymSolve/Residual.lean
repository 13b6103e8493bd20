import SymSolve.Broadcast
import SymSolve.SymTriplets

/-!
# Residuals of linear systems

The residual `A x - b` is measured by its Euclidean norm, by its largest magnitude, and by the
latter relative to `|A| |x| + |b|`, where `|A|` is the largest sum of magnitudes along a row.
A small `epsilon` keeps that scale from being zero.

A matrix is handed in as triplets, as another view with the same contents, or as a coordinate
matrix; all three are measured as coordinate matrices.
-/

namespace SymSolve

/-- A matrix as it is handed in to be measured. -/
inductive MatrixArgument (α : Type) where
  | triplets (A : SymTriplets α)
  | view (m : MatrixView α)
  | sparse (A : Sparse α)
  /-- Something that is no matrix of these kinds. -/
  | other

/-- Why a residual is not measured. -/
inductive ResidualError where
  | notMatrix
  | view (cause : ViewError)
  | lengths
  | zeroScale
  deriving DecidableEq, Repr

/-- The text of a refusal that has one of its own. -/
def ResidualError.text? : ResidualError → Option String
  | notMatrix => some "matrix must be a symmetric matrix view or a SciPy sparse matrix"
  | _ => none

/-- The measures of a residual. -/
structure Residual (α : Type) where
  /-- The Euclidean norm. -/
  euclidean : α
  /-- The largest magnitude. -/
  largest : α
  /-- The largest magnitude relative to the size of the system. -/
  relative : α

/-- The coordinate matrix of an argument. -/
def MatrixArgument.toSparse? {α : Type} [Scalar α] :
    MatrixArgument α → Except ResidualError (Sparse α)
  | triplets A => .ok A.full
  | view m =>
    let A : Tagged ViewError (SymTriplets α) :=
      SymTriplets.ofTriplets m.dim (m.rows.map Int.ofNat) (m.cols.map Int.ofNat) (some m.values)
    match (A.run.run ⟨m.tag⟩).1 with
    | .ok A => .ok A.full
    | .error cause => .error (.view cause)
  | sparse A => .ok A
  | other => .error .notMatrix

namespace Residual

variable {α : Type}

/-- The `epsilon` that is used where no other is given. -/
def standardEpsilon [Scalar α] : α := Scalar.ofDecimal 1 (-30)

/-- The largest sum of magnitudes along a row. -/
def rowNorm [Scalar α] (A : Sparse α) : α := Scalar.maxAbs A.rowMagnitudes

/-- What the largest magnitude of a residual is compared with. -/
def scale [Scalar α] (A : Sparse α) (b x : List α) (epsilon : α) : α :=
  rowNorm A * Scalar.maxAbs x + Scalar.maxAbs b + epsilon

/-- The Euclidean norm of a vector. -/
def norm [RealScalar α] (v : List α) : α := RealScalar.sqrt (Scalar.dot v v)

/-- The components of `A x - b`. -/
def components? [Scalar α] (A : Sparse α) (b x : List α) : Option (List α) :=
  (A.mulVec? x).bind fun y => broadcast? (· - ·) y b

/-- Measures the residual of `A x = b`. -/
def measure [RealScalar α] (A : Sparse α) (b x : List α) (epsilon : α) :
    Except ResidualError (Residual α) :=
  match components? A b x with
  | none => .error .lengths
  | some r =>
    let scale := scale A b x epsilon
    if Scalar.eq scale 0 then .error .zeroScale
    else .ok {
      euclidean := norm r
      largest := Scalar.maxAbs r
      relative := Scalar.maxAbs r / scale }

/-- Measures the residual of `A x = b` for a matrix as it is handed in. -/
def ofArgument [RealScalar α] (A : MatrixArgument α) (b x : List α) (epsilon : α) :
    Except ResidualError (Residual α) := do
  measure (← A.toSparse?) b x epsilon

end Residual

end SymSolve
