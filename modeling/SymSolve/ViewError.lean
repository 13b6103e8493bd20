/-!
# What is wrong with a matrix or a vector

The causes for which a matrix view or a vector refuses its data, with their codes and texts.
-/

namespace SymSolve

/-- Why a matrix view or a vector refuses its data. -/
inductive ViewError where
  | negativeDim
  | positionCounts
  | outOfRange
  | notSquareTable
  | notSparse
  | notSquare
  | shortOutput
  | valueCount (expected got : Nat)
  | notFinite
  | negativeVectorDim
  | entryCount (expected got : Nat)
  deriving DecidableEq, Repr

namespace ViewError

/-- The code of a refusal. -/
def code : ViewError → String
  | outOfRange => "E_MATRIX_VIEW_INDEX_OUT_OF_RANGE"
  | negativeVectorDim | entryCount _ _ => "E_VECTOR_VIEW_INVALID"
  | _ => "E_MATRIX_VIEW_INVALID"

/-- The text of a refusal. -/
def text : ViewError → String
  | negativeDim | negativeVectorDim => "dim must be >= 0"
  | positionCounts => "rows and cols must have equal length"
  | outOfRange => "triplet index out of range"
  | notSquareTable => "dense matrix must be square"
  | notSparse => "matrix must be a SciPy sparse matrix"
  | notSquare => "matrix must be square"
  | shortOutput => "output buffer shorter than nonzeros"
  | valueCount expected got | entryCount expected got => s!"expected {expected} values, got {got}"
  | notFinite => "matrix values must be finite"

end ViewError

end SymSolve
