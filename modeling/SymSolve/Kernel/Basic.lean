import SymSolve.Kernel.Info
import SymSolve.Scalar

/-!
# Factorization kernels

A kernel analyses the structure of a sparse symmetric matrix, factorizes the matrix and solves
with the factors. It works in buffers that its caller owns: it may overwrite them, but not
change their lengths, and it may keep a state of its own. Positions are counted from one.

A step returns the buffers as it leaves them, whether it answers or breaks down.
-/

namespace SymSolve

/-- The control words of a kernel. -/
abbrev Controls (α : Type) := Vector α 5

namespace Controls

variable {α : Type}

/-- The pivot tolerance. -/
def tolerance (controls : Controls α) : α := controls[0]

/-- The same control words with another pivot tolerance. -/
def withTolerance (c : Controls α) (tolerance : α) : Controls α := c.set 0 tolerance

/-- The magnitude up to which a pivot counts as zero. -/
def zeroPivot (controls : Controls α) : α := controls[2]

/-- The same control words with another bound for zero pivots. -/
def withZeroPivot (c : Controls α) (bound : α) : Controls α := c.set 2 bound

end Controls

/-- Why a kernel gives no answer. -/
inductive Breakdown where
  /-- A singular system. -/
  | singular
  /-- Data that cannot be worked on, such as entries that are not finite. -/
  | invalid
  /-- An index outside of a buffer. -/
  | outOfRange
  /-- A failure known only by name. -/
  | foreign (name : String)
  deriving DecidableEq, Repr

/-- A symmetric matrix as its positions reach a kernel. -/
structure Pattern where
  dim : Int
  rows : List Int
  cols : List Int
  deriving DecidableEq, Repr

/-- What an analysis leaves behind. -/
structure Analysed (σ : Type) (iwLength keepLength : Nat) where
  state : σ
  iw : Vector Int iwLength
  keep : Vector Int keepLength
  answer : Except Breakdown RawInfo

/-- What a factorization leaves behind. -/
structure Factorized (α σ : Type) (aLength iwLength keepLength : Nat) where
  state : σ
  a : Vector α aLength
  iw : Vector Int iwLength
  keep : Vector Int keepLength
  answer : Except Breakdown RawInfo

/-- What a solve leaves behind. -/
structure Solved (α σ : Type) (aLength iwLength rhsLength : Nat) where
  state : σ
  a : Vector α aLength
  iw : Vector Int iwLength
  rhs : Vector α rhsLength
  answer : Except Breakdown Int

/-- A factorization kernel over scalars `α` with a state of type `σ`. -/
structure Kernel (α σ : Type) where
  id : String
  defaultControls : Controls α
  analyse : {iwLength keepLength : Nat} → σ → Pattern → Vector Int iwLength →
    Vector Int keepLength → Controls α → Analysed σ iwLength keepLength
  factorize : {aLength iwLength keepLength : Nat} → σ → Pattern → Vector α aLength →
    Vector Int iwLength → Vector Int keepLength → Controls α →
    Factorized α σ aLength iwLength keepLength
  solve : {aLength iwLength rhsLength : Nat} → σ → (dim : Int) → Vector α aLength →
    Vector Int iwLength → Vector α rhsLength → Solved α σ aLength iwLength rhsLength

/-- What a solve on behalf of a caller comes to: the solution, or a flag that is not zero. -/
structure BacksolveResult (α : Type) where
  solution : Option (List α)
  flag : Int

namespace Kernel

variable {α σ : Type}

/-- The flag that stands for a singular matrix. -/
def singularFlag : Int := -5

/-- Reads the outcome of a solve. A singular system and data that cannot be worked on count as a
singular matrix; other breakdowns are passed on. -/
def readSolve {n : Nat} (rhs : Vector α n) : Except Breakdown Int →
    Except Breakdown (BacksolveResult α)
  | .ok flag => .ok ⟨if flag = 0 then some rhs.toList else none, flag⟩
  | .error .singular | .error .invalid => .ok ⟨none, singularFlag⟩
  | .error failure => .error failure

end Kernel

end SymSolve
