import SymSolve.Scalar
import SymSolve.ViewError

/-!
# Vectors of a fixed dimension

A vector keeps the dimension it was made with: its entries can be replaced, their number cannot.
-/

namespace SymSolve

/-- A vector of scalars. -/
structure DenseVector (α : Type) where
  entries : List α
  deriving Repr

namespace DenseVector

variable {α : Type}

/-- The number of entries. -/
def dim (v : DenseVector α) : Nat := v.entries.length

/-- The zero vector. -/
def zeros [Zero α] (dim : Int) : Except ViewError (DenseVector α) :=
  if dim < 0 then .error .negativeVectorDim
  else .ok ⟨List.replicate dim.toNat 0⟩

/-- Replaces all entries. -/
def set (v : DenseVector α) (entries : List α) : Except ViewError (DenseVector α) :=
  if entries.length ≠ v.dim then .error (.entryCount v.dim entries.length)
  else .ok ⟨entries⟩

theorem entries_set {v w : DenseVector α} {entries : List α} (h : v.set entries = .ok w) :
    w.entries = entries := by
  simp only [set] at h
  split at h
  · cases h
  · cases h
    rfl

theorem dim_set {v w : DenseVector α} {entries : List α} (h : v.set entries = .ok w) :
    w.dim = v.dim := by
  simp only [set] at h
  split at h
  · cases h
  · cases h
    simp_all [dim]

end DenseVector

end SymSolve
