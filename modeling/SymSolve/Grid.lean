/-!
# Rectangular tables of any rank

A `Grid` is what a caller hands in where the number of dimensions still has to be checked: a
single number has shape `[]`, a vector of three has shape `[3]`, two rows of three `[2, 3]`.
The entries are listed row by row.
-/

namespace SymSolve

/-- Numbers with the extents of their dimensions. -/
structure Grid (α : Type) where
  shape : List Nat
  entries : List α
  deriving Repr

namespace Grid

variable {α : Type}

/-- The grid of a vector. -/
def ofList (entries : List α) : Grid α := ⟨[entries.length], entries⟩

/-- The entries of a grid with one dimension. -/
def vector? (g : Grid α) : Option (List α) :=
  match g.shape with
  | [_] => some g.entries
  | _ => none

/-- The extents of a grid with two dimensions. -/
def extents? (g : Grid α) : Option (Nat × Nat) :=
  match g.shape with
  | [m, n] => some (m, n)
  | _ => none

theorem vector?_ofList (entries : List α) : (ofList entries).vector? = some entries := rfl

end Grid

end SymSolve
