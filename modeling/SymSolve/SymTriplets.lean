import SymSolve.Grid
import SymSolve.Sparse
import SymSolve.ViewError

/-!
# Symmetric matrices as triplets

A symmetric matrix is given by entries in one triangle or in both; an entry off the diagonal
stands for itself and its mirror image. The positions of a matrix never change. Its values can
be replaced, and every replacement draws a new tag, so that whoever remembers a tag sees whether
the values are still the same.
-/

namespace SymSolve

/-! ## Tags -/

/-- The source of tags: the last one handed out. -/
structure TagSource where
  last : Nat
  deriving DecidableEq, Repr

/-- Computations that may draw tags and may refuse. Tags drawn before a refusal stay drawn. -/
abbrev Tagged (ε : Type) := ExceptT ε (StateM TagSource)

/-- Draws the next tag; the first one is 1. -/
def drawTag {ε : Type} : Tagged ε Nat := do
  let source ← get
  set (⟨source.last + 1⟩ : TagSource)
  return source.last + 1

/-! ## Views -/

/-- A buffer with its first words replaced. -/
def overwriteFront {α : Type} (front buffer : Array α) : Array α :=
  front ++ buffer.extract front.size

/-- What a solver sees of a symmetric matrix: positions, values in the same order, and the tag
of the values. -/
structure MatrixView (α : Type) where
  dim : Nat
  rows : List Nat
  cols : List Nat
  values : List α
  tag : Nat

/-- The number of entries. -/
def MatrixView.nonzeros {α : Type} (m : MatrixView α) : Nat := m.rows.length

/-- Whether the values may differ from those that carried `tag`. -/
def MatrixView.hasChanged {α : Type} (m : MatrixView α) (tag : Nat) : Bool := m.tag != tag

/-- Writes the values to the front of a buffer that is long enough. -/
def MatrixView.fill {α : Type} (m : MatrixView α) (out : Array α) : Except ViewError (Array α) :=
  if out.size < m.values.length then .error .shortOutput
  else .ok (overwriteFront m.values.toArray out)

/-- A symmetric matrix as a list of entries. -/
structure SymTriplets (α : Type) where
  dim : Nat
  entries : List (Entry dim dim α)
  tag : Nat

namespace SymTriplets

variable {α : Type}

/-- The number of entries. -/
def nonzeros (A : SymTriplets α) : Nat := A.entries.length

/-- The values, in the order of the entries. -/
def values (A : SymTriplets α) : List α := A.entries.map Entry.value

/-- The view handed to a solver. -/
def view (A : SymTriplets α) : MatrixView α where
  dim := A.dim
  rows := A.entries.map fun e => e.row
  cols := A.entries.map fun e => e.col
  values := A.values
  tag := A.tag

/-- The full symmetric matrix: all entries, then the mirror images of those off the diagonal. -/
def full (A : SymTriplets α) : Sparse α where
  height := A.dim
  width := A.dim
  entries := A.entries ++ A.entries.filterMap fun e =>
    if e.row = e.col then none else some ⟨e.col, e.row, e.value⟩

section Scalar

variable [Scalar α]

/-- The matrix denoted, as a table. -/
def toDense (A : SymTriplets α) : Dense A.dim α :=
  let full := A.full
  Dense.ofFn fun i j => full.value i j

/-- Replaces the values under a new tag. Refused values leave the matrix and the tags alone. -/
def setValues (A : SymTriplets α) (values : List α) : Tagged ViewError (SymTriplets α) :=
  if values.length ≠ A.nonzeros then throw (.valueCount A.nonzeros values.length)
  else if !values.all Scalar.isFinite then throw .notFinite
  else do
    let tag ← drawTag
    return { A with entries := A.entries.zipWith (fun e v => { e with value := v }) values, tag }

/-- The zero matrix with the given entries. -/
def ofPositions (dim : Nat) (positions : List (Fin dim × Fin dim)) :
    Tagged ViewError (SymTriplets α) := do
  let tag ← drawTag
  return { dim, entries := positions.map fun (i, j) => ⟨i, j, 0⟩, tag }

/-- Checks that two lists are the row and column indices of entries of an `n × n` matrix. -/
def checkedPositions (n : Nat) (rows cols : List Int) :
    Except ViewError (List (Fin n × Fin n)) :=
  if rows.length ≠ cols.length then .error .positionCounts
  else (rows.zip cols).mapM fun (i, j) =>
    if h : (0 ≤ i ∧ 0 ≤ j) ∧ i.toNat < n ∧ j.toNat < n then
      .ok (⟨i.toNat, h.2.1⟩, ⟨j.toNat, h.2.2⟩)
    else .error .outOfRange

/-- A matrix from its dimension, the indices of its entries and, if given, their values. Without
values all entries are zero. -/
def ofTriplets (dim : Int) (rows cols : List Int) (values : Option (List α)) :
    Tagged ViewError (SymTriplets α) := do
  if dim < 0 then throw .negativeDim
  let positions ← (checkedPositions dim.toNat rows cols : Except ViewError _)
  let zero ← ofPositions dim.toNat positions
  match values with
  | none => return zero
  | some values => zero.setValues values

/-- The symmetric matrix with the lower triangle of a coordinate matrix. Explicit zeros stay
entries. -/
def ofSparse (A : Sparse α) : Tagged ViewError (SymTriplets α) := do
  if h : A.height = A.width then
    let lower := A.lower.merged.entries
    let zero ← ofPositions A.height (lower.map fun e => (e.row, e.col.cast h.symm))
    zero.setValues (lower.map Entry.value)
  else throw .notSquare

/-- The symmetric matrix with the lower triangle of a table: the entries that are not zero, and
the whole diagonal, so that a zero pivot can be seen. -/
def ofTable (table : Grid α) : Tagged ViewError (SymTriplets α) := do
  match table.extents? with
  | some (m, n) =>
    if m ≠ n then throw .notSquareTable
    let entry (i j : Fin n) : α := (table.entries[i.val * n + j.val]?).getD 0
    let positions := (List.finRange n).flatMap fun i =>
      (List.finRange n).filterMap fun j =>
        if j < i ∧ Scalar.eq (entry i j) 0 = false ∨ i = j then some (i, j) else none
    let zero ← ofPositions n positions
    zero.setValues (positions.map fun (i, j) => entry i j)
  | none => throw .notSquareTable

end Scalar

end SymTriplets

end SymSolve
