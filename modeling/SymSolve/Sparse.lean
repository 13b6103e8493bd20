import SymSolve.Dense

/-!
# Coordinate matrices

A `Sparse` matrix is a list of entries with their positions. A position may occur several times;
the matrix it denotes has there the sum, taken from the left. `merged` lists each position once,
by rows and within a row by columns. An explicit zero is an entry like any other.
-/

namespace SymSolve

/-- A value at a position of an `m × n` matrix. -/
structure Entry (m n : Nat) (α : Type) where
  row : Fin m
  col : Fin n
  value : α

/-- A matrix as a list of entries. -/
structure Sparse (α : Type) where
  height : Nat
  width : Nat
  entries : List (Entry height width α)

namespace Entry

variable {m n : Nat} {α : Type}

/-- Whether two entries stand at the same position. -/
def samePlace (a b : Entry m n α) : Bool := a.row = b.row ∧ a.col = b.col

/-- The order by rows, then by columns. -/
def before (a b : Entry m n α) : Bool := a.row < b.row ∨ (a.row = b.row ∧ a.col < b.col)

/-- The position of the entry or of its mirror image, whichever is on or below the diagonal. -/
def lowerPlace (e : Entry n n α) : Fin n × Fin n :=
  if e.row < e.col then (e.col, e.row) else (e.row, e.col)

/-- Adds an entry to a list without repeated positions, sorted by `before`. -/
def insert [Add α] (e : Entry m n α) : List (Entry m n α) → List (Entry m n α)
  | [] => [e]
  | f :: fs =>
    if e.samePlace f then { f with value := f.value + e.value } :: fs
    else if e.before f then e :: f :: fs
    else f :: insert e fs

end Entry

namespace Sparse

variable {α : Type}

/-- The entries with equal positions summed, sorted by rows and columns. -/
def merged [Add α] (A : Sparse α) : Sparse α :=
  { A with entries := A.entries.foldl (fun sorted e => e.insert sorted) [] }

/-- The entries on and below the diagonal. -/
def lower (A : Sparse α) : Sparse α :=
  { A with entries := A.entries.filter fun e => (e.col : Nat) ≤ e.row }

/-- The values at one position, in the order of the list. -/
def valuesAt (A : Sparse α) (i j : Nat) : List α :=
  (A.entries.filter fun e => (e.row : Nat) = i ∧ (e.col : Nat) = j).map Entry.value

/-- The entries of one row. -/
def inRow (A : Sparse α) (i : Fin A.height) : List (Entry A.height A.width α) :=
  A.entries.filter fun e => decide (e.row = i)

section Scalar

variable [Scalar α]

/-- The entry at `(i, j)` of the matrix denoted. -/
def value (A : Sparse α) (i j : Nat) : α := Scalar.sum (A.valuesAt i j)

/-- The entries that are not zero (a NaN is not) of a table given row by row. -/
def ofRows (height width : Nat) (entries : List α) : Sparse α where
  height
  width
  entries := (List.finRange height).flatMap fun i =>
    (List.finRange width).filterMap fun j =>
      match entries[i.val * width + j.val]? with
      | some v => if Scalar.eq v 0 then none else some ⟨i, j, v⟩
      | none => none

/-- The product with a vector; `none` when the lengths do not fit. -/
def mulVec? (A : Sparse α) (x : List α) : Option (List α) :=
  if x.length = A.width then
    some <| (List.finRange A.height).map fun i =>
      Scalar.sum ((A.inRow i).map fun e => e.value * (x[e.col.val]?).getD 0)
  else none

/-- The sums of magnitudes along the rows. Equal positions are summed before the magnitude is
taken. -/
def rowMagnitudes (A : Sparse α) : List α :=
  (List.finRange A.height).map fun i =>
    Scalar.sum ((A.merged.inRow i).map fun e => Scalar.abs e.value)

end Scalar

/-- Why coordinate data do not describe a matrix. -/
inductive Malformed where
  | lengthsDiffer
  | outside
  deriving DecidableEq, Repr

/-- Reads coordinate data given as parallel lists. -/
def ofCoordinates (height width : Nat) (rows cols : List Int) (values : List α) :
    Except Malformed (Sparse α) :=
  if rows.length = values.length ∧ cols.length = values.length then
    let entry (p : (Int × Int) × α) : Except Malformed (Entry height width α) :=
      let ((i, j), v) := p
      if h : (0 ≤ i ∧ 0 ≤ j) ∧ i.toNat < height ∧ j.toNat < width then
        .ok ⟨⟨i.toNat, h.2.1⟩, ⟨j.toNat, h.2.2⟩, v⟩
      else .error .outside
    (((rows.zip cols).zip values).mapM entry).map fun entries => ⟨height, width, entries⟩
  else .error .lengthsDiffer

end Sparse

end SymSolve
