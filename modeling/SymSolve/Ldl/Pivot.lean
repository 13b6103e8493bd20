import SymSolve.Dense.Systems

/-!
# Pivots of a symmetric elimination

One pass of the elimination takes either one row to the front, or two. `Pivot.choose` decides,
and `Dense.eliminate` and `Dense.eliminatePair?` carry the pass out: they return what becomes of
the columns that are eliminated, and the table that is left.

A first diagonal entry is good enough when it is at least `bound` times the largest entry
below it. If it is not, the row of that largest entry takes part in the choice.
-/

namespace SymSolve

/-- What one pass on a table of size `n + 2` eliminates. -/
inductive Pivot (n : Nat) where
  /-- Row `r`, brought to the front. -/
  | single (r : Fin (n + 2))
  /-- The first row and the one with number `r` among the rows below it. -/
  | pair (r : Fin (n + 1))
  deriving DecidableEq, Repr

variable {n : Nat} {α : Type} [Scalar α]

/-- The pivot of the next pass. -/
def Pivot.choose (bound : α) (A : Dense (n + 2) α) : Pivot n :=
  let below (i : Fin (n + 1)) : α := Scalar.abs (A.get i.succ leading)
  let r := largestAt below
  let largest := below r
  let first := A.get leading leading
  let isZero (a : α) : Bool := Scalar.eq a 0
  if Scalar.lt 0 largest && !(!isZero first && Scalar.le (bound * largest) (Scalar.abs first)) then
    let others (i : Fin (n + 2)) : α := if i = r.succ then 0 else Scalar.abs (A.get i r.succ)
    let rival := others (largestAt others)
    if isZero first || Scalar.lt (Scalar.abs first * rival) (bound * largest * largest) then
      let diagonal := A.get r.succ r.succ
      if !isZero diagonal && Scalar.le (bound * rival) (Scalar.abs diagonal) then .single r.succ
      else .pair r
    else .single leading
  else .single leading

/-! ## One row -/

/-- Eliminates the first row: the multipliers of the rows below it, and the table that is left.
A zero pivot stands only above zeros, and then there is nothing to do. -/
def Dense.eliminate (A : Dense (n + 1) α) : Vector α n × Dense n α :=
  let pivot := A.get leading leading
  if Scalar.eq pivot 0 then (Vector.replicate n 0, A.trailing)
  else
    let multiplier := Vector.ofFn fun i : Fin n => A.get i.succ leading / pivot
    (multiplier,
      Dense.ofFn fun i j => A.get i.succ j.succ - multiplier.get i * A.get j.succ leading)

/-! ## Two rows -/

/-- The table with rows `(a, b)` and `(c, d)`. -/
structure Pair (α : Type) where
  a : α
  b : α
  c : α
  d : α

namespace Pair

/-- Whether the second row has the larger first entry. -/
def secondLeads (m : Pair α) : Bool := Scalar.lt (Scalar.abs m.a) (Scalar.abs m.c)

/-- The same rows, the one with the larger first entry on top. -/
def ordered (m : Pair α) : Pair α := if m.secondLeads then ⟨m.c, m.d, m.a, m.b⟩ else m

/-- The last pivot of the ordered rows. -/
def lastPivot (m : Pair α) : α := m.ordered.d - m.ordered.c / m.ordered.a * m.ordered.b

/-- One of the two pivots is zero. -/
def isSingular (m : Pair α) : Bool := Scalar.eq m.ordered.a 0 || Scalar.eq m.lastPivot 0

/-- The solution for the right-hand side `(y, z)`, if the table is not singular. -/
def solve (m : Pair α) (y z : α) : α × α :=
  let (y, z) := if m.secondLeads then (z, y) else (y, z)
  let second := (z - m.ordered.c / m.ordered.a * y) / m.lastPivot
  ((y - m.ordered.b * second) / m.ordered.a, second)

end Pair

/-- The leading two rows and columns. -/
def Dense.leadingPair (A : Dense (n + 2) α) : Pair α :=
  ⟨A.get leading leading, A.get leading leading.succ, A.get leading.succ leading,
    A.get leading.succ leading.succ⟩

/-- Eliminates the first two rows together. There is no result when other rows need the pair
solved and it is singular. -/
def Dense.eliminatePair? (A : Dense (n + 2) α) : Option (Vector (α × α) n × Dense n α) :=
  let m := A.leadingPair
  if n ≠ 0 ∧ m.isSingular then none
  else
    let multiplier := Vector.ofFn fun i : Fin n =>
      m.solve (A.get i.succ.succ leading) (A.get i.succ.succ leading.succ)
    some (multiplier, Dense.ofFn fun i j =>
      A.get i.succ.succ j.succ.succ -
        ((multiplier.get i).1 * A.get j.succ.succ leading +
          (multiplier.get i).2 * A.get j.succ.succ leading.succ))

end SymSolve
