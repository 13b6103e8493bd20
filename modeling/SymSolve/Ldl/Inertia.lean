import SymSolve.Ldl.Factor

/-!
# Signs of the eigenvalues of a block diagonal

The eigenvalues of a block of size two are counted without forming them: how many lie below `t`
follows from the signs of the determinant and the trace of the block minus `t`.
-/

namespace SymSolve

/-- A block on the diagonal of `D`: one entry, or the table with rows `(a, b)` and `(b, c)`. -/
inductive Block (α : Type) where
  | one (a : α)
  | two (a b c : α)
  deriving Repr

/-- How many eigenvalues are negative, and how many count as zero. -/
structure Inertia where
  negative : Nat
  zero : Nat
  deriving DecidableEq, Repr

/-- Counts of disjoint blocks add up. -/
def Inertia.add (p q : Inertia) : Inertia := ⟨p.negative + q.negative, p.zero + q.zero⟩

namespace Block

variable {α : Type} [Scalar α]

/-- How many eigenvalues of the table with rows `(a, b)` and `(b, c)` are negative, and how many
are zero. -/
def pairSigns (a b c : α) : Inertia :=
  let determinant := a * c - b * b
  let trace := a + c
  if Scalar.lt determinant 0 then ⟨1, 0⟩
  else if Scalar.eq determinant 0 then
    if Scalar.lt trace 0 then ⟨1, 1⟩ else if Scalar.eq trace 0 then ⟨0, 2⟩ else ⟨0, 1⟩
  else if Scalar.lt trace 0 then ⟨2, 0⟩ else ⟨0, 0⟩

/-- The signs of the eigenvalues, those of magnitude at most `cutoff` counting as zero. The
entries of a pair are divided by the largest of their magnitudes, which keeps products in
range. No eigenvalue counts as zero for a cutoff below zero. -/
def inertia (cutoff : α) : Block α → Inertia
  | one a =>
    if Scalar.le (Scalar.abs a) cutoff then ⟨0, 1⟩
    else if Scalar.lt a 0 then ⟨1, 0⟩ else ⟨0, 0⟩
  | two a b c =>
    let size := Scalar.larger (Scalar.larger (Scalar.abs a) (Scalar.abs b)) (Scalar.abs c)
    let (a, b, c, t) := (a / size, b / size, c / size, cutoff / size)
    if Scalar.le 0 cutoff then
      let low := pairSigns (a + t) b (c + t)
      let high := pairSigns (a - t) b (c - t)
      ⟨low.negative, high.negative + high.zero - low.negative⟩
    else ⟨(pairSigns a b c).negative, 0⟩

end Block

namespace Ldl

variable {n : Nat} {α : Type} [Scalar α]

/-- The blocks of a tridiagonal table with `diagonal` and the entries `coupling` below it, where
an entry of `coupling` that is not zero ties two neighbours together. -/
def blocksOf : List α → List α → List (Block α)
  | a :: c :: diagonal, b :: b' :: coupling =>
    if Scalar.eq b 0 then .one a :: blocksOf (c :: diagonal) (b' :: coupling)
    else .two a b c :: blocksOf diagonal coupling
  | a :: diagonal, _ => .one a :: blocksOf diagonal []
  | [], _ => []

/-- The blocks of `D`. -/
def blocks (F : Ldl n α) : List (Block α) := blocksOf F.diagonal.toList F.coupling.toList

/-- The signs of the eigenvalues of `D`. -/
def inertia (cutoff : α) (F : Ldl n α) : Inertia :=
  (F.blocks.map (Block.inertia cutoff)).foldl Inertia.add ⟨0, 0⟩

end Ldl

end SymSolve
