import SymSolve.Ldl.Pivot

/-!
# Symmetric indefinite factorization

`Ldl.ofTable?` writes a symmetric table as `A[perm, perm] = L D Lᵀ` with `L` unit lower
triangular and `D` made of blocks of size one and two on the diagonal. Zero pivots stay in `D`,
so singular tables have factors too.
-/

namespace SymSolve

/-- A block-diagonal factorization. -/
structure Ldl (n : Nat) (α : Type) where
  /-- The row of the table that stands in each place. -/
  perm : Vector (Fin n) n
  /-- The unit lower triangle `L`. -/
  lower : Dense n α
  /-- The diagonal of `D`. -/
  diagonal : Vector α n
  /-- Below the diagonal of `D`: the entry at `k` couples places `k` and `k + 1`. The last one is
  zero. -/
  coupling : Vector α n

namespace Ldl

variable {n : Nat} {α : Type} [Scalar α]

/-- The factors of a table without rows. -/
def empty : Ldl 0 α := ⟨#v[], Dense.zero 0, #v[], #v[]⟩

/-- The factors of a table with one row. -/
def ofEntry (a : α) : Ldl 1 α := ⟨#v[leading], Dense.identity 1, #v[a], #v[0]⟩

/-- The factors of a table from those of what its first row leaves. `place` says where the rows
came from before the pivot was brought to the front. -/
def extend (place : Fin (n + 1) → Fin (n + 1)) (pivot : α) (multiplier : Vector α n)
    (rest : Ldl n α) : Ldl (n + 1) α where
  perm := pushFront (place leading) (rest.perm.map fun i => place i.succ)
  lower := Dense.ofFn fun i j =>
    Fin.cases (motive := fun _ => α) (if j = leading then 1 else 0)
      (fun i => Fin.cases (motive := fun _ => α) (multiplier.get (rest.perm.get i))
        (fun j => rest.lower.get i j) j) i
  diagonal := pushFront pivot rest.diagonal
  coupling := pushFront 0 rest.coupling

/-- The factors of a table from those of what its first two rows leave. -/
def extendPair (place : Fin (n + 2) → Fin (n + 2)) (pivot : Pair α)
    (multiplier : Vector (α × α) n) (rest : Ldl n α) : Ldl (n + 2) α where
  perm := pushFront (place leading)
    (pushFront (place leading.succ) (rest.perm.map fun i => place i.succ.succ))
  lower := Dense.ofFn fun i j =>
    Fin.cases (motive := fun _ => α) (if j = leading then 1 else 0)
      (fun i => Fin.cases (motive := fun _ => α) (if j = leading.succ then 1 else 0)
        (fun i =>
          let (first, second) := multiplier.get (rest.perm.get i)
          Fin.cases (motive := fun _ => α) first
            (fun j => Fin.cases (motive := fun _ => α) second (fun j => rest.lower.get i j) j) j)
        i) i
  diagonal := pushFront pivot.a (pushFront pivot.d rest.diagonal)
  coupling := pushFront pivot.c (pushFront 0 rest.coupling)

/-- The factors of a symmetric table, with pivots that are at least `bound` times the largest
entry below them. There are none when a pair of rows that is to be eliminated is singular, which
exact arithmetic rules out. -/
def factor? (bound : α) : {n : Nat} → Dense n α → Option (Ldl n α)
  | 0, _ => some empty
  | 1, A => some (ofEntry (A.get leading leading))
  | _ + 2, A =>
    match Pivot.choose bound A with
    | .single r =>
      let B := A.exchange leading r
      let (multiplier, rest) := B.eliminate
      (factor? bound rest).map (extend (exchange leading r) (B.get leading leading) multiplier)
    | .pair r =>
      let B := A.exchange leading.succ r.succ
      match B.eliminatePair? with
      | none => none
      | some (multiplier, rest) =>
        (factor? bound rest).map
          (extendPair (exchange leading.succ r.succ) B.leadingPair multiplier)

/-- One half: a larger demand on pivots could not always be met. -/
def strictest : α := 1 / (1 + 1)

/-- The demand on pivots that a threshold stands for: at least zero and at most one half. -/
def boundOf (threshold : α) : α := Scalar.smaller (Scalar.larger threshold 0) strictest

/-- The factors of a symmetric table for a pivot threshold. -/
def ofTable? (threshold : α) (A : Dense n α) : Option (Ldl n α) := factor? (boundOf threshold) A

/-- The places at which a block of size two starts. -/
def pairs (F : Ldl n α) : List (Fin n) :=
  (List.finRange n).filter fun k => !Scalar.eq (F.coupling.get k) 0

/-- Every entry of both factors is finite. -/
def allFinite (F : Ldl n α) : Bool :=
  F.lower.allFinite && F.diagonal.toList.all Scalar.isFinite &&
    F.coupling.toList.all Scalar.isFinite

end Ldl

end SymSolve
