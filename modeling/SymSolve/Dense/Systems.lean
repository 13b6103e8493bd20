import SymSolve.Dense

/-!
# Linear systems with square tables

Forward and backward substitution with a unit lower triangle, and elimination with row pivoting
for any table. Each recursion peels off the first row and column, so that each of its laws is
one induction on the dimension.
-/

namespace SymSolve

/-- Whether `a` comes before `b` in a search for the largest: it is larger, or it is the first
one that is no number. -/
def outranks {α : Type} [Scalar α] (a b : α) : Bool :=
  Scalar.lt b a || (Scalar.isNaN a && !Scalar.isNaN b)

/-- The first index at which `f` is largest. The first index at which `f` is no number counts as
larger still. -/
def largestAt {n : Nat} {α : Type} [Scalar α] (f : Fin (n + 1) → α) : Fin (n + 1) :=
  (List.finRange (n + 1)).foldl (fun best i => if outranks (f i) (f best) then i else best) leading

namespace Dense

variable {α : Type} [Scalar α]

/-- The solution of `L x = b`, where `L` has the entries of the table below the diagonal, ones
on it and zeros above. -/
def forward : {n : Nat} → Dense n α → Vector α n → Vector α n
  | 0, _, b => b
  | _ + 1, L, b =>
    let x := b.get leading
    pushFront x <|
      forward L.trailing (Vector.ofFn fun i => b.get i.succ - L.get i.succ leading * x)

/-- The solution of `Lᵀ x = b` for the same `L`. -/
def backward : {n : Nat} → Dense n α → Vector α n → Vector α n
  | 0, _, b => b
  | n + 1, L, b =>
    let x := backward L.trailing (tail b)
    let column := (List.finRange n).map fun i => L.get i.succ leading
    pushFront (b.get leading - Scalar.dot column x.toList) x

/-- The solution of `A x = b` by elimination: the row with the largest first entry comes to the
top and is subtracted from the others. There is none when that entry is zero. -/
def solve? : {n : Nat} → Dense n α → Vector α n → Option (Vector α n)
  | 0, _, b => some b
  | n + 1, A, b =>
    let r := largestAt fun i => Scalar.abs (A.get i leading)
    let B := A.exchangeRows leading r
    let d : Vector α (n + 1) := Vector.ofFn fun i => b.get (SymSolve.exchange leading r i)
    let pivot := B.get leading leading
    if Scalar.eq pivot 0 then none
    else
      let factor := Vector.ofFn fun i : Fin n => B.get i.succ leading / pivot
      let rest := ofFn fun i j : Fin n => B.get i.succ j.succ - factor.get i * B.get leading j.succ
      let below := Vector.ofFn fun i : Fin n => d.get i.succ - factor.get i * d.get leading
      (rest.solve? below).map fun x =>
        let row := (List.finRange n).map fun j => B.get leading j.succ
        pushFront ((d.get leading - Scalar.dot row x.toList) / pivot) x

end Dense

end SymSolve
