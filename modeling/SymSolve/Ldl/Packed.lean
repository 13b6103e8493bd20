import SymSolve.Ldl.Factor

/-!
# Factors in a flat buffer

The rows of the lower triangle stand one after the other, with the diagonal of `D` in place of
the ones of `L`; the entries below the diagonal of `D` follow. Row `i` starts at place
`i (i + 1) / 2`.
-/

namespace SymSolve

/-- How many words the first `n` rows of a triangle take. -/
def packedLength (n : Nat) : Nat := n * (n + 1) / 2

namespace Ldl

variable {n : Nat} {α : Type}

/-- Row `i` of the packed triangle. -/
def packedRow (F : Ldl n α) (i : Fin n) : List α :=
  ((List.finRange i.val).map fun j => F.lower.get i (j.castLE (Nat.le_of_lt i.isLt))) ++
    [F.diagonal.get i]

/-- The packed triangle, and after it the entries below the diagonal of `D`. -/
def packed (F : Ldl n α) : List α :=
  (List.finRange n).flatMap F.packedRow ++ F.coupling.toList.take (n - 1)

end Ldl

/-- The factors of a matrix of dimension `n` as they are read back from a buffer. -/
structure Unpacked (n : Nat) (α : Type) where
  lower : Dense n α
  blockDiagonal : Dense n α

/-- Reads packed factors; `word k` is the content of place `k`. -/
def Unpacked.ofWords {α : Type} [Scalar α] (n : Nat) (word : Nat → α) : Unpacked n α where
  lower := Dense.ofFn fun i j =>
    if j < i then word (packedLength i + j) else if i = j then 1 else 0
  blockDiagonal := Dense.ofFn fun i j =>
    if i = j then word (packedLength i + i)
    else if i.val = j.val + 1 then word (packedLength n + j)
    else if j.val = i.val + 1 then word (packedLength n + i)
    else 0

end SymSolve
