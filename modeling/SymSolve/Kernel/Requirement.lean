import SymSolve.Decimal.Binary64

/-!
# Lengths that the reference kernel needs

`n` is the dimension of the matrix and `nz` the number of its entries.
-/

namespace SymSolve

/-- Integer words for the analysis. -/
def analysisIntegers (n nz : Int) : Int := 2 * nz + 3 * n + 1

/-- Integer words for a factorization. -/
def factorIntegers (n nz : Int) : Int := nz + 2 * n + 1

/-- Real words for a factorization: the entries before it, the packed factors after it. -/
def factorReals (n nz : Int) : Int := max nz ((n * (n + 1)).fdiv 2 + n)

/-- How often a kernel with `length` words has to compress. It never does while the words that
`required` leaves free are at least as many; else it does once for every free word that goes
into `required`, the quotient rounded to a double first. -/
def compressionCount (length required : Int) : Nat :=
  let free := length - required
  if required ≤ 0 ∨ required ≤ free then 0
  else Decimal.nearestCeil required.toNat (max free 1).toNat

end SymSolve
