import SymSolve.Kernel.Basic
import SymSolve.Kernel.Requirement
import SymSolve.Ldl.Inertia
import SymSolve.Ldl.Packed
import SymSolve.Ordering
import SymSolve.SignedIndex
import SymSolve.Sparse

/-!
# The reference kernel

Analysis orders the vertices of the pattern (`Graph.narrowOrder`) and keeps the ordering.
Factorization assembles the matrix, permutes it, factorizes it (`Ldl.ofTable?`) and leaves the
packed factors in `a` and the permutations in `iw`. Solving reads both back. Entries whose
position is outside of the matrix are ignored.

The pivot tolerance only selects pivots; the control word for zero pivots is the magnitude up
to which an eigenvalue of `D` counts as zero, and rounding sets a lower bound for it.
-/

namespace SymSolve.Reference

variable {α : Type} [Scalar α]

/-! ## Positions and the matrix they denote -/

/-- The position that a pair of indices counted from one names, if it is inside of the matrix. -/
def position? (n : Nat) (i j : Int) : Option (Fin n × Fin n) :=
  if h : (1 ≤ i ∧ i ≤ n) ∧ 1 ≤ j ∧ j ≤ n then
    some (⟨(i - 1).toNat, by omega⟩, ⟨(j - 1).toNat, by omega⟩)
  else none

/-- The positions of a structure, `none` where one is outside of the matrix. -/
def positions (n : Nat) (s : Pattern) : List (Option (Fin n × Fin n)) :=
  s.rows.zipWith (position? n) s.cols

/-- Two lists of indices of different lengths do not pair up. A single index that meets several
is found out later than other differences are. -/
def pairingFault? (s : Pattern) : Option Breakdown :=
  if s.rows.length = s.cols.length then none
  else if s.rows.length = 1 ∨ s.cols.length = 1 then some .outOfRange
  else some .invalid

/-- The entries inside of the matrix, each with its own value. -/
def entries {n : Nat} (places : List (Option (Fin n × Fin n))) (values : List α) :
    List (Entry n n α) :=
  (places.zip values).filterMap fun (place, v) => place.map fun (i, j) => ⟨i, j, v⟩

/-- The sum of the entries at `(i, j)` or `(j, i)`. -/
def lowerSum {n : Nat} (es : List (Entry n n α)) (i j : Fin n) : α :=
  Scalar.sum ((es.filter fun e => e.lowerPlace = (i, j)).map Entry.value)

/-- The symmetric matrix with the given entries in one triangle. -/
def assemble {n : Nat} (es : List (Entry n n α)) : Dense n α :=
  let lower := Dense.ofFn (lowerSum es)
  Dense.ofFn fun i j => lower.get i j + lower.get j i - (if i = j then lower.get i i else 0)

/-! ## Analysis -/

/-- What is wrong with the arguments of an analysis. -/
def analysisRefusal? (s : Pattern) (iwLength keepLength : Nat) : Option KernelInfo :=
  let nz := s.rows.length
  if s.dim < 1 then some { flag := -1, detail := s.dim }
  else if s.cols.length ≠ nz then some { flag := -2, detail := nz }
  else if iwLength < analysisIntegers s.dim nz then
    some { flag := -3, detail := analysisIntegers s.dim nz }
  else if keepLength < 3 * s.dim then some { flag := -1, detail := 3 * s.dim }
  else none

/-- What an analysis keeps: the ordering and its inverse, both counted from one, and zeros. -/
def keptOrder {n : Nat} (order : List (Fin n)) : List Int :=
  order.map (fun v => (v.val : Int) + 1) ++
    (List.finRange n).map (fun v => (order.idxOf v : Int) + 1) ++ List.replicate n 0

/-- The answer of an analysis that found the given positions. -/
def analysisInfo {n : Nat} (s : Pattern) (places : List (Option (Fin n × Fin n))) :
    KernelInfo :=
  let outside := places.countP Option.isNone
  { flag := if outside = 0 then 0 else 1
    detail := outside
    realLength := factorReals s.dim s.rows.length
    integerLength := factorIntegers s.dim s.rows.length }

/-- Orders the vertices of the pattern. Positions outside of the matrix are counted, and flag 1
reports them. -/
def analyse {iwLength keepLength : Nat} (s : Pattern) (iw : Vector Int iwLength)
    (keep : Vector Int keepLength) : Analysed Unit iwLength keepLength :=
  match analysisRefusal? s iwLength keepLength with
  | some info => ⟨(), iw, keep, .ok info.toRaw⟩
  | none =>
    let n := s.dim.toNat
    let places := positions n s
    let order := (Graph.ofEdges (places.filterMap id)).narrowOrder
    let cleared := Array.replicate (analysisIntegers s.dim s.rows.length).toNat (0 : Int)
    { state := ()
      iw := overwrite iw cleared
      keep := overwrite keep (keptOrder order).toArray
      answer := .ok (analysisInfo s places).toRaw }

/-! ## Factorization -/

/-- What is wrong with the arguments of a factorization. -/
def factorRefusal? (s : Pattern) (aLength iwLength : Nat) : Option KernelInfo :=
  let nz := s.rows.length
  if s.dim < 1 then some { flag := -1, detail := s.dim }
  else if iwLength < factorIntegers s.dim nz then
    some { flag := -3, detail := factorIntegers s.dim nz }
  else if aLength < factorReals s.dim nz then
    some { flag := -4, detail := factorReals s.dim nz }
  else none

/-- The magnitude up to which eigenvalues of the factors of `A` count as zero. -/
def zeroCutoff {m : Nat} (n : Nat) (bound : α) (A : Dense m α) : α :=
  Scalar.larger bound (Scalar.ofNat n * Scalar.epsilon * Scalar.maxAbs A.toList)

/-- The answer of a factorization with factors of the given inertia. -/
def factorInfo (s : Pattern) (aLength iwLength : Nat) (inertia : Inertia) : KernelInfo :=
  let reals := factorReals s.dim s.rows.length
  let integers := factorIntegers s.dim s.rows.length
  let rank : Int := s.dim - inertia.zero
  { flag := if rank < s.dim then 3 else 0
    detail := if rank < s.dim then rank else 0
    realLength := reals
    integerLength := integers
    realCompressions := compressionCount aLength reals
    integerCompressions := compressionCount iwLength integers
    rank
    negative := inertia.negative }

/-- The integer words that a factorization leaves: the dimension, the permutation of the pivots
counted from one, and the ordering it was given. -/
def factorWords {n : Nat} (perm : Vector (Fin n) n) (order : List Int) : List Int :=
  (n : Int) :: perm.toList.map (fun i => (i.val : Int) + 1) ++ order

/-- Factorizes the matrix with the given entries under the given ordering. No pivot order, or
factors that are not finite, count as a singular matrix; otherwise the factors and their inertia
are returned. An ordering that is too short breaks the factorization down after that. -/
def factorsOf? {n : Nat} (es : List (Entry n n α)) (order : Array (Fin n)) (controls : Controls α) :
    Except Breakdown (Option (Ldl order.size α × Inertia)) :=
  let permuted := (assemble es).select ⟨order, rfl⟩
  match Ldl.ofTable? controls.tolerance permuted with
  | none => .ok none
  | some F =>
    if !F.allFinite then .ok none
    else if order.size = 0 then .error .invalid
    else if order.size < n then .error .outOfRange
    else .ok (some (F, F.inertia (zeroCutoff n controls.zeroPivot permuted)))

/-- The ordering in the front of `keep`. -/
def orderIn? (n : Nat) (keep : List Int) : Option (List (Fin n)) :=
  (keep.take n).mapM fun i => signedIndex? n (i - 1)

/-- Factorizes a matrix whose entries stand in the front of `a`. Only a factorization that
comes to an end writes to its buffers. -/
def factorize {aLength iwLength keepLength : Nat} (s : Pattern) (a : Vector α aLength)
    (iw : Vector Int iwLength) (keep : Vector Int keepLength) (controls : Controls α) :
    Factorized α Unit aLength iwLength keepLength :=
  let unchanged (answer : Except Breakdown RawInfo) : Factorized α Unit _ _ _ :=
    ⟨(), a, iw, keep, answer⟩
  match factorRefusal? s aLength iwLength, pairingFault? s with
  | some info, _ => unchanged (.ok info.toRaw)
  | none, some failure => unchanged (.error failure)
  | none, none =>
    let n := s.dim.toNat
    match orderIn? n keep.toList with
    | none => unchanged (.error .outOfRange)
    | some order =>
      match factorsOf? (entries (positions n s) a.toList) order.toArray controls with
      | .error failure => unchanged (.error failure)
      | .ok none => unchanged (.ok (KernelInfo.toRaw { flag := Kernel.singularFlag }))
      | .ok (some (F, inertia)) =>
        { state := ()
          a := overwrite a F.packed.toArray
          iw := overwrite iw (factorWords F.perm (keep.toList.take n)).toArray
          keep
          answer := .ok (factorInfo s aLength iwLength inertia).toRaw }

/-! ## Solving -/

/-- What is wrong with the arguments of a solve, as a flag. -/
def solveRefusal? (dim : Int) (aLength : Nat) (iw : List Int) : Option Int :=
  if dim < 1 ∨ iw.length < 2 * dim + 1 ∨ iw.head? ≠ some dim then some (-1)
  else if aLength < packedLength dim.toNat + dim.toNat then some (-4)
  else none

/-- Reads `n` indices counted from one. -/
def indices? (m n : Nat) (words : List Int) : Option (Vector (Fin m) n) :=
  Vector.ofFnM fun k : Fin n => signedIndex? m ((words[k.val]?).getD 0 - 1)

/-- Writes `values` to `places`, one after the other. -/
def scatter {m n : Nat} (v : Vector α m) (places : Vector (Fin m) n) (values : Vector α n) :
    Vector α m :=
  (List.finRange n).foldl (fun v k => v.set (places.get k).val (values.get k) (places.get k).isLt) v

/-- Every entry is finite. -/
def finite {n : Nat} (v : Vector α n) : Bool := v.toList.all Scalar.isFinite

/-- Solves with the factors: forward, by the block diagonal, backward. A table or a vector that
is not finite is refused before each of the three. -/
def solveFactors {n : Nat} (F : Unpacked n α) (b : Vector α n) :
    Except Breakdown (Vector α n) :=
  if !(F.lower.allFinite && finite b) then .error .invalid
  else
    let y := F.lower.forward b
    if !(F.blockDiagonal.allFinite && finite y) then .error .invalid
    else
      match F.blockDiagonal.solve? y with
      | none => .error .singular
      | some z => if !finite z then .error .invalid else .ok (F.lower.backward z)

/-- Solves with the factors that a factorization left in `a` and `iw`. A solution that is not
finite counts as a singular matrix and is not written. -/
def solve {aLength iwLength rhsLength : Nat} (dim : Int) (a : Vector α aLength)
    (iw : Vector Int iwLength) (rhs : Vector α rhsLength) :
    Solved α Unit aLength iwLength rhsLength :=
  match solveRefusal? dim aLength iw.toList with
  | some flag => ⟨(), a, iw, rhs, .ok flag⟩
  | none =>
    let n := dim.toNat
    match indices? rhsLength n (iw.toList.drop (n + 1)), indices? n n (iw.toList.drop 1) with
    | some order, some perm =>
      let b : Vector α n := Vector.ofFn fun k => rhs.get (order.get (perm.get k))
      match solveFactors (Unpacked.ofWords n fun k => (a[k]?).getD 0) b with
      | .error failure => ⟨(), a, iw, rhs, .error failure⟩
      | .ok stage =>
        let solution := scatter (Vector.replicate n 0) perm stage
        if finite solution then ⟨(), a, iw, scatter rhs order solution, .ok 0⟩
        else ⟨(), a, iw, rhs, .ok Kernel.singularFlag⟩
    | _, _ => ⟨(), a, iw, rhs, .error .outOfRange⟩

/-! ## The kernel -/

/-- A tenth of the largest entry below is enough for a pivot, and only zero counts as zero. -/
def defaultControls : Controls α := #v[Scalar.ofDecimal 1 (-1), 0, 0, 0, 0]

/-- The reference kernel, which has no state of its own. -/
def kernel : Kernel α Unit where
  id := "dense_ldl_bunch_kaufman"
  defaultControls
  analyse _ s iw keep _ := analyse s iw keep
  factorize _ s a iw keep controls := factorize s a iw keep controls
  solve _ dim a iw rhs := solve dim a iw rhs

end SymSolve.Reference
