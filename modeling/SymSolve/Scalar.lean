import SymSolve.Decimal.Layout

/-!
# Scalars

Every numerical algorithm of this library is written once, over a type of scalars with the
four operations and Boolean comparisons. The program runs it on doubles (`instScalarFloat`,
at the end); over an exact field the same definitions are the exact algorithms.

Comparisons are Boolean and nothing is assumed about them: on doubles a NaN is equal to
nothing and ordered against nothing, itself included.
-/

namespace SymSolve

/-- Why a scalar has no integer part. -/
inductive Unbounded where
  | notANumber
  | infinite
  deriving DecidableEq, Repr

/-- Numbers that the algorithms compute with. -/
class Scalar (α : Type) extends Add α, Sub α, Mul α, Div α, Neg α, Zero α, One α where
  lt : α → α → Bool
  le : α → α → Bool
  eq : α → α → Bool
  abs : α → α
  isFinite : α → Bool
  /-- The scalar nearest to `mantissa · 10 ^ exponent`. -/
  ofDecimal : (mantissa : Int) → (exponent : Int) → α
  /-- The distance from 1 to the next larger scalar of the machine. -/
  epsilon : α
  /-- The integer part, toward zero. -/
  truncate : α → Except Unbounded Int

/-- Scalars with roots and powers. -/
class RealScalar (α : Type) extends Scalar α where
  sqrt : α → α
  pow : α → α → α

/-- Scalars that can be written. -/
class Printable (α : Type) where
  /-- Scientific form, with `places` digits after the point. -/
  scientific : (places : Nat) → α → String
  /-- At most `count` significant digits. -/
  general : (count : Nat) → α → String
  /-- The shortest text that reads back. -/
  exact : α → String

namespace Scalar

variable {α : Type} [Scalar α]

/-- The scalar nearest to an integer. -/
def ofInt (i : Int) : α := ofDecimal i 0

/-- The scalar nearest to a natural number. -/
def ofNat (n : Nat) : α := ofInt n

/-- A scalar that differs from itself is no number. -/
def isNaN (a : α) : Bool := !eq a a

/-- The larger of two scalars; the first one where neither is larger. -/
def larger (a b : α) : α := if lt a b then b else a

/-- The smaller of two scalars; the first one where neither is smaller. -/
def smaller (a b : α) : α := if lt b a then b else a

/-- The larger of two scalars, and no number if one of them is none. -/
def peak (a b : α) : α := if isNaN a then a else if isNaN b then b else larger a b

/-- The smaller of two scalars, and no number if one of them is none. -/
def trough (a b : α) : α := if isNaN a then a else if isNaN b then b else smaller a b

/-- The largest of a list, if it is not empty. -/
def maximum? : List α → Option α
  | [] => none
  | a :: as => some (as.foldl peak a)

/-- The smallest of a list, if it is not empty. -/
def minimum? : List α → Option α
  | [] => none
  | a :: as => some (as.foldl trough a)

/-- The largest magnitude in a list; zero if it is empty. -/
def maxAbs (as : List α) : α := (maximum? (as.map abs)).getD 0

/-- The sum, from the left. -/
def sum (as : List α) : α := as.foldl (· + ·) 0

/-- The inner product of two lists, from the left, as long as the shorter one. -/
def dot (as bs : List α) : α := sum (List.zipWith (· * ·) as bs)

end Scalar

/-! ## Doubles -/

/-- The integer part of a double. -/
def truncateFloat (x : Float) : Except Unbounded Int :=
  match Decimal.decode x with
  | .notANumber => .error .notANumber
  | .infinite _ => .error .infinite
  | .finite negative significand exponent =>
    let magnitude : Nat :=
      if 0 ≤ exponent then significand * Nat.pow 2 exponent.toNat
      else significand / Nat.pow 2 (-exponent).toNat
    .ok (if negative then -(magnitude : Int) else magnitude)

instance instScalarFloat : Scalar Float where
  zero := 0.0
  one := 1.0
  lt a b := decide (a < b)
  le a b := decide (a ≤ b)
  eq a b := a == b
  abs := Float.abs
  isFinite := Float.isFinite
  ofDecimal mantissa exponent :=
    let magnitude := Decimal.nearestDecimal mantissa.natAbs exponent
    if mantissa < 0 then -magnitude else magnitude
  epsilon := Float.ofBits 0x3cb0000000000000
  truncate := truncateFloat

instance : RealScalar Float where
  sqrt := Float.sqrt
  pow := Float.pow

instance : Printable Float where
  scientific places := (Decimal.Layout.scientific places).write
  general count := (Decimal.Layout.general count).write
  exact := Decimal.Layout.exact.write

end SymSolve
