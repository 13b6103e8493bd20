import SymSolve.Word

/-!
# Doubles as dyadic rationals

A finite double is `±significand · 2 ^ exponent`; `decode` reads the two numbers off its bits.
In the other direction `nearest num den` is the double closest to the quotient `num / den`, a
tie going to the even significand, and `nearestDecimal` does the same for decimal text.
All of it is exact arithmetic on natural numbers.
-/

namespace SymSolve.Decimal

/-- What the 64 bits of a double denote. -/
inductive Datum where
  | finite (negative : Bool) (significand : Nat) (exponent : Int)
  | infinite (negative : Bool)
  | notANumber
  deriving DecidableEq, Repr

/-- The leading bit of the significand of a double, which is not stored. -/
def leadingBit : Nat := 4503599627370496

theorem leadingBit_eq : leadingBit = Nat.pow 2 52 := rfl

/-- The exponent of the least positive double. -/
def leastExponent : Int := -1074

/-- Splits the bits of a double into sign, significand and exponent. -/
def decode (x : Float) : Datum :=
  let bits := x.toBits.toNat
  let negative := decide (signBit ≤ bits)
  let field : Nat := bits / leadingBit % 2048
  let fraction : Nat := bits % leadingBit
  if field = 2047 then
    if fraction = 0 then .infinite negative else .notANumber
  else if field = 0 then
    .finite negative fraction leastExponent
  else
    .finite negative (leadingBit + fraction) ((field : Int) + leastExponent - 1)

/-- The fraction `n / (d · base ^ e)` as a pair of natural numbers. -/
def scaleDown (base n d : Nat) (e : Int) : Nat × Nat :=
  if 0 ≤ e then (n, d * Nat.pow base e.toNat) else (n * Nat.pow base (-e).toNat, d)

/-- The integer nearest to `n / d`; a half goes to the even neighbour. -/
def roundHalfEven (n d : Nat) : Nat :=
  let q := n / d
  let twice := 2 * (n % d)
  if twice < d then q
  else if d < twice then q + 1
  else if q % 2 = 0 then q else q + 1

/-- Positive infinity, as bits. -/
def infinityBits : Nat := 2047 * leadingBit

/-- The significand and the exponent of the double nearest to `num / den` (a positive fraction),
as if exponents had no upper bound. A significand of `2 ^ 53` stands for its half at the next
exponent. -/
def nearestDyadic (num den : Nat) : Nat × Int :=
  let guess : Int := (num.log2 : Int) - den.log2 - 53
  let (n, d) := scaleDown 2 num den guess
  let e := max (if 2 * leadingBit ≤ n / d then guess + 1 else guess) leastExponent
  let (n, d) := scaleDown 2 num den e
  (roundHalfEven n d, e)

/-- The bits of the double nearest to `num / den` (a positive fraction). -/
def nearestBits (num den : Nat) : Nat :=
  let (r, e) := nearestDyadic num den
  -- a significand that reaches `2 ^ 53` carries into the exponent field by itself
  let bits := if r < leadingBit then r
    else (e - leastExponent + 1).toNat * leadingBit + (r - leadingBit)
  min bits infinityBits

/-- The least integer that is not below the double nearest to `num / den`. -/
def nearestCeil (num den : Nat) : Nat :=
  let (r, e) := nearestDyadic num den
  if 0 ≤ e then r * Nat.pow 2 e.toNat
  else (r + Nat.pow 2 (-e).toNat - 1) / Nat.pow 2 (-e).toNat

/-- The double nearest to `num / den`, infinite when it is too large. -/
def nearest (num den : Nat) : Float :=
  if num = 0 then 0.0 else Float.ofBits (nearestBits num den).toUInt64

/-- How many decimal digits `n` has; zero has one. -/
def digitCount (n : Nat) : Nat := (Nat.toDigits 10 n).length

/-- The double nearest to `significand · 10 ^ exponent`. The two early exits answer for
exponents whose powers of ten need not be formed. -/
def nearestDecimal (significand : Nat) (exponent : Int) : Float :=
  let top := exponent + digitCount significand
  if significand = 0 ∨ top < -330 then 0.0
  else if 330 < top then Float.ofBits infinityBits.toUInt64
  else
    let (n, d) := scaleDown 10 significand 1 (-exponent)
    nearest n d

/-- The double nearest to an integer. -/
def ofInt (i : Int) : Float :=
  let magnitude := nearest i.natAbs 1
  if i < 0 then -magnitude else magnitude

end SymSolve.Decimal
