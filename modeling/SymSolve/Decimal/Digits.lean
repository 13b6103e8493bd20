import SymSolve.Decimal.Binary64

/-!
# Decimal digits of a positive fraction

A decimal is a digit string with the power of ten of its first digit. `significant k` rounds a
fraction to `k` digits; `shortest` gives a double the fewest digits that read back to it, and of
those the nearest ones.
-/

namespace SymSolve.Decimal

/-- `digits · 10 ^ (power + 1 - count)`, where `count` is the number of digits: the first digit
stands at the place `10 ^ power`. -/
structure Digits where
  digits : Nat
  power : Int
  deriving DecidableEq, Repr

/-- The power of ten of the first digit of `num / den`. -/
def leadingPower (num den : Nat) : Int :=
  let guess : Int := (digitCount num : Int) - digitCount den
  let (n, d) := scaleDown 10 num den guess
  if d ≤ n then guess else guess - 1

/-- The decimal with `count` digits `r` from `10 ^ power` on, where rounding may have made `r` one
digit longer. -/
def Digits.carried (count r : Nat) (power : Int) : Digits :=
  if r = Nat.pow 10 count then ⟨Nat.pow 10 (count - 1), power + 1⟩ else ⟨r, power⟩

/-- `num / den` to `count` significant digits, correctly rounded, a half to the even digit. -/
def significant (count num den : Nat) : Digits :=
  let power := leadingPower num den
  let (n, d) := scaleDown 10 num den (power + 1 - count)
  .carried count (roundHalfEven n d) power

/-- The reals that round to a double, with the double itself, in units of `2 ^ unit`. -/
structure Cell where
  low : Nat
  middle : Nat
  high : Nat
  unit : Int
  closed : Bool

/-- The cell of the positive double `significand · 2 ^ exponent`. Below a power of two the
neighbours stand twice as close. -/
def Cell.of (significand : Nat) (exponent : Int) : Cell where
  low := if significand = leadingBit ∧ leastExponent < exponent
    then 4 * significand - 1 else 4 * significand - 2
  middle := 4 * significand
  high := 4 * significand + 2
  unit := exponent - 2
  closed := significand % 2 = 0

/-- Whether `candidate / den`, in units of the cell, lies in it. -/
def Cell.contains (c : Cell) (candidate den : Nat) : Bool :=
  if c.closed then c.low * den ≤ candidate ∧ candidate ≤ c.high * den
  else c.low * den < candidate ∧ candidate < c.high * den

/-- The decimal of `count` digits in the cell that is nearest to its middle, if there is one.
Only the two neighbours of the middle on the decimal grid can be it. -/
def Cell.decimal? (c : Cell) (count : Nat) : Option Digits :=
  -- the double as a fraction, and the grid step `10 ^ step`
  let (num, den) := scaleDown 2 c.middle 1 (-c.unit)
  let power := leadingPower num den
  let step := power + 1 - count
  let (n, d) := scaleDown 10 num den step
  let below := n / d
  -- a grid point in units of the cell is `point · 10 ^ step / 2 ^ unit`
  let place (point : Nat) : Nat × Nat :=
    let (x, y) := scaleDown 10 point 1 (-step)
    scaleDown 2 x y c.unit
  let inside (point : Nat) : Bool :=
    let (x, y) := place point
    c.contains x y
  let nearerBelow := 2 * (n % d) < d ∨ (2 * (n % d) = d ∧ below % 2 = 0)
  let choice :=
    match inside below, inside (below + 1) with
    | true, true => some (if nearerBelow then below else below + 1)
    | true, false => some below
    | false, true => some (below + 1)
    | false, false => none
  choice.map fun r => .carried count r power

/-- The fewest digits that read back to the positive double `significand · 2 ^ exponent`.
Seventeen always do. -/
def shortest (significand : Nat) (exponent : Int) : Digits :=
  let cell := Cell.of significand exponent
  match (List.range' 1 16).findSome? cell.decimal? with
  | some d => d
  | none =>
    let (num, den) := scaleDown 2 significand 1 (-exponent)
    significant 17 num den

end SymSolve.Decimal
