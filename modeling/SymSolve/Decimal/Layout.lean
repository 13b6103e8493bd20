import SymSolve.Decimal.Digits

/-!
# Written forms of a double

A `Layout` says how many digits a number gets and where positional notation gives way to an
exponent; `Layout.write` is the only place that turns digits into text.
-/

namespace SymSolve.Decimal

/-- The conventions of one written form. -/
structure Layout where
  /-- How many significant digits; `none` for the fewest that read back. -/
  count : Option Nat
  /-- Zeros that end the digits are written. -/
  trailingZeros : Bool
  /-- Powers of the first digit from the first bound up to, not including, the second one are
  written without an exponent; `none` for an exponent always. -/
  positional : Option (Int × Int)
  /-- A whole number in positional notation ends in `.0`. -/
  pointZero : Bool

namespace Layout

/-- The shortest text that reads back: `5.0`, `0.0001`, `1e-05`, `1.5e+16`. -/
def exact : Layout := ⟨none, false, some (-4, 16), true⟩

/-- `places` digits after the point and an exponent of at least two digits: `1.500e+00`. -/
def scientific (places : Nat) : Layout := ⟨some (places + 1), true, none, false⟩

/-- At most `count` digits, an exponent only for very small and very large numbers. -/
def general (count : Nat) : Layout := ⟨some count, false, some (-4, count), false⟩

end Layout

/-- `n` in decimal, as characters. -/
def natChars (n : Nat) : List Char := Nat.toDigits 10 n

/-- Drops the zeros that end a list of digits, but never all digits. -/
def trimZeros (digits : List Char) : List Char :=
  match (digits.reverse.dropWhile (· = '0')).reverse with
  | [] => ['0']
  | ds => ds

/-- An exponent has a sign and at least two digits. -/
def exponentChars (e : Int) : List Char :=
  let digits := natChars e.natAbs
  'e' :: (if e < 0 then '-' else '+') :: (if digits.length < 2 then '0' :: digits else digits)

/-- The digits with a point after the first `whole` of them. -/
def pointAfter (whole : Nat) (digits : List Char) : List Char :=
  match digits.drop whole with
  | [] => digits
  | fraction => digits.take whole ++ '.' :: fraction

namespace Layout

/-- The text of a digit string whose first digit stands at `10 ^ power`. -/
def arrange (layout : Layout) (digits : List Char) (power : Int) : List Char :=
  let digits := if layout.trailingZeros then digits else trimZeros digits
  let withExponent := pointAfter 1 digits ++ exponentChars power
  match layout.positional with
  | none => withExponent
  | some (low, high) =>
    if power < low ∨ high ≤ power then withExponent
    else if power < 0 then
      '0' :: '.' :: List.replicate (-power - 1).toNat '0' ++ digits
    else
      let whole := power.toNat + 1
      if digits.length ≤ whole then
        digits ++ List.replicate (whole - digits.length) '0' ++
          (if layout.pointZero then ['.', '0'] else [])
      else pointAfter whole digits

/-- The digits of the magnitude of a finite double. Zero is written with its first digit at the
place of the units. -/
def magnitude (layout : Layout) (significand : Nat) (exponent : Int) : List Char :=
  if significand = 0 then
    layout.arrange (List.replicate (layout.count.getD 1) '0') 0
  else
    let d := match layout.count with
      | none => shortest significand exponent
      | some count =>
        let (num, den) := scaleDown 2 significand 1 (-exponent)
        significant count num den
    layout.arrange (natChars d.digits) d.power

/-- The text of a double in this layout. -/
def write (layout : Layout) (x : Float) : String :=
  match decode x with
  | .notANumber => "nan"
  | .infinite negative => if negative then "-inf" else "inf"
  | .finite negative significand exponent =>
    let body := layout.magnitude significand exponent
    String.ofList (if negative then '-' :: body else body)

end Layout

end SymSolve.Decimal
