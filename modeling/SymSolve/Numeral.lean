import SymSolve.Scalar

/-!
# Numbers as they are typed

Digits to a base, integers with underscores between their digits, and decimals with a point and
an exponent. Where a whole text has to be a number, white space around it is allowed.
-/

namespace SymSolve.Numeral

/-- White space of all scripts. -/
def isSpace (c : Char) : Bool :=
  let n := c.toNat
  (0x09 ≤ n && n ≤ 0x0d) || (0x1c ≤ n && n ≤ 0x20) || n = 0x85 || n = 0xa0 || n = 0x1680 ||
    (0x2000 ≤ n && n ≤ 0x200a) || n = 0x2028 || n = 0x2029 || n = 0x202f || n = 0x205f ||
    n = 0x3000

/-- A text without the white space around it. -/
def trimmed (cs : List Char) : List Char :=
  ((cs.dropWhile isSpace).reverse.dropWhile isSpace).reverse

/-- The value of a hexadecimal digit. -/
def hexDigit? (c : Char) : Option Nat :=
  if c.isDigit then some (c.toNat - '0'.toNat)
  else if 'a' ≤ c ∧ c ≤ 'f' then some (c.toNat - 'a'.toNat + 10)
  else if 'A' ≤ c ∧ c ≤ 'F' then some (c.toNat - 'A'.toNat + 10)
  else none

/-- The value of digits to a base up to sixteen; there has to be one. -/
def digits? (base : Nat) (cs : List Char) : Option Nat :=
  if cs.isEmpty then none
  else cs.foldl (fun n c => do
    let n ← n
    let d ← hexDigit? c
    if d < base then some (base * n + d) else none) (some 0)

/-- The value of decimal digits with single underscores between them. -/
def grouped? (cs : List Char) : Option Nat :=
  let step (acc : Option (Nat × Bool)) (c : Char) : Option (Nat × Bool) :=
    acc.bind fun (n, afterDigit) =>
      if c.isDigit then some (10 * n + (c.toNat - '0'.toNat), true)
      else if c = '_' ∧ afterDigit then some (n, false)
      else none
  match cs.foldl step (some (0, false)) with
  | some (n, true) => some n
  | _ => none

/-- Whether a text starts with a minus. -/
def isNegative (cs : List Char) : Bool := cs.head? = some '-'

/-- A text without its sign. -/
def unsigned (cs : List Char) : List Char :=
  match cs with
  | c :: rest => if c = '+' ∨ c = '-' then rest else cs
  | [] => []

/-- An integer, from its magnitude and the text with its sign. -/
def signed (cs : List Char) (magnitude : Nat) : Int :=
  if isNegative cs then -(magnitude : Int) else magnitude

/-- A text that is an integer. -/
def int? (cs : List Char) : Option Int :=
  let cs := trimmed cs
  (grouped? (unsigned cs)).map (signed cs)

/-! ## Decimals -/

section Decimals

variable {α : Type} [Scalar α]

/-- The exponent a text starts with, and the rest; a mark without digits is no exponent. -/
def takeExponent (cs : List Char) : Int × List Char :=
  match cs with
  | c :: rest =>
    if c = 'e' ∨ c = 'E' then
      let body := unsigned rest
      match digits? 10 (body.takeWhile Char.isDigit) with
      | some n => (signed rest n, body.dropWhile Char.isDigit)
      | none => (0, cs)
    else (0, cs)
  | [] => (0, [])

/-- The decimal without sign that a text starts with, and the rest. -/
def takeDecimal? (cs : List Char) : Option (α × List Char) :=
  let whole := cs.takeWhile Char.isDigit
  let (fraction, rest) := match cs.dropWhile Char.isDigit with
    | '.' :: rest => (rest.takeWhile Char.isDigit, rest.dropWhile Char.isDigit)
    | rest => ([], rest)
  (digits? 10 (whole ++ fraction)).map fun n =>
    let (exponent, rest) := takeExponent rest
    (Scalar.ofDecimal n (exponent - fraction.length), rest)

/-- The words for numbers that are not finite, longer ones first. -/
def words : List (String × α) := [("infinity", 1 / 0), ("inf", 1 / 0), ("nan", 0 / 0)]

/-- The number without sign that a text starts with, and the rest: a decimal, or a word in any
case. -/
def takeNumber? (cs : List Char) : Option (α × List Char) :=
  (takeDecimal? cs).or <| words.findSome? fun (word, x) =>
    if ((cs.take word.length).map Char.toLower) = word.toList then
      some (x, cs.drop word.length)
    else none

/-- A text that is a real number. -/
def real? (cs : List Char) : Option α :=
  let cs := trimmed cs
  match takeNumber? (unsigned cs) with
  | some (x, []) => some (if isNegative cs then -x else x)
  | _ => none

end Decimals

end SymSolve.Numeral
