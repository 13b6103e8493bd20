import SymSolve.Json
import SymSolve.Numeral

/-!
# Reading JSON text

A number with a point or an exponent is real, any other number is an integer. Real numbers that
are not finite are read under the names they are written with. Half a pair of UTF-16 units
stands for no character and reads as the replacement character.
-/

namespace SymSolve.Json

/-- Blanks between the parts of a text. -/
def isBlank (c : Char) : Bool := c = ' ' || c = '\t' || c = '\n' || c = '\r'

/-- The text without the blanks it starts with. -/
def skipBlanks (cs : List Char) : List Char := cs.dropWhile isBlank

/-- The value of four hexadecimal digits. -/
def hexUnit? (a b c d : Char) : Option Nat := Numeral.digits? 16 [a, b, c, d]

/-- The character of a unit that is not one of a pair. -/
def unitChar (unit : Nat) : Char :=
  if 0xd800 ≤ unit ∧ unit < 0xe000 then '\ufffd' else Char.ofNat unit

/-- The character of two units. -/
def pairChar? (high low : Nat) : Option Char :=
  if 0xd800 ≤ high ∧ high < 0xdc00 ∧ 0xdc00 ≤ low ∧ low < 0xe000 then
    some (Char.ofNat (0x10000 + (high - 0xd800) * 0x400 + (low - 0xdc00)))
  else none

/-- The character that a short escape stands for. -/
def shortEscape? (c : Char) : Option Char :=
  if c = '"' ∨ c = '\\' ∨ c = '/' then some c
  else if c = 'n' then some '\n'
  else if c = 'r' then some '\r'
  else if c = 't' then some '\t'
  else if c = 'b' then some '\x08'
  else if c = 'f' then some '\x0c'
  else none

/-- Adds a character to a string that was read. -/
def consChar (c : Char) (r : Option (List Char × List Char)) : Option (List Char × List Char) :=
  r.map fun (s, rest) => (c :: s, rest)

/-- Reads a string after its opening quote, and returns what follows its closing quote. The
fuel bounds the number of characters. -/
def readString : (fuel : Nat) → List Char → Option (List Char × List Char)
  | 0, _ => none
  | fuel + 1, cs =>
    match cs with
    | '"' :: rest => some ([], rest)
    | '\\' :: 'u' :: a :: b :: c :: d :: rest =>
      match hexUnit? a b c d with
      | none => none
      | some high =>
        let single := consChar (unitChar high) (readString fuel rest)
        match rest with
        | '\\' :: 'u' :: a :: b :: c :: d :: rest =>
          match (hexUnit? a b c d).bind (pairChar? high) with
          | some c => consChar c (readString fuel rest)
          | none => single
        | _ => single
    | '\\' :: c :: rest =>
      match shortEscape? c with
      | some c => consChar c (readString fuel rest)
      | none => none
    | c :: rest => consChar c (readString fuel rest)
    | [] => none

/-- The value of a digit string. -/
def natOfDigits (digits : List Char) : Nat :=
  digits.foldl (fun n c => 10 * n + (c.toNat - '0'.toNat)) 0

section Values

variable {α : Type} [Scalar α]

/-- The value of a number, taken apart into sign, digits before and after the point, and
exponent. -/
def numberValue (negative : Bool) (whole : List Char) (fraction : Option (List Char))
    (exponent : Option Int) : Json α :=
  match fraction, exponent with
  | none, none => .int (if negative then -(natOfDigits whole : Int) else natOfDigits whole)
  | _, _ =>
    let digits := fraction.getD []
    let magnitude : α := Scalar.ofDecimal (natOfDigits (whole ++ digits))
      (exponent.getD 0 - digits.length)
    .real (if negative then -magnitude else magnitude)

/-- Reads the digits that a text starts with; there has to be one. -/
def readDigits (cs : List Char) : Option (List Char × List Char) :=
  match cs.takeWhile Char.isDigit with
  | [] => none
  | digits => some (digits, cs.dropWhile Char.isDigit)

/-- Reads an exponent, if the text starts with one. -/
def readExponent (cs : List Char) : Option (Option Int × List Char) :=
  match cs with
  | c :: rest =>
    if c = 'e' ∨ c = 'E' then
      let (negative, rest) := match rest with
        | '-' :: rest => (true, rest)
        | '+' :: rest => (false, rest)
        | rest => (false, rest)
      (readDigits rest).map fun (digits, rest) =>
        let n : Int := natOfDigits digits
        (some (if negative then -n else n), rest)
    else some (none, cs)
  | [] => some (none, [])

/-- Whether a number is negative, and its text without the sign. -/
def readSign (cs : List Char) : Bool × List Char :=
  match cs with
  | '-' :: rest => (true, rest)
  | rest => (false, rest)

/-- Reads the digits after a point, if the text starts with one. -/
def readFraction (cs : List Char) : Option (Option (List Char) × List Char) :=
  match cs with
  | '.' :: rest => (readDigits rest).map fun (digits, rest) => (some digits, rest)
  | rest => some (none, rest)

/-- Reads a number. -/
def readNumber (cs : List Char) : Option (Json α × List Char) := do
  let (negative, cs) := readSign cs
  let (whole, cs) ← readDigits cs
  let (fraction, cs) ← readFraction cs
  let (exponent, cs) ← readExponent cs
  return (numberValue negative whole fraction exponent, cs)

/-- The rest of a text after a word it starts with. -/
def afterWord? (word : String) (cs : List Char) : Option (List Char) :=
  if word.toList.isPrefixOf cs then some (cs.drop word.length) else none

/-- The names of real numbers that are not finite. -/
def realNames : List (String × α) :=
  [("NaN", 0 / 0), ("Infinity", 1 / 0), ("-Infinity", -(1 / 0))]

/-- The names of values. -/
def valueNames : List (String × Json α) :=
  [("null", .null), ("true", .bool true), ("false", .bool false)] ++
    realNames.map fun (word, x) => (word, .real x)

/-- Reads a name of a value. -/
def readName (cs : List Char) : Option (Json α × List Char) :=
  valueNames.findSome? fun (word, v) => (afterWord? word cs).map fun rest => (v, rest)

mutual

/-- Reads a value, and returns what follows it. The fuel bounds the number of its parts. -/
def readValue : (fuel : Nat) → List Char → Option (Json α × List Char)
  | 0, _ => none
  | fuel + 1, cs =>
    match skipBlanks cs with
    | '"' :: rest => (readString rest.length rest).map fun (s, rest) => (.text (.ofList s), rest)
    | '[' :: rest =>
      match skipBlanks rest with
      | ']' :: rest => some (.list [], rest)
      | rest => (readItems fuel rest).map fun (items, rest) => (.list items, rest)
    | '{' :: rest =>
      match skipBlanks rest with
      | '}' :: rest => some (.object [], rest)
      | rest => (readFields fuel rest).map fun (fields, rest) => (.object fields, rest)
    | rest => (readNumber rest).or (readName rest)

/-- Reads the items of a list up to its closing bracket. -/
def readItems : (fuel : Nat) → List Char → Option (List (Json α) × List Char)
  | 0, _ => none
  | fuel + 1, cs =>
    match readValue fuel cs with
    | none => none
    | some (v, rest) =>
      match skipBlanks rest with
      | ']' :: rest => some ([v], rest)
      | ',' :: rest => (readItems fuel rest).map fun (vs, rest) => (v :: vs, rest)
      | _ => none

/-- Reads the fields of an object up to its closing bracket. -/
def readFields : (fuel : Nat) → List Char → Option (List (String × Json α) × List Char)
  | 0, _ => none
  | fuel + 1, cs =>
    match skipBlanks cs with
    | '"' :: rest =>
      match readString rest.length rest with
      | none => none
      | some (key, rest) =>
        match skipBlanks rest with
        | ':' :: rest =>
          match readValue fuel rest with
          | none => none
          | some (v, rest) =>
            let field := (String.ofList key, v)
            match skipBlanks rest with
            | '}' :: rest => some ([field], rest)
            | ',' :: rest => (readFields fuel rest).map fun (fs, rest) => (field :: fs, rest)
            | _ => none
        | _ => none
    | _ => none

end

/-- Reads a text that holds one value and nothing else. -/
def parse? (text : String) : Option (Json α) :=
  let cs := text.toList
  match readValue (cs.length + 1) cs with
  | some (v, rest) => if (skipBlanks rest).isEmpty then some v else none
  | none => none

end Values

end SymSolve.Json
