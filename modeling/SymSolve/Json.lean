import SymSolve.Scalar

/-!
# JSON values and their compact text

A value is written on one line, without spaces and in ASCII alone: any other character of a
string is written as the units of its UTF-16 form. Numbers keep their kind: a real number always
has a point or an exponent, an integer has neither. Real numbers that are not finite have the
names `NaN`, `Infinity` and `-Infinity`.
-/

namespace SymSolve

/-- A JSON value with real numbers of type `α`. -/
inductive Json (α : Type) where
  | null
  | bool (b : Bool)
  | int (i : Int)
  | real (x : α)
  | text (s : String)
  | list (items : List (Json α))
  | object (fields : List (String × Json α))

namespace Json

/-- Four hexadecimal digits. -/
def hex4 (n : Nat) : List Char :=
  let digits := Nat.toDigits 16 n
  List.replicate (4 - digits.length) '0' ++ digits

/-- One UTF-16 unit as an escape. -/
def unitEscape (unit : Nat) : List Char := '\\' :: 'u' :: hex4 unit

/-- A character of a string: itself if it is printable ASCII, else an escape. -/
def charText (c : Char) : List Char :=
  if c = '"' then ['\\', '"']
  else if c = '\\' then ['\\', '\\']
  else if c = '\n' then ['\\', 'n']
  else if c = '\r' then ['\\', 'r']
  else if c = '\t' then ['\\', 't']
  else if c = '\x08' then ['\\', 'b']
  else if c = '\x0c' then ['\\', 'f']
  else if 0x20 ≤ c.toNat ∧ c.toNat ≤ 0x7e then [c]
  else if c.toNat < 0x10000 then unitEscape c.toNat
  else
    let offset := c.toNat - 0x10000
    unitEscape (0xd800 + offset / 0x400) ++ unitEscape (0xdc00 + offset % 0x400)

/-- A string in quotes. -/
def stringText (s : String) : List Char := '"' :: (s.toList.flatMap charText ++ ['"'])

/-- An integer in decimal. -/
def intText (i : Int) : List Char :=
  let digits := Nat.toDigits 10 i.natAbs
  if i < 0 then '-' :: digits else digits

section Rendering

variable {α : Type} [Scalar α] [Printable α]

/-- A real number: the shortest text that reads back, or a name. -/
def realText (x : α) : List Char :=
  if Scalar.isNaN x then "NaN".toList
  else if Scalar.isFinite x then (Printable.exact x).toList
  else if Scalar.lt x 0 then "-Infinity".toList
  else "Infinity".toList

mutual

/-- The text of a value. -/
def chars : Json α → List Char
  | .null => "null".toList
  | .bool true => "true".toList
  | .bool false => "false".toList
  | .int i => intText i
  | .real x => realText x
  | .text s => stringText s
  | .list [] => ['[', ']']
  | .list (v :: vs) => '[' :: (chars v ++ itemChars vs)
  | .object [] => ['{', '}']
  | .object ((key, v) :: fields) =>
    '{' :: (stringText key ++ ':' :: (chars v ++ fieldChars fields))

/-- The rest of a list after an item, with its closing bracket. -/
def itemChars : List (Json α) → List Char
  | [] => [']']
  | v :: vs => ',' :: (chars v ++ itemChars vs)

/-- The rest of an object after a field, with its closing bracket. -/
def fieldChars : List (String × Json α) → List Char
  | [] => ['}']
  | (key, v) :: fields => ',' :: (stringText key ++ ':' :: (chars v ++ fieldChars fields))

end

/-- The compact text of a value. -/
def render (v : Json α) : String := String.ofList (chars v)

end Rendering

end Json

end SymSolve
