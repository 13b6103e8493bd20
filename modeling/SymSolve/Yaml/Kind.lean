import SymSolve.Numeral
import SymSolve.Yaml.Timestamp

/-!
# Kinds of nodes

A node has the kind that its tag names. A plain scalar without a tag has the kind that its form
shows: words for nothing and for truth values, numbers in several bases, dates, and two marks
for keys. Any other scalar is a text.
-/

namespace SymSolve.Yaml

open Numeral

/-- What a node is. -/
inductive Kind where
  | null
  | bool
  | int
  | real
  | binary
  | timestamp
  | text
  | list
  | map
  | orderedMap
  | pairs
  | set
  /-- The key of mappings that are merged into one. -/
  | merge
  /-- The key of the value that a mapping has where a scalar is expected. -/
  | value
  | unknown
  deriving DecidableEq, Repr

namespace Kind

/-- The names of kinds, after what all their tags begin with. -/
def names : List (String × Kind) :=
  [("null", null), ("bool", bool), ("int", int), ("float", real), ("binary", binary),
   ("timestamp", timestamp), ("str", text), ("seq", list), ("map", map), ("omap", orderedMap),
   ("pairs", pairs), ("set", set), ("merge", merge), ("value", value)]

/-- What the tags of kinds begin with. -/
def tagStart : String := "tag:yaml.org,2002:"

/-- The kind that a tag names. -/
def ofTag (tag : String) : Kind :=
  ((names.find? fun n => tagStart ++ n.1 = tag).map Prod.snd).getD unknown

/-! ## Forms of plain scalars -/

/-- Digits of a number, which may be grouped by underscores. -/
def isGrouped (isDigit : Char → Bool) (cs : List Char) : Bool :=
  cs.all fun c => isDigit c || c = '_'

/-- A digit with grouped digits after it. -/
def isWhole (first : Char → Bool) (cs : List Char) : Bool :=
  match cs with
  | c :: rest => first c && isGrouped Char.isDigit rest
  | [] => false

/-- Digits from one to nine. -/
def isPositiveDigit (c : Char) : Bool := c.isDigit && c ≠ '0'

/-- One or two digits for a number below sixty. -/
def isSixtieth (cs : List Char) : Bool :=
  match cs with
  | [c] => c.isDigit
  | [c, d] => '0' ≤ c && c ≤ '5' && d.isDigit
  | _ => false

/-- The parts of a text between marks. -/
def splitOn (mark : Char) (cs : List Char) : List (List Char) :=
  cs.foldr (fun c parts => match parts with
    | part :: rest => if c = mark then [] :: part :: rest else (c :: part) :: rest
    | [] => []) [[]]

/-- A number to the base sixty, with at least one colon. -/
def isSexagesimal (first : Char → Bool) (cs : List Char) : Bool :=
  match splitOn ':' cs with
  | whole :: part :: parts => isWhole first whole && (part :: parts).all isSixtieth
  | _ => false

/-- Whether a text is an integer. -/
def isInt (cs : List Char) : Bool :=
  let body := unsigned cs
  let some? (isDigit : Char → Bool) (rest : List Char) : Bool :=
    !rest.isEmpty && isGrouped isDigit rest
  (match body with
    | '0' :: 'b' :: rest => some? (fun c => c = '0' || c = '1') rest
    | '0' :: 'x' :: rest => some? (fun c => (hexDigit? c).isSome) rest
    | ['0'] => true
    | '0' :: rest => some? (fun c => '0' ≤ c && c ≤ '7') rest
    | _ => isWhole isPositiveDigit body) || isSexagesimal isPositiveDigit body

/-- Whether a text is the exponent of a number, or empty. -/
def isExponent (cs : List Char) : Bool :=
  match cs with
  | [] => true
  | e :: sign :: digits =>
    (e = 'e' || e = 'E') && (sign = '+' || sign = '-') && !digits.isEmpty &&
      digits.all Char.isDigit
  | _ => false

/-- Whether a text is a real number. -/
def isReal (cs : List Char) : Bool :=
  let body := unsigned cs
  let whole := body.takeWhile (· ≠ '.')
  let isE (c : Char) : Bool := c = 'e' || c = 'E'
  match body.dropWhile (· ≠ '.') with
  | [] => false
  | _ :: rest =>
    let digits := rest.takeWhile fun c => !isE c
    let exponent := rest.dropWhile fun c => !isE c
    let decimal := isGrouped Char.isDigit digits && isExponent exponent
    (isWhole Char.isDigit whole && decimal) ||
      (cs.head? = some '.' && isWhole Char.isDigit digits && isExponent exponent) ||
      (isSexagesimal Char.isDigit whole && isGrouped Char.isDigit rest) ||
      (whole.isEmpty && ["inf", "Inf", "INF"].contains (String.ofList rest)) ||
      (cs.head? = some '.' && ["nan", "NaN", "NAN"].contains (String.ofList rest))

/-- The words for truth values. -/
def boolWords : List String :=
  ["yes", "Yes", "YES", "no", "No", "NO", "true", "True", "TRUE", "false", "False", "FALSE",
   "on", "On", "ON", "off", "Off", "OFF"]

/-- The words for nothing. -/
def nullWords : List String := ["~", "null", "Null", "NULL"]

/-- The kind that the form of a plain scalar shows. One break at its end does not count. -/
def ofPlain (s : String) : Kind :=
  let cs := s.toList
  let cs := if cs.getLast? = some '\n' then cs.dropLast else cs
  let word := String.ofList cs
  if s = "" then null
  else if boolWords.contains word then bool
  else if isReal cs then real
  else if isInt cs then int
  else if word = "<<" then merge
  else if nullWords.contains word then null
  else if Timestamp.isImplicit cs then timestamp
  else if word = "=" then value
  else if ["!", "&", "*"].contains word then unknown
  else text

end Kind

end SymSolve.Yaml
