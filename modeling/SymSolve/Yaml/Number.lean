import SymSolve.Numeral
import SymSolve.Yaml.Fault
import SymSolve.Yaml.Kind

/-!
# Numbers

Underscores in a number count for nothing. An integer is binary, hexadecimal or octal after a
zero, to the base sixty if it has colons, and decimal otherwise. What a tag calls a number need
not have the form of one, and is read as far as possible: blanks around it and a second sign are
allowed.
-/

namespace SymSolve.Yaml

open Numeral

/-! ## Integers -/

/-- The mark that may stand after a zero before digits to a base. -/
def baseMark? (base : Nat) (c : Char) : Bool :=
  let mark := c.toLower
  (base = 2 && mark = 'b') || (base = 8 && mark = 'o') || (base = 16 && mark = 'x')

/-- The most decimal digits that an integer may have. -/
def mostDigits : Nat := 4300

/-- An integer to a base, with blanks around it, a sign and a mark of its base. -/
def plainInt (base : Nat) (cs : List Char) : Except ValueFault Int :=
  let text := trimmed cs
  let body := match unsigned text with
    | '0' :: mark :: rest => if baseMark? base mark then rest else '0' :: mark :: rest
    | body => body
  match digits? base body with
  | some n =>
    if base = 10 ∧ mostDigits < body.length then .error .unreadable
    else .ok (signed text n)
  | none => .error .unreadable

/-- An integer without its sign. -/
def magnitude (cs : List Char) : Except ValueFault Int :=
  match cs with
  | [] => .error .empty
  | ['0'] => .ok 0
  | '0' :: 'b' :: rest => plainInt 2 rest
  | '0' :: 'x' :: rest => plainInt 16 rest
  | '0' :: _ => plainInt 8 cs
  | _ =>
    if cs.contains ':' then
      ((Kind.splitOn ':' cs).mapM (plainInt 10)).map fun parts =>
        parts.foldl (fun n part => 60 * n + part) 0
    else plainInt 10 cs

/-- An integer. -/
def intOf (s : String) : Except ValueFault Int :=
  let cs := s.toList.filter (· ≠ '_')
  if cs.isEmpty then .error .empty
  else (magnitude (unsigned cs)).map fun i => if isNegative cs then -i else i

/-! ## Real numbers -/

section Reals

variable {α : Type} [Scalar α]

/-- The sum of parts to the base sixty, the last one first. -/
def sexagesimal (parts : List α) : α :=
  (parts.reverse.zipIdx.map fun (part, i) => part * Scalar.ofNat (Nat.pow 60 i)).foldl (· + ·) 0

/-- A real number. -/
def realOf (s : String) : Except ValueFault α :=
  let cs := (s.toList.filter (· ≠ '_')).map Char.toLower
  let body := unsigned cs
  let withSign (x : α) : α := if isNegative cs then -x else x
  let orFault (x : Option α) : Except ValueFault α := match x with
    | some x => .ok (withSign x)
    | none => .error .unreadable
  if cs.isEmpty then .error .empty
  else if body = ".inf".toList then .ok (withSign (1 / 0))
  else if body = ".nan".toList then .ok (0 / 0)
  else if body.contains ':' then
    orFault (((Kind.splitOn ':' body).mapM real?).map sexagesimal)
  else orFault (real? body)

end Reals

end SymSolve.Yaml
