import SymSolve.Grid
import SymSolve.Numeral
import SymSolve.Pieces

/-!
# Tables of numbers

One row per line, numbers separated by white space, and a comment from a number sign on. Lines
without numbers are not counted. All rows have to be equally long.
-/

namespace SymSolve.Columns

/-- Why a text is no table. -/
inductive Fault where
  | number (text : String)
  | ragged (row : Nat)
  deriving DecidableEq, Repr

/-- The text of a fault. -/
def Fault.text : Fault → String
  | number text => s!"'{text}' is not a number"
  | ragged row => s!"row {row} is not as long as the rows before"

/-- The numbers of a line as texts. -/
def fieldsOf (line : List Char) : List (List Char) :=
  pieces Numeral.isSpace (line.takeWhile (· ≠ '#'))

variable {α : Type} [Scalar α]

/-- The number that a text is. -/
def numberOf (field : List Char) : Except Fault α :=
  match Numeral.real? field with
  | some x => .ok x
  | none => .error (.number (.ofList field))

/-- Reads rows that have to have a length, from a row number on. -/
def rowsOf (length : Nat) : (row : Nat) → List (List (List Char)) → Except Fault (List (List α))
  | _, [] => .ok []
  | row, fields :: rest => do
    if fields.length ≠ length then throw (.ragged row)
    let values ← fields.mapM numberOf
    return values :: (← rowsOf length (row + 1) rest)

/-- Reads a table. A single row or a single column is a vector, and a table without rows is an
empty one. -/
def parse (text : List Char) : Except Fault (Grid α) := do
  let isBreak (c : Char) : Bool := c = '\n' || c = '\r'
  let rows := ((pieces isBreak text).map fieldsOf).filter fun fields => !fields.isEmpty
  let width := (rows.headD []).length
  let values ← rowsOf width 1 rows
  if rows.length ≤ 1 ∨ width = 1 then return .ofList values.flatten
  else return ⟨[rows.length, width], values.flatten⟩

end SymSolve.Columns
