import SymSolve.Json

/-!
# Numbers as texts

A number in a JSON value can be shown exactly, by the shortest text that reads back, or rounded
to nine significant digits. In a rounded table, what is negligible beside the largest entry is
shown as zero, so that tables that differ by rounding errors alone look alike.
-/

namespace SymSolve.Json

variable {α : Type} [Scalar α] [Printable α]

/-- A number by the shortest text that reads back. -/
def exact (x : α) : Json α := .text (Printable.exact x)

/-- Numbers by the shortest texts that read back. -/
def exacts (xs : List α) : Json α := .list (xs.map exact)

/-- A number with nine significant digits; zero has no sign. -/
def rounded (x : α) : Json α := .text (if Scalar.eq x 0 then "0" else Printable.scientific 8 x)

/-- The magnitude up to which an entry of a table is negligible. -/
def negligible (xs : List α) : α :=
  Scalar.ofDecimal 1 (-11) * Scalar.maxAbs (xs.filter Scalar.isFinite)

/-- An entry of a table, with the magnitude up to which it is negligible. -/
def roundedEntry (bound x : α) : Json α :=
  if Scalar.le (Scalar.abs x) bound then .text "0" else rounded x

/-- A rounded vector. -/
def roundedVector (xs : List α) : Json α := .list (xs.map (roundedEntry (negligible xs)))

/-- A rounded table. -/
def roundedTable (rows : List (List α)) : Json α :=
  let bound := negligible rows.flatten
  .list (rows.map fun row => .list (row.map (roundedEntry bound)))

mutual

/-- A value with its real numbers shown by `f`, and those in fields named `options` by `g`. -/
def showReals (f g : α → Json α) : Json α → Json α
  | .real x => f x
  | .list items => .list (showItems f g items)
  | .object fields => .object (showFields f g fields)
  | v => v

/-- The items of a list with their real numbers shown. -/
def showItems (f g : α → Json α) : List (Json α) → List (Json α)
  | [] => []
  | v :: vs => showReals f g v :: showItems f g vs

/-- The fields of an object with their real numbers shown. -/
def showFields (f g : α → Json α) : List (String × Json α) → List (String × Json α)
  | [] => []
  | (key, v) :: fields =>
    (key, if key = "options" then showReals g g v else showReals f g v) :: showFields f g fields

end

/-- A value with all its real numbers exact. -/
def withExact : Json α → Json α := showReals exact exact

/-- A value with its real numbers rounded, but exact among options. -/
def withRounded : Json α → Json α := showReals rounded exact

end SymSolve.Json
