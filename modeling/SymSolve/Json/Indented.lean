import SymSolve.Json

/-!
# JSON in lines

A value with one item or field per line, indented by two blanks for every collection around it,
and with the fields of objects sorted by their keys. An empty collection stays on its line.
-/

namespace SymSolve.Json

variable {α : Type}

/-! ## Sorted keys -/

mutual

/-- A value with the fields of all objects sorted by key. -/
def sortKeys : Json α → Json α
  | .list items => .list (sortItems items)
  | .object fields => .object ((sortFields fields).mergeSort fun a b => a.1 ≤ b.1)
  | v => v

/-- The items of a list with their keys sorted. -/
def sortItems : List (Json α) → List (Json α)
  | [] => []
  | v :: vs => sortKeys v :: sortItems vs

/-- The fields of an object, in their order, with the keys below them sorted. -/
def sortFields : List (String × Json α) → List (String × Json α)
  | [] => []
  | (key, v) :: fields => (key, sortKeys v) :: sortFields fields

end

/-! ## Lines -/

section Rendering

variable [Scalar α] [Printable α]

/-- The beginning of a line below `level` collections. -/
def lineStart (level : Nat) : List Char := '\n' :: List.replicate (2 * level) ' '

mutual

/-- The text of a value below `level` collections. -/
def indentedChars (level : Nat) : Json α → List Char
  | .list (v :: vs) =>
    '[' :: (lineStart (level + 1) ++ indentedChars (level + 1) v ++ indentedItems level vs)
  | .object ((key, v) :: fields) =>
    '{' :: (lineStart (level + 1) ++ stringText key ++ ':' :: ' ' ::
      (indentedChars (level + 1) v ++ indentedFields level fields))
  | v => chars v

/-- The rest of a list after an item, with its closing bracket. -/
def indentedItems (level : Nat) : List (Json α) → List Char
  | [] => lineStart level ++ [']']
  | v :: vs =>
    ',' :: (lineStart (level + 1) ++ indentedChars (level + 1) v ++ indentedItems level vs)

/-- The rest of an object after a field, with its closing bracket. -/
def indentedFields (level : Nat) : List (String × Json α) → List Char
  | [] => lineStart level ++ ['}']
  | (key, v) :: fields =>
    ',' :: (lineStart (level + 1) ++ stringText key ++ ':' :: ' ' ::
      (indentedChars (level + 1) v ++ indentedFields level fields))

end

/-- The text of a value in lines, with sorted keys. -/
def renderIndented (v : Json α) : String := String.ofList (indentedChars 0 v.sortKeys)

end Rendering

end SymSolve.Json
