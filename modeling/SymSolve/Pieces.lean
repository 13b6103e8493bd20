/-!
# Texts in pieces

A text between marks, and its lines.
-/

namespace SymSolve

/-- The pieces of a text between the characters that are marks, without empty pieces. -/
def pieces (isMark : Char → Bool) (cs : List Char) : List (List Char) :=
  let split := cs.foldr (fun c split => match split with
    | piece :: rest => if isMark c then [] :: piece :: rest else (c :: piece) :: rest
    | [] => []) [[]]
  split.filter fun piece => !piece.isEmpty

/-- The lines of a text; after the last break there is no further line. -/
def textLines (cs : List Char) : List (List Char) :=
  cs.foldr (fun c lines => if c = '\n' then [] :: lines else match lines with
    | line :: rest => (c :: line) :: rest
    | [] => [[c]]) []

end SymSolve
