/-!
# Componentwise operations on lists of different lengths

A list with a single component goes with a list of any length: the component is repeated. Other
differences of length are refused.
-/

namespace SymSolve

/-- Applies `f` to the components of two lists. -/
def broadcast? {α β γ : Type} (f : α → β → γ) (as : List α) (bs : List β) : Option (List γ) :=
  if as.length = bs.length then some (List.zipWith f as bs)
  else match as, bs with
    | [a], bs => some (bs.map (f a))
    | as, [b] => some (as.map (f · b))
    | _, _ => none

theorem broadcast?_of_length {α β γ : Type} (f : α → β → γ) {as : List α} {bs : List β}
    (h : as.length = bs.length) : broadcast? f as bs = some (List.zipWith f as bs) := by
  simp [broadcast?, h]

end SymSolve
