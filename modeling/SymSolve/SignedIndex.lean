/-!
# Indices that may count from the end

Index −1 is the last place, −2 the one before it, and so on.
-/

namespace SymSolve

/-- The place among `n` that an index names. -/
def signedIndex? (n : Nat) (i : Int) : Option (Fin n) :=
  if h : 0 ≤ i ∧ i < n then some ⟨i.toNat, by omega⟩
  else if h : -n ≤ i ∧ i < 0 then some ⟨(i + n).toNat, by omega⟩
  else none

theorem signedIndex?_natCast {n k : Nat} (h : k < n) : signedIndex? n k = some ⟨k, h⟩ := by
  have : (0 : Int) ≤ k ∧ (k : Int) < n := by omega
  simp [signedIndex?, this]

end SymSolve
