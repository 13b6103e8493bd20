/-!
# Machine words

How many values a word of 64 bits has, and which integers fit.
-/

namespace SymSolve

/-- How many values a word has. -/
def wordCount : Nat := 18446744073709551616

/-- From here on unsigned words are negative as signed ones. -/
def signBit : Nat := 9223372036854775808

theorem wordCount_eq : wordCount = Nat.pow 2 64 := rfl

theorem signBit_eq : signBit = Nat.pow 2 63 := rfl

/-- Whether a signed word holds an integer. -/
def fitsSigned (i : Int) : Bool := -(signBit : Int) ≤ i ∧ i < signBit

/-- Whether an unsigned word holds an integer. -/
def fitsUnsigned (i : Int) : Bool := 0 ≤ i ∧ i < wordCount

end SymSolve
