import SymSolve.Word

/-!
# Memory

Which lengths a buffer can have. A machine refuses lengths beyond what it can count or provide;
statements that leave memory out of account are made where no length is refused.
-/

namespace SymSolve

/-- Why there is no buffer of a length. -/
inductive LengthRefusal where
  | uncountable
  | unavailable
  deriving DecidableEq, Repr

/-- A place for buffers, given by the lengths that it refuses. -/
structure Memory where
  refusal? : Nat → Option LengthRefusal

namespace Memory

/-- Memory that refuses no length. -/
def unlimited : Memory := ⟨fun _ => none⟩

/-- From this length on the bytes of a buffer, eight for a word, exceed what a signed word
counts. -/
def uncountableLength : Nat := signBit / 8

/-- From this length on no machine is expected to have room for a buffer. -/
def unavailableLength : Nat := 4294967296

/-- The memory of a machine. -/
def machine : Memory where
  refusal? length :=
    if uncountableLength ≤ length then some .uncountable
    else if unavailableLength ≤ length then some .unavailable
    else none

end Memory

end SymSolve
