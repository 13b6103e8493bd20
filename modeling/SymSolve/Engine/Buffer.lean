import SymSolve.Memory
import SymSolve.Scalar

/-!
# Buffers that only grow

Growing a buffer discards its contents, so whoever grows it fills it again. The new length comes
from a product of scalars, whose integer part need not exist; if it does, memory may refuse it.
-/

namespace SymSolve

/-- A buffer of words. -/
structure Buffer (α : Type) where
  words : Array α

namespace Buffer

variable {α : Type}

/-- The buffer without words. -/
def empty : Buffer α := ⟨#[]⟩

/-- The number of words. -/
def length (b : Buffer α) : Nat := b.words.size

/-- The buffer with at least `length` words: itself if it has them, else that many zeros. -/
def grow [OfNat α 0] (b : Buffer α) (length : Nat) : Buffer α :=
  if length ≤ b.length then b else ⟨Array.replicate length 0⟩

/-- The buffer with every word replaced. -/
def fill (b : Buffer α) (word : α) : Buffer α := ⟨Array.replicate b.length word⟩

@[simp] theorem length_grow [OfNat α 0] (b : Buffer α) (n : Nat) :
    (b.grow n).length = max b.length n := by
  unfold grow
  split
  · omega
  · simp [length] at *
    omega

/-- Why a buffer cannot be made longer. -/
inductive LengthError where
  | negative
  | unbounded (cause : Unbounded)
  | refused (cause : LengthRefusal)
  deriving DecidableEq, Repr

/-- The text of a refusal that has one. -/
def LengthError.text? : LengthError → Option String
  | negative => some "buffer length must be >= 0"
  | unbounded _ | refused _ => none

/-- Grows a buffer to a length that may turn out negative, or more than memory gives. -/
def ensure [OfNat α 0] (memory : Memory) (b : Buffer α) (length : Int) :
    Except LengthError (Buffer α) :=
  if length < 0 then .error .negative
  else if length ≤ b.length then .ok b
  else match memory.refusal? length.toNat with
    | some cause => .error (.refused cause)
    | none => .ok (b.grow length.toNat)

theorem eq_grow_of_ensure [OfNat α 0] {memory : Memory} {b grown : Buffer α} {length : Int}
    (h : b.ensure memory length = .ok grown) : grown = b.grow length.toNat := by
  unfold ensure at h
  split at h
  · cases h
  · split at h
    · cases h
      rw [grow, if_pos (by omega)]
    · split at h <;> cases h
      rfl

theorem ensure_unlimited [OfNat α 0] (b : Buffer α) {length : Int} (h : 0 ≤ length) :
    b.ensure .unlimited length = .ok (b.grow length.toNat) := by
  unfold ensure
  rw [if_neg (by omega)]
  split
  · rw [grow, if_pos (by omega)]
  · rfl

end Buffer

variable {α : Type} [Scalar α]

/-- The integer part of `factor · base`. -/
def scaledLength (factor : α) (base : Int) : Except Unbounded Int :=
  let b : α := Scalar.ofInt base
  if Scalar.isFinite b then Scalar.truncate (factor * b) else .error .infinite

/-- The length of a buffer grown to `factor · base`, never below `current`. -/
def grownLength (current base : Int) (factor : α) : Except Unbounded Int :=
  (scaledLength factor base).map (max current)

end SymSolve
