import SymSolve.Scalar

/-!
# Square tables

`Dense n α` is an `n × n` table that is stored, not recomputed: `ofFn` evaluates its function
once for every position. `get_ofFn` is the one fact that proofs about tables need.

Eliminations peel off the first row and column, so there are `trailing` for a table and
`pushFront` and `tail` for vectors.
-/

namespace SymSolve

/-- Index `a` after `i` and `j` have changed places. -/
def exchange {n : Nat} (i j a : Fin n) : Fin n := if a = i then j else if a = j then i else a

/-- The first index. -/
def leading {n : Nat} : Fin (n + 1) := ⟨0, n.succ_pos⟩

theorem leading_eq_zero {n : Nat} : (leading : Fin (n + 1)) = 0 := rfl

/-! ## Vectors by their first entry -/

@[simp] theorem vector_get_ofFn {n : Nat} {α : Type} (f : Fin n → α) (i : Fin n) :
    (Vector.ofFn f).get i = f i := by
  show (Vector.ofFn f)[i.val] = f i
  simp

/-- The vector that starts with `a` and goes on as `v`. -/
def pushFront {n : Nat} {α : Type} (a : α) (v : Vector α n) : Vector α (n + 1) :=
  Vector.ofFn (Fin.cases a v.get)

/-- The vector without its first entry. -/
def tail {n : Nat} {α : Type} (v : Vector α (n + 1)) : Vector α n :=
  Vector.ofFn fun i => v.get i.succ

@[simp] theorem pushFront_leading {n : Nat} {α : Type} (a : α) (v : Vector α n) :
    (pushFront a v).get leading = a := by
  simp [pushFront, leading_eq_zero]

@[simp] theorem pushFront_succ {n : Nat} {α : Type} (a : α) (v : Vector α n) (i : Fin n) :
    (pushFront a v).get i.succ = v.get i := by
  simp [pushFront]

@[simp] theorem get_tail {n : Nat} {α : Type} (v : Vector α (n + 1)) (i : Fin n) :
    (tail v).get i = v.get i.succ := by
  simp [tail]

/-- The vector that starts with the entries of `front` and goes on as `v`; what does not fit is
dropped. -/
def overwrite {n : Nat} {α : Type} (v : Vector α n) (front : Array α) : Vector α n :=
  Vector.ofFn fun i => if h : i < front.size then front[i] else v.get i

@[simp] theorem get_overwrite {n : Nat} {α : Type} (v : Vector α n) (front : Array α)
    (i : Fin n) :
    (overwrite v front).get i = if h : i < front.size then front[i] else v.get i := by
  simp [overwrite]

/-! ## Tables -/

/-- An `n × n` table. -/
structure Dense (n : Nat) (α : Type) where
  rows : Vector (Vector α n) n

namespace Dense

variable {n : Nat} {α : Type}

/-- The entry in row `i` and column `j`. -/
def get (A : Dense n α) (i j : Fin n) : α := (A.rows.get i).get j

/-- The table with entry `f i j` in row `i` and column `j`. -/
def ofFn (f : Fin n → Fin n → α) : Dense n α :=
  ⟨Vector.ofFn fun i => Vector.ofFn fun j => f i j⟩

@[simp] theorem get_ofFn (f : Fin n → Fin n → α) (i j : Fin n) : (ofFn f).get i j = f i j := by
  simp [get, ofFn]

/-- All entries, row by row. -/
def toList (A : Dense n α) : List α := A.rows.toList.flatMap Vector.toList

/-- Row `i` as a list. -/
def row (A : Dense n α) (i : Fin n) : List α := (A.rows.get i).toList

/-- The diagonal. -/
def diagonal (A : Dense n α) : Vector α n := Vector.ofFn fun i => A.get i i

/-- Rows and columns picked out by `order`, which may repeat or leave out indices. -/
def select {m : Nat} (A : Dense n α) (order : Vector (Fin n) m) : Dense m α :=
  ofFn fun i j => A.get (order.get i) (order.get j)

/-- The table with rows `i` and `j` exchanged, and the columns likewise. -/
def exchange (A : Dense n α) (i j : Fin n) : Dense n α :=
  ofFn fun a b => A.get (SymSolve.exchange i j a) (SymSolve.exchange i j b)

/-- The table with rows `i` and `j` exchanged. -/
def exchangeRows (A : Dense n α) (i j : Fin n) : Dense n α :=
  ofFn fun a b => A.get (SymSolve.exchange i j a) b

/-- The table without its first row and column. -/
def trailing (A : Dense (n + 1) α) : Dense n α := ofFn fun i j => A.get i.succ j.succ

section Scalar

variable [Scalar α]

/-- The identity table. -/
def identity (n : Nat) : Dense n α := ofFn fun i j => if i = j then 1 else 0

/-- The zero table. -/
def zero (n : Nat) : Dense n α := ofFn fun _ _ => 0

/-- Every entry is finite. -/
def allFinite (A : Dense n α) : Bool := A.toList.all Scalar.isFinite

end Scalar

end Dense

end SymSolve
