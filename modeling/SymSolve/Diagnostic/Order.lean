import SymSolve.Diagnostic.Event

/-!
# The order of diagnostics in reports

Events are listed by severity, stage, code, solver, solve, attempt, message and evidence. An
index that is missing comes after all others, and evidence is compared by its text.
-/

namespace SymSolve

/-- A place for an index, with the missing one last. -/
def missingLast : Option Nat → Nat × Nat
  | none => (1, 0)
  | some i => (0, i)

/-- What the order of events goes by. -/
structure SortKey where
  severity : Nat
  stage : Nat
  code : String
  solverId : String
  solve : Nat × Nat
  attempt : Nat × Nat
  message : String
  witness : String
  deriving DecidableEq, Repr

namespace SortKey

/-- Compares pairs by their first component, then by their second. -/
def comparePairs (a b : Nat × Nat) : Ordering := (compare a.1 b.1).then (compare a.2 b.2)

/-- Compares component by component. Texts are compared character by character. -/
def compareKeys (a b : SortKey) : Ordering :=
  (compare a.severity b.severity).then <|
  (compare a.stage b.stage).then <|
  (compare a.code b.code).then <|
  (compare a.solverId b.solverId).then <|
  (comparePairs a.solve b.solve).then <|
  (comparePairs a.attempt b.attempt).then <|
  (compare a.message b.message).then <|
  compare a.witness b.witness

end SortKey

variable {α : Type} [Scalar α] [Printable α]

/-- Evidence as compact JSON, empty if there is none. -/
def canonicalText : Option (Json α) → String
  | none => ""
  | some v => v.render

namespace Event

/-- The text of the evidence. -/
def witnessText (e : Event α) : String := canonicalText e.witness

/-- The sort key of an event. -/
def sortKey (e : Event α) : SortKey where
  severity := e.severity.rank
  stage := e.stage.rank
  code := e.code
  solverId := e.solverId
  solve := missingLast e.solveIndex
  attempt := missingLast e.attemptIndex
  message := e.message
  witness := e.witnessText

/-- Sorts values that carry sort keys; equal keys keep their order. -/
def sortByKey {β : Type} (key : β → SortKey) (xs : List β) : List β :=
  xs.mergeSort fun a b => (SortKey.compareKeys (key a) (key b)).isLE

/-- Events in report order. -/
def sort (events : List (Event α)) : List (Event α) := sortByKey sortKey events

end Event

end SymSolve
