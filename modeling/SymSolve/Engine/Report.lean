import SymSolve.Diagnostic.Report
import SymSolve.Engine.Basic
import SymSolve.Json.Access

/-!
# The state of an engine as a JSON value

The state between two steps, with the diagnostics and the attempts of the last call. An attempt
can be read back from its JSON value.
-/

namespace SymSolve

/-- An attempt as a JSON value. -/
def AttemptRecord.toJson {α : Type} (r : AttemptRecord α) : Json α :=
  let count (i : Option Int) : Json α := match i with
    | some i => .int i
    | none => .null
  .object [
    ("solve_index", .int r.solveIndex),
    ("attempt_index", .int r.attemptIndex),
    ("status", .text r.status),
    ("integer_workspace_len", .int r.integerLength),
    ("real_workspace_len", .int r.realLength),
    ("required_len", count r.required),
    ("neg_eigenvalues", count r.negative),
    ("real_compressions", .int r.realCompressions),
    ("integer_compressions", .int r.integerCompressions),
    ("pivot_tolerance", .real r.tolerance)]

/-- The attempt in the fields of an object; a field that is missing counts as zero or as none. -/
def AttemptRecord.ofJson {α : Type} [Scalar α] (v : Json α) : AttemptRecord α where
  solveIndex := (v.get "solve_index").asInt
  attemptIndex := (v.get "attempt_index").asInt
  status := (v.get "status").asText
  integerLength := (v.get "integer_workspace_len").asInt.toNat
  realLength := (v.get "real_workspace_len").asInt.toNat
  required := (v.given? "required_len").map Json.asInt
  negative := (v.given? "neg_eigenvalues").map Json.asInt
  realCompressions := (v.get "real_compressions").asInt
  integerCompressions := (v.get "integer_compressions").asInt
  tolerance := (v.get "pivot_tolerance").asReal

/-- What an engine says of a diagnostic: fields that are the same for all its diagnostics of one
code are left out. -/
def Event.toShortJson {α : Type} (e : Event α) : Json α :=
  .object (e.fields.filter fun f =>
    ["code", "message", "solve_index", "attempt_index", "witness"].contains f.1)

namespace Engine

variable {α σ : Type} [Scalar α]

/-- The state of an engine. -/
def stateJson (e : Engine α σ) : Json α :=
  .object [
    ("state", .text e.phase.name),
    ("pivot_tolerance", .real e.tolerance),
    ("dim", .int e.dim),
    ("nonzeros", .int e.nonzeros),
    ("workspace", .list [.int e.workspace.integers.length, .int e.workspace.reals.length,
      .int e.workspace.keep.length]),
    ("pending", .object [("real", .bool e.pending.real), ("integer", .bool e.pending.integer)]),
    ("solve_count", .int e.solveCount),
    ("factorization_count", .int e.factorizationCount),
    ("diagnostics", .list (e.diagnostics.map Event.toShortJson)),
    ("trace", .list (e.trace.map AttemptRecord.toJson))]

end Engine

end SymSolve
