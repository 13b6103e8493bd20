import SymSolve.Engine.Basic

/-!
# Snapshots

What an engine is and how its last call went, as JSON values for reports.
-/

namespace SymSolve

/-- The statuses of attempts that every summary counts. -/
def attemptStatuses : List String :=
  ["success", "integer_workspace_too_small", "real_workspace_too_small", "singular", "error"]

/-- A summary of attempts. -/
structure TraceSummary where
  attempts : Nat
  solves : Nat
  solvesWithRetry : Nat
  maxAttempts : Nat
  /-- How often each status occurs; statuses of their own follow those always counted. -/
  statusCounts : List (String × Nat)
  maxRealCompressions : Int
  maxIntegerCompressions : Int
  deriving DecidableEq, Repr

namespace TraceSummary

/-- Distinct elements, each at its first place. -/
def distinct {β : Type} [BEq β] (xs : List β) : List β :=
  xs.foldl (fun seen x => if seen.contains x then seen else seen ++ [x]) []

/-- The largest of some integers; zero if there are none. -/
def largest : List Int → Int
  | [] => 0
  | i :: is => is.foldl max i

/-- Summarizes attempts. -/
def ofTrace {α : Type} (trace : List (AttemptRecord α)) : TraceSummary :=
  let solveIndices := trace.map AttemptRecord.solveIndex
  let statuses := trace.map AttemptRecord.status
  let perSolve := (distinct solveIndices).map fun i => solveIndices.count i
  { attempts := trace.length
    solves := perSolve.length
    solvesWithRetry := perSolve.countP (1 < ·)
    maxAttempts := perSolve.foldl max 0
    statusCounts := (distinct (attemptStatuses ++ statuses)).map fun s => (s, statuses.count s)
    maxRealCompressions := largest (trace.map AttemptRecord.realCompressions)
    maxIntegerCompressions := largest (trace.map AttemptRecord.integerCompressions) }

/-- A summary as a JSON value. -/
def toJson {α : Type} (s : TraceSummary) : Json α :=
  .object [
    ("total_factorizations", .int s.attempts),
    ("solves_with_factorization", .int s.solves),
    ("solves_with_retry", .int s.solvesWithRetry),
    ("max_attempts_per_solve", .int s.maxAttempts),
    ("status_counts", .object (s.statusCounts.map fun (status, count) => (status, .int count))),
    ("max_real_compressions", .int s.maxRealCompressions),
    ("max_integer_compressions", .int s.maxIntegerCompressions)]

end TraceSummary

namespace Engine

variable {α σ : Type} [Scalar α]

/-- An engine as a JSON value. -/
def snapshot (e : Engine α σ) : Json α :=
  .object [
    ("schema", .text "linear_solver_repro_snapshot_v1"),
    ("solver_id", .text e.solverId),
    ("kernel_id", .text e.session.kernel.id),
    ("options", e.options.snapshot),
    ("state", .text e.phase.name),
    ("pivot_tolerance", .real e.tolerance),
    ("structure", .object [("dim", .int e.dim), ("nonzeros", .int e.nonzeros)]),
    ("workspace", .object [
      ("integer_workspace_len", .int e.workspace.integers.length),
      ("real_workspace_len", .int e.workspace.reals.length),
      ("index_array_len", .int e.workspace.keep.length),
      ("pending_growth", .object [
        ("integer", .bool e.pending.integer), ("real", .bool e.pending.real)])]),
    ("attempt_trace_summary", (TraceSummary.ofTrace e.trace).toJson)]

end Engine

end SymSolve
