import SymSolve.CommandLine.Request
import SymSolve.Diagnostic.Order
import SymSolve.Diagnostic.Report
import SymSolve.Engine.Fault

/-!
# Reports

A report says what a solve came to. As text it lists records, each ended by a line feed; as JSON it
is one object.
-/

namespace SymSolve

/-- The exit code of the program after a solve. -/
def Outcome.exitCode : Outcome → Nat
  | success => 0
  | wrongInertia => 1
  | singular | fatalError => 2

namespace CommandLine

/-- What a solve came to. -/
structure SolveReport (α : Type) where
  outcome : Outcome
  solution : Option (List α)
  /-- The number of negative eigenvalues. -/
  negative : Option Int
  /-- The measures of the residual. -/
  euclidean : Option α
  largest : Option α
  relative : Option α
  diagnostics : List (Event α)
  /-- The solver after the solve. -/
  snapshot : Option (Json α)

namespace SolveReport

variable {α : Type}

/-! ## Text -/

section Text

variable [Printable α]

/-- A number with twelve significant digits. -/
def numberText (x : Option α) : String := (x.map (Printable.general 12)).getD "n/a"

/-- The record of an outcome. -/
def outcomeRecord (r : SolveReport α) : String :=
  let outcome := r.outcome.name
  let negative := (r.negative.map toString).getD "n/a"
  s!"SOLVE outcome={outcome} neg_eigenvalues={negative}"

/-- The record of a residual. -/
def residualRecord (r : SolveReport α) : String :=
  let euclidean := numberText r.euclidean
  let largest := numberText r.largest
  let relative := numberText r.relative
  s!"RESIDUAL res_l2={euclidean} res_linf={largest} res_rel={relative}"

/-- The record of a component of the solution. -/
def componentRecord (index : Nat) (x : α) : String :=
  let value := numberText (some x)
  s!"X index={index} value={value}"

/-- The record of a diagnostic. -/
def diagnosticRecord (e : Event α) : String :=
  let severity := e.severity.name
  let stage := e.stage.name
  let code := e.code
  let message := e.message
  s!"DIAG severity={severity} stage={stage} code={code} message={message}"

/-- The records of a solution; without one there are none. -/
def solutionRecords (r : SolveReport α) : List String :=
  match r.solution with
  | none => []
  | some x => residualRecord r :: x.zipIdx.map fun (x, index) => componentRecord index x

/-- The records of a report. -/
def records (r : SolveReport α) : List String :=
  outcomeRecord r :: (solutionRecords r ++ r.diagnostics.map diagnosticRecord)

/-- A report as text: every record is ended by a line feed. -/
def text (r : SolveReport α) : String :=
  String.join (r.records.map fun record => record ++ "\n")

end Text

/-! ## JSON -/

/-- The schema of reports. -/
def schema : String := "solve_output_v1"

/-- A report on the system with the matrix at a path, as a JSON value. -/
def toJson (matrix : String) (r : SolveReport α) : Json α :=
  let number (x : Option α) : Json α := (x.map .real).getD .null
  .object [
    ("schema", .text schema),
    ("matrix", .text matrix),
    ("outcome", .text r.outcome.name),
    ("exit_code", .int r.outcome.exitCode),
    ("neg_eigenvalues", (r.negative.map .int).getD .null),
    ("residual", .object [
      ("res_l2", number r.euclidean),
      ("res_linf", number r.largest),
      ("res_rel", number r.relative)]),
    ("x", (r.solution.map fun x => .list (x.map .real)).getD .null),
    ("diagnostics", .list (r.diagnostics.map Event.toCompactJson)),
    ("solver_snapshot", r.snapshot.getD .null)]

/-- A report in a format. -/
def render [Scalar α] [Printable α] (format : ReportFormat) (matrix : String)
    (r : SolveReport α) : String :=
  match format with
  | .text => r.text
  | .json => (r.toJson matrix).render ++ "\n"

end SolveReport

end CommandLine

end SymSolve
