import SymSolve.CommandLine.Input
import SymSolve.CommandLine.Report
import SymSolve.Engine.Snapshot
import SymSolve.Json.Indented
import SymSolve.Kernel.Reference

/-!
# Answers to command lines

A request is answered from what the paths in it lead to. Whatever the files hold, a system is
reported as solved only if the solver says so, and a fault in a file is a report of its own.
-/

namespace SymSolve.CommandLine

variable {α : Type}

/-- The answer to a command line. -/
inductive Answer (α : Type) where
  | misused (fault : UsageFault)
  | help
  | options (value : Json α)
  | optionsRefused (message : String)
  | solved (request : SolveRequest) (report : SolveReport α)
  | aborted (cause : Abort)

/-- The name of the solver in diagnostics. -/
def solverId : String := "cli.solve"

/-! ## Solving -/

section Solving

variable [RealScalar α]

/-- The report of a solve by an engine that is now in the given state. -/
def reportOf {σ : Type} (s : LinearSystem α) (outcome : Outcome) (x : List α) (e : Engine α σ)
    [Printable α] : Except Abort (SolveReport α) := do
  let negative ← match outcome with
    | .success | .wrongInertia =>
      (e.negativeEigenvalues.map some).mapError fun cause => Abort.engine (.usage cause)
    | _ => pure none
  let residual ← match outcome with
    | .success => ((Residual.ofArgument (.triplets s.matrix) s.rhs x
        Residual.standardEpsilon).map some).mapError Abort.residual
    | _ => pure none
  return {
    outcome, negative
    solution := if outcome = .success then some x else none
    euclidean := residual.map Residual.euclidean
    largest := residual.map Residual.largest
    relative := residual.map Residual.relative
    diagnostics := Event.sort e.diagnostics
    snapshot := some e.snapshot }

/-- Solves a system with a new engine. -/
def solveSystem [Printable α] (options : Options α) (s : LinearSystem α) (demand : InertiaDemand) :
    Except Abort (SolveReport α) := do
  let e ← (Engine.create .machine options Reference.kernel () solverId true).mapError fun cause =>
    Abort.engine (.usage cause)
  let zero : DenseVector α := ⟨List.replicate s.matrix.dim 0⟩
  let (answer, e) := e.solve s.matrix.view ⟨s.rhs⟩ zero demand
  let outcome ← answer.result.mapError Abort.engine
  reportOf s outcome (answer.solutions.headD zero).entries e

end Solving

/-- The report of a fault in a file. -/
def reportFault [Scalar α] (fault : InputFault) : Except Abort (SolveReport α) :=
  let request : EventRequest α := {
    code := .text fault.code
    message := .text fault.text
    solverId := .text solverId
    witness := .ofFields [("error_type", .text fault.kind)] }
  match Event.build request with
  | .error cause => .error (.engine (.event cause))
  | .ok event => .ok {
      outcome := .fatalError
      solution := none
      negative := none
      euclidean := none
      largest := none
      relative := none
      diagnostics := [event]
      snapshot := none }

/-! ## Answers -/

namespace Answer

variable [RealScalar α] [Printable α]

/-- The report on a system to solve. -/
def reportFor (r : SolveRequest) (files : Files) : Except Abort (SolveReport α) :=
  let loaded : Except LoadFault (Options α × LinearSystem α) := do
    let o ← loadOptions r.options files
    return (o, ← loadSystem r.matrix r.rhs files)
  match loaded with
  | .ok (o, system) => solveSystem o system r.demand
  | .error (.reported fault) => reportFault fault
  | .error (.aborted cause) => .error cause

/-- The answer to a request. -/
def ofRequest (files : Files) : Request → Answer α
  | .help => help
  | .solve r => match reportFor r files with
    | .ok report => solved r report
    | .error cause => aborted cause
  | .options artifact => match (loadOptions artifact files : Except LoadFault (Options α)) with
    | .ok o => options o.snapshot
    | .error (.reported fault) => optionsRefused fault.text
    | .error (.aborted cause) => aborted cause

/-- The answer to a command line. -/
def ofArgs (args : List String) (files : Files) : Answer α :=
  match Request.ofArgs args with
  | .error fault => misused fault
  | .ok request => ofRequest files request

end Answer

/-! ## What is printed -/

namespace Answer

/-- How to call the program. -/
def usage : String :=
  "solve MATRIX [--rhs FILE] [--check-inertia] [--expected-neg COUNT] [--options FILE]\n" ++
  "  [--format text|json]    factorize and solve a symmetric Matrix Market system\n" ++
  "options [--options FILE]  print the resolved linear solver options\n"

/-- What an answer prints. -/
def output [Scalar α] [Printable α] : Answer α → String
  | help => usage
  | options value => value.renderIndented ++ "\n"
  | optionsRefused message => s!"options invalid: {message}\n"
  | solved request report => report.render request.format request.matrix
  | misused _ | aborted _ => ""

/-- What an answer complains about. -/
def complaint? : Answer α → Option String
  | misused fault => some fault.text
  | aborted cause => some cause.text
  | _ => none

/-- The exit code of an answer. -/
def exitCode : Answer α → Nat
  | help | options _ => 0
  | solved _ report => report.outcome.exitCode
  | misused _ | optionsRefused _ => 2
  | aborted _ => 1

end Answer

end SymSolve.CommandLine
