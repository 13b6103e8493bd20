/-!
# The catalog of diagnostics

Every code that the library reports has an entry with its severity, the stage it belongs to and
the advice that goes with it.
-/

namespace SymSolve

/-- How grave a diagnostic is. Reports list errors first. -/
inductive Severity where
  | error
  | warning
  deriving DecidableEq, Repr

namespace Severity

/-- All severities, in report order. -/
def all : List Severity := [error, warning]

/-- The place in reports. -/
def rank : Severity → Nat
  | error => 0
  | warning => 1

/-- The word for a severity. -/
def name : Severity → String
  | error => "error"
  | warning => "warning"

/-- The severity with a given name. -/
def ofName? (name : String) : Option Severity := all.find? fun s => s.name = name

end Severity

/-- The stages of solving a system, in report order. -/
inductive Stage where
  | parse
  | configure
  | analyse
  | factorize
  | backsolve
  deriving DecidableEq, Repr

namespace Stage

/-- All stages, in report order. -/
def all : List Stage := [parse, configure, analyse, factorize, backsolve]

/-- The place in reports. -/
def rank : Stage → Nat
  | parse => 0
  | configure => 1
  | analyse => 2
  | factorize => 3
  | backsolve => 4

/-- The word for a stage. -/
def name : Stage → String
  | parse => "parse"
  | configure => "configure"
  | analyse => "analyse"
  | factorize => "factorize"
  | backsolve => "backsolve"

/-- The stage with a given name. -/
def ofName? (name : String) : Option Stage := all.find? fun s => s.name = name

end Stage

/-- What the catalog says about a code. -/
structure CatalogEntry where
  code : String
  severity : Severity
  stage : Stage
  action : String
  deriving DecidableEq, Repr

/-- Why entries make no catalog. -/
inductive CatalogError where
  | emptyCode
  | emptyAction (code : String)
  | duplicate (code : String)
  deriving DecidableEq, Repr

/-- The text of a refusal. -/
def CatalogError.text : CatalogError → String
  | emptyCode => "diagnostic catalog code must be non-empty"
  | emptyAction code => s!"diagnostic catalog entry '{code}' suggested_action must be non-empty"
  | duplicate code => s!"duplicate diagnostic catalog code: {code}"

/-- Checks one entry. -/
def CatalogEntry.checked (entry : CatalogEntry) : Except CatalogError CatalogEntry :=
  if entry.code = "" then .error .emptyCode
  else if entry.action = "" then .error (.emptyAction entry.code)
  else .ok entry

/-- Entries with different codes. -/
structure Catalog where
  entries : List CatalogEntry
  deriving Repr

namespace Catalog

/-- The entry for a code. -/
def find? (catalog : Catalog) (code : String) : Option CatalogEntry :=
  catalog.entries.find? fun entry => entry.code = code

/-- The codes, in the order of the entries. -/
def codes (catalog : Catalog) : List String := catalog.entries.map CatalogEntry.code

/-- Adds an entry after the others. -/
def add (catalog : Catalog) (entry : CatalogEntry) : Except CatalogError Catalog :=
  if (catalog.find? entry.code).isSome then .error (.duplicate entry.code)
  else .ok ⟨catalog.entries ++ [entry]⟩

/-- The catalog of some entries: each entry is checked first, then they are added in order. -/
def ofEntries (entries : List CatalogEntry) : Except CatalogError Catalog := do
  let checked ← entries.mapM CatalogEntry.checked
  checked.foldlM add ⟨[]⟩

/-- The catalog of the codes that this library reports. -/
def canonical : Catalog where
  entries := [
    ⟨"E_LIN_STRUCTURE_INVALID", .error, .analyse,
      "check dimension and triplet indices, then reset the solver structure"⟩,
    ⟨"E_LIN_SINGULAR", .error, .factorize,
      "perturb the matrix or increase factorization quality and retry"⟩,
    ⟨"E_LIN_WRONG_INERTIA", .error, .factorize,
      "perturb the matrix until the expected inertia is obtained"⟩,
    ⟨"E_LIN_KERNEL_FAILED", .error, .factorize,
      "inspect kernel status and reset the solver structure before retrying"⟩,
    ⟨"E_LIN_BACKSOLVE_FAILED", .error, .backsolve,
      "inspect kernel status and reset the solver structure before retrying"⟩,
    ⟨"W_LIN_WORKSPACE_REALLOCATED", .warning, .factorize,
      "raise the workspace init factors if reallocations repeat"⟩,
    ⟨"W_LIN_WORKSPACE_GROWTH_SCHEDULED", .warning, .factorize,
      "raise the workspace init factors if compressions repeat"⟩,
    ⟨"W_LIN_QUALITY_INCREASED", .warning, .factorize,
      "expect a refactorization on the next solve"⟩,
    ⟨"E_CLI_MATRIX_LOAD_FAILED", .error, .parse,
      "provide a square symmetric Matrix Market file and a matching right-hand side"⟩,
    ⟨"E_CLI_OPTIONS_INVALID", .error, .configure,
      "fix the linear solver options artifact"⟩]

theorem canonical_nodup : canonical.codes.Nodup := by decide +kernel

end Catalog

end SymSolve
