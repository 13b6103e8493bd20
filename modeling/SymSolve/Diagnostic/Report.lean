import SymSolve.Diagnostic.Event
import SymSolve.Json.Access

/-!
# Diagnostics as JSON values
-/

namespace SymSolve

variable {α : Type}

mutual

/-- Evidence given as a JSON value. -/
def Payload.ofJson : Json α → Payload α
  | .null => .null
  | .bool b => .bool b
  | .int i => .int i
  | .real x => .real x
  | .text s => .text s
  | .list items => .sequence (ofItems items)
  | .object fields => .mapping (ofEntries fields)

/-- Evidence given as the items of a list. -/
def Payload.ofItems : List (Json α) → List (Payload α)
  | [] => []
  | v :: vs => ofJson v :: ofItems vs

/-- Evidence given as the fields of an object. -/
def Payload.ofEntries : List (String × Json α) → List (Option String × Payload α)
  | [] => []
  | (key, v) :: fields => (some key, ofJson v) :: ofEntries fields

end

/-- The fields of an event given as an object. -/
def Draft.ofJson (v : Json α) : Draft α :=
  let given (key : String) : Option (Payload α) := (v.field? key).map Payload.ofJson
  let known := ["code", "severity", "message", "suggested_action", "solver_stage", "solver_id",
    "solve_index", "attempt_index", "witness"]
  { code := given "code"
    severity := given "severity"
    message := given "message"
    action := given "suggested_action"
    stage := given "solver_stage"
    solverId := given "solver_id"
    solveIndex := given "solve_index"
    attemptIndex := given "attempt_index"
    witness := given "witness"
    unknown := match v with
      | .object fields => (fields.map Prod.fst).filter fun key => !known.contains key
      | _ => [] }

/-- An entry of the catalog as a JSON value. -/
def CatalogEntry.toJson (e : CatalogEntry) : Json α :=
  .object [
    ("code", .text e.code),
    ("severity", .text e.severity.name),
    ("solver_stage", .text e.stage.name),
    ("suggested_action", .text e.action)]

namespace Event

/-- The fields of an event, each with its value; what an event does not have is null. -/
def fields (e : Event α) : List (String × Json α) :=
  let index (i : Option Nat) : Json α := match i with
    | some i => .int i
    | none => .null
  [("code", .text e.code),
   ("severity", .text e.severity.name),
   ("message", .text e.message),
   ("suggested_action", .text e.action),
   ("solver_stage", .text e.stage.name),
   ("solver_id", .text e.solverId),
   ("solve_index", index e.solveIndex),
   ("attempt_index", index e.attemptIndex),
   ("witness", e.witness.getD .null)]

/-- An event as a JSON value. -/
def toJson (e : Event α) : Json α := .object e.fields

/-- An event as a JSON value without the fields that are null. -/
def toCompactJson (e : Event α) : Json α :=
  let isNull : Json α → Bool
    | .null => true
    | _ => false
  .object (e.fields.filter fun f => !isNull f.2)

end Event

end SymSolve
