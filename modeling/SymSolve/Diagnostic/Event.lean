import SymSolve.Diagnostic.Catalog
import SymSolve.Diagnostic.Payload
import SymSolve.Numeral

/-!
# Diagnostic events

An event says what happened, how grave it is, at which stage, to which solver and in which of its
solves, and carries the evidence. `Draft.validate` is the only way from loose fields to an
event, and it lists everything that is wrong with them. `Event.build` fills in from the catalog
what the caller leaves out.
-/

namespace SymSolve

/-- A diagnostic. -/
structure Event (α : Type) where
  code : String
  severity : Severity
  message : String
  action : String
  stage : Stage
  solverId : String
  solveIndex : Option Nat
  attemptIndex : Option Nat
  witness : Option (Json α)

/-! ## Validation of loose fields -/

/-- What can be wrong with one field. -/
inductive FieldFault where
  | missing
  | notText
  | emptyText
  | notOneOf (names : List String)
  | notInteger
  | fractional
  | unreadable
  | tooLarge
  | notFinite
  | negative
  | badWitness (cause : WitnessError)
  | unknownField
  | attemptWithoutSolve
  deriving DecidableEq, Repr

namespace FieldFault

/-- Names in quotes, separated by commas, the last one by a word. -/
def alternatives : List String → String
  | [] => ""
  | [a] => s!"'{a}'"
  | [a, b] => s!"'{a}' or '{b}'"
  | a :: rest => s!"'{a}', " ++ alternatives rest

/-- The kind of a fault. -/
def kind : FieldFault → String
  | missing => "missing"
  | notText => "string_type"
  | emptyText => "string_too_short"
  | notOneOf _ => "enum"
  | notInteger => "int_type"
  | fractional => "int_from_float"
  | unreadable => "int_parsing"
  | tooLarge => "int_parsing_size"
  | notFinite => "finite_number"
  | negative => "greater_than_equal"
  | badWitness _ | attemptWithoutSolve => "value_error"
  | unknownField => "extra_forbidden"

/-- The text of a fault. -/
def text : FieldFault → String
  | missing => "Field required"
  | notText => "Input should be a valid string"
  | emptyText => "String should have at least 1 character"
  | notOneOf names => "Input should be " ++ alternatives names
  | notInteger => "Input should be a valid integer"
  | fractional => "Input should be a valid integer, got a number with a fractional part"
  | unreadable => "Input should be a valid integer, unable to parse string as an integer"
  | tooLarge => "Unable to parse input string as an integer, exceeded maximum size"
  | notFinite => "Input should be a finite number"
  | negative => "Input should be greater than or equal to 0"
  | badWitness cause => "Value error, " ++ cause.text
  | unknownField => "Extra inputs are not permitted"
  | attemptWithoutSolve => "Value error, attempt_index requires solve_index"

end FieldFault

/-- A fault and the field it is in; `none` if it concerns the event as a whole. -/
structure FieldError where
  field : Option String
  fault : FieldFault
  deriving DecidableEq, Repr

namespace Index

/-- White space around a number. -/
def isSpace (c : Char) : Bool := Numeral.isSpace c && !(0x1c ≤ c.toNat && c.toNat ≤ 0x1f)

/-- A text without the white space around it and without a plus before it. -/
def bare (s : String) : List Char :=
  match ((s.toList.dropWhile isSpace).reverse.dropWhile isSpace).reverse with
  | '+' :: rest => rest
  | cs => cs

/-- A whole number as text: white space around it, a sign and a fraction of zeros are allowed. A
negative number has no leading zeros. -/
def parse? (s : String) : Option Int :=
  let cs := bare s
  let whole := cs.takeWhile (· ≠ '.')
  if (cs.dropWhile (· ≠ '.')).drop 1 |>.all (· = '0') then
    match whole with
    | '-' :: digits =>
      if digits.head? = some '0' ∧ digits ≠ ['0'] then none
      else (Numeral.grouped? digits).map fun n => -(n : Int)
    | digits => (Numeral.grouped? digits).map Int.ofNat
  else none

variable {α : Type} [Scalar α]

/-- A real number as an index: it must be whole and fit a machine word. -/
def ofReal (x : α) : Except FieldFault Int :=
  match Scalar.truncate x with
  | .error _ => .error .notFinite
  | .ok i =>
    if !Scalar.eq (Scalar.ofInt i) x then .error .fractional
    else if -(signBit : Int) < i ∧ i < signBit then .ok i
    else .error .tooLarge

/-- An index that may be absent: an integer, a truth value, a whole real number or the text of a
whole number, and not negative. -/
def ofPayload (v : Payload α) : Except FieldFault (Option Nat) :=
  let value : Except FieldFault (Option Int) := match v with
    | .null => .ok none
    | .bool b => .ok (some (if b then 1 else 0))
    | .int i => .ok (some i)
    | .real x => (ofReal x).map some
    | .text s => match parse? s with
      | some i => .ok (some i)
      | none => .error .unreadable
    | _ => .error .notInteger
  match value with
  | .error fault => .error fault
  | .ok none => .ok none
  | .ok (some i) => if i < 0 then .error .negative else .ok (some i.toNat)

end Index

/-- The fields of an event before validation; `none` for a field that is not given at all. -/
structure Draft (α : Type) where
  code : Option (Payload α) := none
  severity : Option (Payload α) := none
  message : Option (Payload α) := none
  action : Option (Payload α) := none
  stage : Option (Payload α) := none
  solverId : Option (Payload α) := none
  solveIndex : Option (Payload α) := none
  attemptIndex : Option (Payload α) := none
  witness : Option (Payload α) := none
  /-- Names of fields that no event has. -/
  unknown : List String := []

namespace Draft

variable {α : Type} [Scalar α]

/-- A text that is not empty. -/
def textOf : Option (Payload α) → Except FieldFault String
  | none => .error .missing
  | some (.text s) => if s = "" then .error .emptyText else .ok s
  | some _ => .error .notText

/-- One of several named values. -/
def oneOf {β : Type} (names : List String) (ofName? : String → Option β) :
    Option (Payload α) → Except FieldFault β
  | none => .error .missing
  | some (.text s) => match ofName? s with
    | some b => .ok b
    | none => .error (.notOneOf names)
  | some _ => .error (.notOneOf names)

/-- An index; none if it is not given. -/
def indexOf (v : Option (Payload α)) : Except FieldFault (Option Nat) :=
  Index.ofPayload (v.getD .null)

/-- Evidence in its JSON form; none if it is not given or null. -/
def witnessOf : Option (Payload α) → Except FieldFault (Option (Json α))
  | none | some .null => .ok none
  | some v => match v.normalize with
    | .ok v => .ok (some v)
    | .error cause => .error (.badWitness cause)

/-- The fault of a field, if it has one. -/
def faultIn {β : Type} (field : String) : Except FieldFault β → List FieldError
  | .ok _ => []
  | .error fault => [⟨some field, fault⟩]

/-- The event with the given fields, or all faults in the order of the fields. Whether the
attempt belongs to a solve is asked last, and only if nothing else is wrong. -/
def validate (d : Draft α) : Except (List FieldError) (Event α) :=
  let code := textOf d.code
  let severity := oneOf (Severity.all.map Severity.name) Severity.ofName? d.severity
  let message := textOf d.message
  let action := textOf d.action
  let stage := oneOf (Stage.all.map Stage.name) Stage.ofName? d.stage
  let solverId := textOf d.solverId
  let solveIndex := indexOf d.solveIndex
  let attemptIndex := indexOf d.attemptIndex
  let witness := witnessOf d.witness
  let faults := faultIn "code" code ++ faultIn "severity" severity ++ faultIn "message" message ++
    faultIn "suggested_action" action ++ faultIn "solver_stage" stage ++
    faultIn "solver_id" solverId ++ faultIn "solve_index" solveIndex ++
    faultIn "attempt_index" attemptIndex ++ faultIn "witness" witness ++
    d.unknown.map fun name => ⟨some name, .unknownField⟩
  match faults with
  | [] =>
    match code, severity, message, action, stage, solverId, solveIndex, attemptIndex, witness with
    | .ok code, .ok severity, .ok message, .ok action, .ok stage, .ok solverId, .ok solveIndex,
        .ok attemptIndex, .ok witness =>
      if attemptIndex.isSome ∧ solveIndex.isNone then .error [⟨none, .attemptWithoutSolve⟩]
      else .ok { code, severity, message, action, stage, solverId, solveIndex, attemptIndex,
                 witness }
    | _, _, _, _, _, _, _, _, _ => .error []
  | faults => .error faults

end Draft

/-! ## Building events with the catalog -/

/-- What a caller says about an event. -/
structure EventRequest (α : Type) where
  code : Payload α
  message : Payload α
  solverId : Payload α
  solveIndex : Payload α := .null
  attemptIndex : Payload α := .null
  witness : Payload α := .null
  severity : Option Severity := none
  stage : Option Stage := none
  action : Option (Payload α) := none

/-- Why an event is not built. -/
inductive EventError where
  | emptyCode
  | emptyMessage
  | emptySolverId
  | emptyAction
  /-- The catalog does not know the code, and the caller does not give the field either. -/
  | uncatalogued (code : String) (field : String)
  | invalid (errors : List FieldError)
  deriving DecidableEq, Repr

/-- The text of a refusal; faults of fields have texts of their own. -/
def EventError.text : EventError → String
  | emptyCode => "diagnostic code must be non-empty"
  | emptyMessage => "diagnostic message must be non-empty"
  | emptySolverId => "diagnostic solver_id must be non-empty"
  | emptyAction => "diagnostic suggested_action must be non-empty"
  | uncatalogued code field =>
    s!"diagnostic code '{code}' is not in canonical catalog; explicit {field} is required"
  | invalid _ => ""

namespace Event

variable {α : Type} [Scalar α]

/-- A code as text, to look it up. -/
def codeName : Payload α → String
  | .text s => s
  | .int i => toString i
  | _ => ""

/-- The value given, or else the one in the catalog. -/
def resolve {β : Type} (code field : String) (given : Option β) (catalogued : Option β) :
    Except EventError β :=
  match given, catalogued with
  | some b, _ | none, some b => .ok b
  | none, none => .error (.uncatalogued code field)

/-- Builds an event. -/
def build (r : EventRequest α) : Except EventError (Event α) := do
  if r.code.isBlank then throw .emptyCode
  if r.message.isBlank then throw .emptyMessage
  if r.solverId.isBlank then throw .emptySolverId
  let code := codeName r.code
  let entry := Catalog.canonical.find? code
  let severity ← resolve code "severity" r.severity (entry.map CatalogEntry.severity)
  let stage ← resolve code "solver_stage" r.stage (entry.map CatalogEntry.stage)
  let action ← resolve code "suggested_action" r.action
    (entry.map fun entry => .text entry.action)
  if action.isBlank then throw .emptyAction
  let draft : Draft α := {
    code := some r.code
    severity := some (.text severity.name)
    message := some r.message
    action := some action
    stage := some (.text stage.name)
    solverId := some r.solverId
    solveIndex := some r.solveIndex
    attemptIndex := some r.attemptIndex
    witness := some r.witness }
  draft.validate.mapError .invalid

end Event

end SymSolve
