import SymSolve.Json

/-!
# Evidence handed in with a diagnostic

A `Payload` is what a caller attaches: besides JSON values it may hold tuples and arrays, mappings
with keys that are no strings, and things that have no JSON form at all. `Payload.normalize` turns
it into a JSON value whose objects have sorted keys, or says why it cannot.
-/

namespace SymSolve

/-- A value as a caller hands it in. -/
inductive Payload (α : Type) where
  | null
  | bool (b : Bool)
  | int (i : Int)
  | real (x : α)
  | text (s : String)
  | sequence (items : List (Payload α))
  | tuple (items : List (Payload α))
  /-- The rows of an array of several dimensions are arrays again. -/
  | array (items : List (Payload α))
  /-- Keys that are no strings are `none`. -/
  | mapping (fields : List (Option String × Payload α))
  /-- A value of a type that JSON does not know. -/
  | foreign (typeName : String)

/-- Why evidence has no JSON form. -/
inductive WitnessError where
  | keys
  | foreign (typeName : String)
  deriving DecidableEq, Repr

/-- The text of a refusal. -/
def WitnessError.text : WitnessError → String
  | keys => "witness object keys must be strings"
  | foreign typeName => s!"witness value of type {typeName} is not JSON-serializable"

namespace Payload

variable {α : Type}

/-- The fields of an object sorted by key, if every key is a string. -/
def sortedFields? {β : Type} (fields : List (Option String × β)) : Option (List (String × β)) :=
  let named (field : Option String × β) : Option (String × β) :=
    field.1.map fun key => (key, field.2)
  (fields.mapM named).map fun fields => fields.mergeSort fun a b => a.1 ≤ b.1

/-- The fields of an object, once their values are normalized. Keys are looked at before values,
and values in the order of their keys. -/
def object (fields : List (Option String × Except WitnessError (Json α))) :
    Except WitnessError (Json α) :=
  match sortedFields? fields with
  | none => .error .keys
  | some sorted =>
    let checked (field : String × Except WitnessError (Json α)) :
        Except WitnessError (String × Json α) :=
      field.2.map fun v => (field.1, v)
    (sorted.mapM checked).map .object

mutual

/-- The JSON form of a payload. -/
def normalize : Payload α → Except WitnessError (Json α)
  | .null => .ok .null
  | .bool b => .ok (.bool b)
  | .int i => .ok (.int i)
  | .real x => .ok (.real x)
  | .text s => .ok (.text s)
  | .sequence items => (normalizeItems items).map .list
  | .tuple items => (normalizeItems items).map .list
  | .array items => (normalizeItems items).map .list
  | .mapping fields => object (normalizeFields fields)
  | .foreign typeName => .error (.foreign typeName)

/-- The JSON forms of several payloads. -/
def normalizeItems : List (Payload α) → Except WitnessError (List (Json α))
  | [] => .ok []
  | v :: vs =>
    match normalize v with
    | .error e => .error e
    | .ok v => (normalizeItems vs).map (v :: ·)

/-- The JSON forms of the values of a mapping, each with its key. -/
def normalizeFields :
    List (Option String × Payload α) → List (Option String × Except WitnessError (Json α))
  | [] => []
  | (key, v) :: fields => (key, normalize v) :: normalizeFields fields

end

/-- A mapping with string keys. -/
def ofFields (fields : List (String × Payload α)) : Payload α :=
  .mapping (fields.map fun (key, v) => (some key, v))

/-- A payload that counts as nothing: no value, an empty one, or zero. An array has no truth value
of its own. -/
def isBlank [Scalar α] : Payload α → Bool
  | .null => true
  | .bool b => !b
  | .int i => i = 0
  | .real x => Scalar.eq x 0
  | .text s => s = ""
  | .sequence items => items.isEmpty
  | .tuple items => items.isEmpty
  | .mapping fields => fields.isEmpty
  | .array _ => false
  | .foreign _ => false

end Payload

end SymSolve
