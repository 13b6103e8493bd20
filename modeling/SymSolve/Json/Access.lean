import SymSolve.Grid
import SymSolve.Json

/-!
# Looking into JSON values

What a value is taken for where a number, a text or a table is expected. Where a real number is
expected an integer stands for the real number nearest to it, and the words `nan`, `inf` and
`-inf` stand for the numbers that are not finite. A nested list is a table if all lists of one
depth are equally long.
-/

namespace SymSolve.Json

variable {α : Type}

/-! ## Fields -/

/-- The field of an object under a key; of several the last. -/
def field? (v : Json α) (key : String) : Option (Json α) :=
  match v with
  | .object fields => (fields.reverse.find? fun f => f.1 = key).map Prod.snd
  | _ => none

/-- The field under a key; null if there is none. -/
def get (v : Json α) (key : String) : Json α := (v.field? key).getD .null

/-- The field under a key, unless it is null. -/
def given? (v : Json α) (key : String) : Option (Json α) :=
  match v.field? key with
  | some .null => none
  | r => r

/-! ## Single values -/

/-- The text of a value; any other value has an empty text. -/
def asText : Json α → String
  | .text s => s
  | _ => ""

/-- The items of a list; any other value has none. -/
def asList : Json α → List (Json α)
  | .list items => items
  | _ => []

/-- Whether a value counts as true. -/
def asBool : Json α → Bool
  | .bool b => b
  | .int i => i ≠ 0
  | _ => false

section Numbers

variable [Scalar α]

/-- The integer part of a number; zero for any other value. -/
def asInt : Json α → Int
  | .int i => i
  | .bool b => if b then 1 else 0
  | .real x => match Scalar.truncate x with
    | .ok i => i
    | .error _ => 0
  | _ => 0

/-- The real number that a value stands for. -/
def asReal : Json α → α
  | .int i => Scalar.ofInt i
  | .real x => x
  | .bool b => if b then 1 else 0
  | .text s => if s = "inf" then 1 / 0 else if s = "-inf" then -(1 / 0) else 0 / 0
  | _ => 0 / 0

/-- The integer in a field, or else a default. -/
def intField (v : Json α) (key : String) (default : Int) : Int :=
  ((v.given? key).map asInt).getD default

/-- The real number in a field, or else a default. -/
def realField (v : Json α) (key : String) (default : α) : α :=
  ((v.given? key).map asReal).getD default

end Numbers

/-! ## Tables -/

mutual

/-- The extents of a nested list and the values in it; none if it is ragged. -/
def leaves? : Json α → Option (Grid (Json α))
  | .list [] => some ⟨[0], []⟩
  | .list (v :: vs) =>
    match leaves? v with
    | none => none
    | some first => (moreLeaves? first.shape vs).map fun (count, entries) =>
      ⟨(count + 1) :: first.shape, first.entries ++ entries⟩
  | v => some ⟨[], [v]⟩

/-- How many lists there are, and the values in them, if all have the given extents. -/
def moreLeaves? (shape : List Nat) : List (Json α) → Option (Nat × List (Json α))
  | [] => some (0, [])
  | v :: vs =>
    match leaves? v with
    | none => none
    | some g =>
      if g.shape = shape then
        (moreLeaves? shape vs).map fun (count, entries) => (count + 1, g.entries ++ entries)
      else none

end

/-- A table of real numbers. -/
def reals? [Scalar α] (v : Json α) : Option (Grid α) :=
  (leaves? v).map fun g => ⟨g.shape, g.entries.map asReal⟩

/-- A table of integers. -/
def ints? [Scalar α] (v : Json α) : Option (Grid Int) :=
  (leaves? v).map fun g => ⟨g.shape, g.entries.map asInt⟩

end SymSolve.Json
