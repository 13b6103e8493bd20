import SymSolve.Json.Access
import SymSolve.Kernel.Scripted

/-!
# Scripts from named fields

Status words are given as a table, or by name; those that are not named are zero. The plan of a
solve names a breakdown, or a factor and a flag.
-/

namespace SymSolve

variable {α : Type} [Scalar α]

/-- The status words in the fields of an object. -/
def KernelInfo.ofJson (v : Json α) : KernelInfo where
  flag := v.intField "iflag" 0
  detail := v.intField "ierror" 0
  realLength := v.intField "nrlnec" 0
  integerLength := v.intField "nirnec" 0
  realCompressions := v.intField "ncmpbr" 0
  integerCompressions := v.intField "ncmpbi" 0
  rank := v.intField "rank" 0
  negative := v.intField "negevals" 0

/-- Integers that machine words can hold, all of them signed or all of them unsigned. -/
def fitWords (words : List Int) : Bool :=
  words.all fitsSigned || words.all fitsUnsigned

/-- The array of status words that a value stands for; none if it is a ragged table. -/
def RawInfo.ofJson? (v : Json α) : Option RawInfo :=
  match v with
  | .object _ => some (KernelInfo.ofJson v).toRaw
  | v =>
    let isInt : Json α → Bool
      | .int _ => true
      | _ => false
    v.leaves?.map fun g =>
      let words := g.entries.map Json.asInt
      if !words.isEmpty && g.entries.all isInt && fitWords words then .integers ⟨g.shape, words⟩
      else .other g.shape

/-- The plan of a solve, where breakdowns are told by their names. -/
def SolvePlan.ofJson (breakdown : String → Breakdown) (v : Json α) : SolvePlan α :=
  match v.given? "raise" with
  | some name => .fail (breakdown name.asText)
  | none => .scale (v.realField "scale" (1 + 1)) (v.intField "iflag" 0)

/-- The script in the fields of an object. -/
def Script.ofJson (breakdown : String → Breakdown) (v : Json α) : Script α :=
  let info (v : Json α) : RawInfo := (RawInfo.ofJson? v).getD (.other [])
  { analyses := (v.get "analysis").asList.map info
    factorizations := (v.get "factor").asList.map info
    solves := (v.get "solve").asList.map (SolvePlan.ofJson breakdown) }

/-- The kernel that the fields of an object describe. -/
def Kernel.ofJson (v : Json α) : Kernel α (Script α) :=
  Script.kernel (((v.given? "kernel_id").map Json.asText).getD "scripted") {
    realLength := v.intField "nrlnec" 20
    integerLength := v.intField "nirnec" 10
    negative := v.intField "negevals" 0 }

end SymSolve
