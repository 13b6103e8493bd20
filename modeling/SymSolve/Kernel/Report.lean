import SymSolve.Json.Numbers
import SymSolve.Kernel.Info
import SymSolve.Kernel.Recorded

/-!
# Kernel answers and calls as JSON values
-/

namespace SymSolve

variable {α : Type}

/-- An integer that may be absent. -/
def Json.index (i : Option Nat) : Json α := match i with
  | some i => .int i
  | none => .null

/-- A list of integers. -/
def Json.ints (is : List Int) : Json α := .list (is.map .int)

/-- A list of natural numbers. -/
def Json.nats (is : List Nat) : Json α := .list (is.map fun (i : Nat) => .int i)

/-- The report of an analysis. -/
def AnalysisResult.toJson (r : AnalysisResult) : Json α :=
  .object [
    ("status", .text r.statusName),
    ("recommended_real_len", .int r.realLength),
    ("recommended_integer_len", .int r.integerLength),
    ("iflag", .int r.flag),
    ("ierror", .int r.detail)]

/-- The report of a factorization. -/
def FactorizationResult.toJson (r : FactorizationResult) : Json α :=
  .object [
    ("status", .text r.verdict.name),
    ("required_len", .index r.verdict.required?),
    ("neg_eigenvalues", .int r.negative),
    ("rank", .int r.rank),
    ("real_compressions", .int r.realCompressions),
    ("integer_compressions", .int r.integerCompressions),
    ("iflag", .int r.flag),
    ("ierror", .int r.detail)]

/-- A call: its phase and what went in, buffers by their lengths alone. -/
def KernelCall.toJson [Scalar α] [Printable α] : KernelCall α → Json α
  | .analyse s iw keep controls _ _ _ =>
    .list [.text "analyse", .int s.dim, .ints s.rows, .ints s.cols, .int iw.size, .int keep.size,
      .rounded controls.tolerance]
  | .factorize s a iw keep controls _ _ _ _ =>
    .list [.text "factorize", .int s.dim, .int iw.size, .int a.size, .int keep.size,
      .exacts (a.toList.take s.rows.length), .rounded controls.tolerance]
  | .solve dim _ _ rhs _ _ _ _ => .list [.text "solve", .int dim, .exacts rhs.toList]

end SymSolve
