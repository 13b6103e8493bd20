import SymSolve.Kernel.Basic

/-!
# Kernels that follow a script

A scripted kernel gives the answers of its script one after the other, whatever the matrix is,
and default answers once the script has run out. It does not touch the work buffers. It serves
to put a solver through situations that a real kernel seldom causes.
-/

namespace SymSolve

/-- What a scripted solve does. -/
inductive SolvePlan (α : Type) where
  /-- Breaks down. -/
  | fail (cause : Breakdown)
  /-- Multiplies the right-hand side by `factor` and answers `flag`. -/
  | scale (factor : α) (flag : Int)

/-- The answers that are left. -/
structure Script (α : Type) where
  analyses : List RawInfo
  factorizations : List RawInfo
  solves : List (SolvePlan α)

/-- The answers of a script that has run out. -/
structure ScriptDefaults where
  realLength : Int
  integerLength : Int
  negative : Int

namespace Script

variable {α : Type}

/-- Takes the next answer of a list. -/
def next {β : Type} (default : β) : List β → β × List β
  | [] => (default, [])
  | b :: rest => (b, rest)

/-- A kernel that follows a script. -/
def kernel [Scalar α] (id : String) (defaults : ScriptDefaults) : Kernel α (Script α) where
  id
  defaultControls := Vector.replicate 5 0
  analyse script s iw keep _ :=
    let usual : KernelInfo := {
      realLength := defaults.realLength
      integerLength := defaults.integerLength
      rank := s.dim }
    let (answer, rest) := next usual.toRaw script.analyses
    ⟨{ script with analyses := rest }, iw, keep, .ok answer⟩
  factorize script s a iw keep _ :=
    let usual : KernelInfo := { rank := s.dim, negative := defaults.negative }
    let (answer, rest) := next usual.toRaw script.factorizations
    ⟨{ script with factorizations := rest }, a, iw, keep, .ok answer⟩
  solve script _ a iw rhs :=
    let (plan, rest) := next (.scale (1 + 1) 0) script.solves
    let script := { script with solves := rest }
    match plan with
    | .fail cause => ⟨script, a, iw, rhs, .error cause⟩
    | .scale factor flag => ⟨script, a, iw, rhs.map (· * factor), .ok flag⟩

end Script

end SymSolve
