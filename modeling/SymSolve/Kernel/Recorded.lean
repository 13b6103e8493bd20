import SymSolve.Kernel.Basic

/-!
# Kernels that keep a record

`Kernel.recorded` answers as a given kernel does and lists its calls, each with all that went in
and all that came out.
-/

namespace SymSolve

/-- One call of a kernel. -/
inductive KernelCall (α : Type) where
  | analyse (s : Pattern) (iw keep : Array Int) (controls : Controls α)
      (iwAfter keepAfter : Array Int) (answer : Except Breakdown RawInfo)
  | factorize (s : Pattern) (a : Array α) (iw keep : Array Int) (controls : Controls α)
      (aAfter : Array α) (iwAfter keepAfter : Array Int) (answer : Except Breakdown RawInfo)
  | solve (dim : Int) (a : Array α) (iw : Array Int) (rhs : Array α)
      (aAfter : Array α) (iwAfter : Array Int) (rhsAfter : Array α)
      (answer : Except Breakdown Int)

/-- A kernel's state with the calls so far, in order. -/
structure Recorded (α σ : Type) where
  state : σ
  calls : List (KernelCall α)

/-- The kernel with a record of its calls. -/
def Kernel.recorded {α σ : Type} (k : Kernel α σ) : Kernel α (Recorded α σ) where
  id := k.id
  defaultControls := k.defaultControls
  analyse r s iw keep controls :=
    let out := k.analyse r.state s iw keep controls
    let call := .analyse s iw.toArray keep.toArray controls out.iw.toArray out.keep.toArray
      out.answer
    { out with state := ⟨out.state, r.calls ++ [call]⟩ }
  factorize r s a iw keep controls :=
    let out := k.factorize r.state s a iw keep controls
    let call := .factorize s a.toArray iw.toArray keep.toArray controls out.a.toArray
      out.iw.toArray out.keep.toArray out.answer
    { out with state := ⟨out.state, r.calls ++ [call]⟩ }
  solve r dim a iw rhs :=
    let out := k.solve r.state dim a iw rhs
    let call := .solve dim a.toArray iw.toArray rhs.toArray out.a.toArray out.iw.toArray
      out.rhs.toArray out.answer
    { out with state := ⟨out.state, r.calls ++ [call]⟩ }

end SymSolve
