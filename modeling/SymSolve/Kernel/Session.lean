import SymSolve.Kernel.Basic
import SymSolve.SymTriplets

/-!
# Working with a kernel

A session is a kernel with its state and the control words it is called with. It hands buffers
over for one call at a time and reads the kernel's answers: a breach of the kernel's contract
and a breakdown both end the call, but the buffers stay as the kernel left them.
-/

namespace SymSolve

/-- Why a call to a kernel comes to nothing. -/
inductive KernelFault where
  | contract (cause : ContractError)
  | breakdown (cause : Breakdown)
  deriving DecidableEq, Repr

/-- The structure of a matrix with positions counted from one. -/
def Pattern.ofView {α : Type} (m : MatrixView α) : Pattern where
  dim := m.dim
  rows := m.rows.map fun (i : Nat) => (i : Int) + 1
  cols := m.cols.map fun (j : Nat) => (j : Int) + 1

/-- A kernel in use. -/
structure Session (α σ : Type) where
  kernel : Kernel α σ
  state : σ
  controls : Controls α

namespace Session

variable {α σ : Type}

/-- A session with the default control words of a kernel. -/
def start (kernel : Kernel α σ) (state : σ) : Session α σ := ⟨kernel, state, kernel.defaultControls⟩

/-- The pivot tolerance in use. -/
def tolerance (s : Session α σ) : α := s.controls.tolerance

/-- The session with another pivot tolerance. -/
def withTolerance (s : Session α σ) (tolerance : α) : Session α σ :=
  { s with controls := s.controls.withTolerance tolerance }

/-- Reads an answer of a kernel. -/
def read {β : Type} (classify : RawInfo → Except ContractError β) :
    Except Breakdown RawInfo → Except KernelFault β
  | .error cause => .error (.breakdown cause)
  | .ok raw => (classify raw).mapError .contract

/-- A session and its buffers after an analysis. -/
structure Analysis (α σ : Type) where
  session : Session α σ
  iw : Array Int
  keep : Array Int
  result : Except KernelFault AnalysisResult

/-- Analyses a structure. -/
def analyse (s : Session α σ) (pattern : Pattern) (iw keep : Array Int) : Analysis α σ :=
  let r := s.kernel.analyse s.state pattern ⟨iw, rfl⟩ ⟨keep, rfl⟩ s.controls
  { session := { s with state := r.state }
    iw := r.iw.toArray
    keep := r.keep.toArray
    result := read AnalysisResult.ofRaw? r.answer }

/-- A session and its buffers after a factorization. -/
structure Factorization (α σ : Type) where
  session : Session α σ
  a : Array α
  iw : Array Int
  keep : Array Int
  result : Except KernelFault FactorizationResult

/-- Factorizes the matrix with the given structure and the values in the front of `a`. -/
def factorize (s : Session α σ) (pattern : Pattern) (a : Array α) (iw keep : Array Int) :
    Factorization α σ :=
  let r := s.kernel.factorize s.state pattern ⟨a, rfl⟩ ⟨iw, rfl⟩ ⟨keep, rfl⟩ s.controls
  { session := { s with state := r.state }
    a := r.a.toArray
    iw := r.iw.toArray
    keep := r.keep.toArray
    result := read FactorizationResult.ofRaw? r.answer }

/-- A session and its buffers after a backsolve. -/
structure Backsolve (α σ : Type) where
  session : Session α σ
  a : Array α
  iw : Array Int
  result : Except KernelFault (BacksolveResult α)

/-- Solves for one right-hand side, which stays as it is: the kernel works on a copy. A
right-hand side of the wrong length does not reach the kernel. -/
def backsolve (s : Session α σ) (dim : Int) (rhs : List α) (a : Array α) (iw : Array Int) :
    Backsolve α σ :=
  if rhs.length = dim then
    let r := s.kernel.solve s.state dim ⟨a, rfl⟩ ⟨iw, rfl⟩ (⟨rhs.toArray, rfl⟩ : Vector α _)
    { session := { s with state := r.state }
      a := r.a.toArray
      iw := r.iw.toArray
      result := (Kernel.readSolve r.rhs r.answer).mapError .breakdown }
  else ⟨s, a, iw, .error (.contract (.rhsLength rhs.length dim))⟩

theorem size_analyse_iw (s : Session α σ) (pattern : Pattern) (iw keep : Array Int) :
    (s.analyse pattern iw keep).iw.size = iw.size := Vector.size_toArray _

theorem size_analyse_keep (s : Session α σ) (pattern : Pattern) (iw keep : Array Int) :
    (s.analyse pattern iw keep).keep.size = keep.size := Vector.size_toArray _

theorem size_factorize_a (s : Session α σ) (pattern : Pattern) (a : Array α)
    (iw keep : Array Int) : (s.factorize pattern a iw keep).a.size = a.size :=
  Vector.size_toArray _

theorem size_factorize_iw (s : Session α σ) (pattern : Pattern) (a : Array α)
    (iw keep : Array Int) : (s.factorize pattern a iw keep).iw.size = iw.size :=
  Vector.size_toArray _

theorem size_backsolve_a (s : Session α σ) (dim : Int) (rhs : List α) (a : Array α)
    (iw : Array Int) : (s.backsolve dim rhs a iw).a.size = a.size := by
  unfold backsolve
  split
  · exact Vector.size_toArray _
  · rfl

theorem size_backsolve_iw (s : Session α σ) (dim : Int) (rhs : List α) (a : Array α)
    (iw : Array Int) : (s.backsolve dim rhs a iw).iw.size = iw.size := by
  unfold backsolve
  split
  · exact Vector.size_toArray _
  · rfl

theorem kernel_backsolve (s : Session α σ) (dim : Int) (rhs : List α) (a : Array α)
    (iw : Array Int) : (s.backsolve dim rhs a iw).session.kernel = s.kernel := by
  unfold backsolve
  split <;> rfl

theorem controls_backsolve (s : Session α σ) (dim : Int) (rhs : List α) (a : Array α)
    (iw : Array Int) : (s.backsolve dim rhs a iw).session.controls = s.controls := by
  unfold backsolve
  split <;> rfl

end Session

end SymSolve
