import SymSolve.Columns
import SymSolve.CommandLine.Request
import SymSolve.MatrixMarket
import SymSolve.Options.Artifact
import SymSolve.Residual

/-!
# The files of a request

Options, matrix and right-hand side are read in this order, and the first fault ends the reading.
A matrix is a Matrix Market file. A right-hand side is one too if its name says so, and else a
table of numbers. Most faults are reported; a few end the run without a report.
-/

namespace SymSolve.CommandLine

/-- What paths lead to. -/
abbrev Files := String → File

/-! ## Faults -/

/-- Why a file holds no matrix or no vector. -/
inductive ReadFault where
  | file (cause : FileFault)
  | market (cause : MatrixMarket.Fault)
  | columns (cause : Columns.Fault)
  /-- Positions where all entries have to be listed. -/
  | positions
  deriving DecidableEq, Repr

namespace ReadFault

/-- The text of a fault. -/
def text : ReadFault → String
  | file cause => cause.text
  | market cause => cause.text
  | columns cause => cause.text
  | positions => "a right-hand side has to list all its entries"

/-- The kind of a fault, as reports name it. -/
def kind : ReadFault → String
  | file .missing => "FileNotFoundError"
  | file .directory => "IsADirectoryError"
  | file .encoding => "UnicodeDecodeError"
  | _ => "ValueError"

end ReadFault

/-- Why there is no system to solve. -/
inductive InputFault where
  | options (path : String) (cause : ArtifactFault)
  | unreadable (path : String) (cause : ReadFault)
  | matrix (cause : ViewError)
  | rhsLength (found dim : Nat)
  | rhsNotFinite
  deriving DecidableEq, Repr

namespace InputFault

/-- The code of a fault in reports. -/
def code : InputFault → String
  | options _ _ => "E_CLI_OPTIONS_INVALID"
  | _ => "E_CLI_MATRIX_LOAD_FAILED"

/-- The text of a fault in an artifact at a path. -/
def optionsText (path : String) : ArtifactFault → String
  | .file cause =>
    s!"unable to read linear solver options artifact '{path}': " ++ cause.text
  | .text cause => s!"invalid linear solver options yaml in '{path}': " ++ cause.text
  | cause => cause.text?.getD ""

/-- The text of a fault. -/
def text : InputFault → String
  | options path cause => optionsText path cause
  | unreadable path cause => s!"unable to read '{path}': " ++ cause.text
  | matrix cause => cause.text
  | rhsLength found dim =>
    s!"right-hand side has {found} entries, matrix dimension is {dim}"
  | rhsNotFinite => "right-hand side entries must be finite"

/-- The kind of a fault, as reports name it. -/
def kind : InputFault → String
  | options _ _ => "SolverConfigError"
  | unreadable _ cause => cause.kind
  | matrix _ => "MatrixViewError"
  | rhsLength _ _ | rhsNotFinite => "CliInputError"

end InputFault

/-- What ends a run without a report. -/
inductive Abort where
  | options (cause : ArtifactFault)
  | matrixFile (cause : MatrixMarket.Fault)
  | engine (cause : Fault)
  | residual (cause : ResidualError)
  deriving DecidableEq, Repr

/-- The text of what ends a run. -/
def Abort.text : Abort → String
  | options _ => "the options hold a value that cannot be read"
  | matrixFile cause => cause.text
  | engine _ => "the solver cannot be used for this system"
  | residual _ => "the residual cannot be measured"

/-- Why a request is not carried out. -/
inductive LoadFault where
  | reported (fault : InputFault)
  | aborted (cause : Abort)
  deriving DecidableEq, Repr

/-- A fault in an artifact. Only one with a code is reported. -/
def LoadFault.ofArtifact (path : String) (cause : ArtifactFault) : LoadFault :=
  match cause.code? with
  | some _ => .reported (.options path cause)
  | none => .aborted (.options cause)

/-- A fault in a file with a matrix or a vector. An integer that is too large is not reported. -/
def LoadFault.ofRead (path : String) : ReadFault → LoadFault
  | .market .tooLarge => .aborted (.matrixFile .tooLarge)
  | cause => .reported (.unreadable path cause)

/-! ## Reading -/

/-- The last name in a path. -/
def lastName (path : String) : List Char :=
  ((pieces (· = '/') path.toList).filter (· ≠ ['.'])).getLast?.getD []

/-- Whether a file is named as a Matrix Market file: something, then `.mtx`. -/
def isMarketName (path : String) : Bool :=
  let name := lastName path
  ".mtx".toList.isSuffixOf name && 4 < name.length

section Loading

variable {α : Type} [Scalar α]

/-- Reads a Matrix Market file. A directory has no banner. -/
def readMarket (file : File) : Except ReadFault (MatrixMarket.Content α) :=
  match file.bytes? with
  | .error .missing => .error (.file .missing)
  | .error _ => .error (.market .banner)
  | .ok bytes => (MatrixMarket.parse (File.byteChars bytes)).mapError .market

/-- Reads a table of numbers. -/
def readColumns (file : File) : Except ReadFault (Grid α) :=
  match file.text? with
  | .error cause => .error (.file cause)
  | .ok text => (Columns.parse text).mapError .columns

/-- Reads a right-hand side. The entries of a matrix are taken row by row. -/
def readRhs (path : String) (file : File) : Except ReadFault (Grid α) :=
  if isMarketName path then do
    match ← readMarket file with
    | .table _ _ entries => return .ofList entries
    | .sparse _ => throw .positions
  else readColumns file

/-- The options of a request: those of an artifact, or the standard ones. -/
def loadOptions (path : Option String) (files : Files) : Except LoadFault (Options α) :=
  match path with
  | none => (Options.ofSettings .defaultArtifact .standard).mapError fun cause =>
      .ofArtifact "" (.settings cause)
  | some path =>
    (Options.ofFile (files (artifactPath path))).mapError (.ofArtifact path)

/-- The matrix of a system: the lower triangle of what a file holds. -/
def symmetricPart (content : MatrixMarket.Content α) : Except ViewError (SymTriplets α) :=
  ((SymTriplets.ofSparse content.toSparse).run.run ⟨0⟩).1

/-- The matrix in a file. -/
def loadMatrix (path : String) (files : Files) : Except LoadFault (SymTriplets α) := do
  let content ← (readMarket (files path)).mapError (LoadFault.ofRead path)
  (symmetricPart content).mapError fun cause => .reported (.matrix cause)

/-- Checks the right-hand side of a system. -/
def checkRhs (dim : Nat) (g : Grid α) : Except InputFault (List α) :=
  if g.shape ≠ [dim] then .error (.rhsLength g.entries.length dim)
  else if !g.entries.all Scalar.isFinite then .error .rhsNotFinite
  else .ok g.entries

/-- The right-hand side in a file, or ones. -/
def loadRhs (path : Option String) (dim : Nat) (files : Files) : Except LoadFault (List α) :=
  match path with
  | none => .ok (List.replicate dim 1)
  | some path => do
    let g ← (readRhs path (files path)).mapError (LoadFault.ofRead path)
    (checkRhs dim g).mapError .reported

/-- A linear system. -/
structure LinearSystem (α : Type) where
  matrix : SymTriplets α
  rhs : List α

/-- The system in the files at two paths. -/
def loadSystem (matrix : String) (rhs : Option String) (files : Files) :
    Except LoadFault (LinearSystem α) := do
  let A ← loadMatrix matrix files
  return ⟨A, ← loadRhs rhs A.dim files⟩

end Loading

end SymSolve.CommandLine
