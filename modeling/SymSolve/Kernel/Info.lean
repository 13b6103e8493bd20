import SymSolve.Grid
import SymSolve.Word

/-!
# Status words of a factorization kernel

A kernel answers analysis and factorization with an array of status words. Nothing about that
array is taken for granted: `KernelInfo.ofRaw?` checks its shape and kind, and `Verdict.of?`
refuses a shortage that names no length. What is refused is a breach of the kernel's contract,
not a failed factorization.
-/

namespace SymSolve

/-- What a kernel hands back as its status words: an array of integers of any shape, or an array
of something else, of which only the shape matters. -/
inductive RawInfo where
  | integers (words : Grid Int)
  | other (shape : List Nat)

/-- The extents of the array. -/
def RawInfo.shape : RawInfo → List Nat
  | integers words => words.shape
  | other shape => shape

/-- How a kernel can break its contract. -/
inductive ContractError where
  | infoShape
  | infoKind
  | requirement (words : Int)
  | rhsLength (got : Nat) (expected : Int)
  deriving DecidableEq, Repr

/-- How many status words there are at least. -/
def infoLength : Nat := 20

namespace ContractError

/-- The code of a breach. -/
def code : ContractError → String
  | rhsLength _ _ => "E_KERNEL_RHS_INVALID"
  | _ => "E_KERNEL_INFO_INVALID"

/-- The text of a breach. -/
def text : ContractError → String
  | infoShape => s!"kernel INFO must be a rank-1 array of length >= {infoLength}"
  | infoKind => "kernel INFO must be integer"
  | requirement words =>
    s!"kernel reported insufficient workspace with non-positive requirement {words}"
  | rhsLength got expected => s!"right-hand side has length {got}, expected {expected}"

end ContractError

/-- The status words that are read. -/
structure KernelInfo where
  /-- Zero for success; the meaning of other values is in `Verdict.of?`. -/
  flag : Int := 0
  /-- More about the flag: a required length, a rank, a count. -/
  detail : Int := 0
  /-- Real words recommended or required. -/
  realLength : Int := 0
  /-- Integer words recommended or required. -/
  integerLength : Int := 0
  realCompressions : Int := 0
  integerCompressions : Int := 0
  rank : Int := 0
  negative : Int := 0
  deriving DecidableEq, Repr

namespace KernelInfo

/-- All status words; those that are not read are zero. -/
def words (info : KernelInfo) : List Int :=
  [info.flag, info.detail, 0, 0, info.realLength, info.integerLength, 0, 0, 0, 0, 0,
    info.realCompressions, info.integerCompressions, info.rank, info.negative, 0, 0, 0, 0, 0]

/-- The status words as a kernel hands them back. -/
def toRaw (info : KernelInfo) : RawInfo := .integers (.ofList info.words)

/-- Reads the status words at their places. -/
def ofWords (words : List Int) : KernelInfo where
  flag := words.getD 0 0
  detail := words.getD 1 0
  realLength := words.getD 4 0
  integerLength := words.getD 5 0
  realCompressions := words.getD 11 0
  integerCompressions := words.getD 12 0
  rank := words.getD 13 0
  negative := words.getD 14 0

theorem ofWords_words (info : KernelInfo) : ofWords info.words = info := rfl

theorem length_words (info : KernelInfo) : info.words.length = infoLength := rfl

/-- Checks the shape of the array, then its kind, and reads it. -/
def ofRaw? (raw : RawInfo) : Except ContractError KernelInfo :=
  match raw.shape with
  | [length] =>
    if length < infoLength then .error .infoShape
    else match raw with
      | .integers words => .ok (ofWords words.entries)
      | .other _ => .error .infoKind
  | _ => .error .infoShape

theorem ofRaw?_toRaw (info : KernelInfo) : ofRaw? info.toRaw = .ok info := rfl

end KernelInfo

/-! ## Analysis -/

/-- What an analysis reports. -/
structure AnalysisResult where
  accepted : Bool
  realLength : Int
  integerLength : Int
  flag : Int
  detail : Int
  deriving DecidableEq, Repr

namespace AnalysisResult

/-- Only flag zero accepts the structure. -/
def ofInfo (info : KernelInfo) : AnalysisResult where
  accepted := info.flag = 0
  realLength := info.realLength
  integerLength := info.integerLength
  flag := info.flag
  detail := info.detail

/-- Classifies the answer of an analysis. -/
def ofRaw? (raw : RawInfo) : Except ContractError AnalysisResult :=
  (KernelInfo.ofRaw? raw).map ofInfo

/-- The word for the status. -/
def statusName (r : AnalysisResult) : String := if r.accepted then "ok" else "structural_error"

end AnalysisResult

/-! ## Factorization -/

/-- A length that a kernel can ask for: positive, and held by one word. -/
structure Requirement where
  length : Nat
  positive : 0 < length
  bounded : length < wordCount
  deriving DecidableEq

/-- What became of a factorization. -/
inductive Verdict where
  | success
  | integerShortage (required : Requirement)
  | realShortage (required : Requirement)
  | singular
  | error
  deriving DecidableEq

namespace Verdict

/-- The word for a verdict. -/
def name : Verdict → String
  | success => "success"
  | integerShortage _ => "integer_workspace_too_small"
  | realShortage _ => "real_workspace_too_small"
  | singular => "singular"
  | error => "error"

/-- The length that a shortage asks for. -/
def required? : Verdict → Option Nat
  | integerShortage r | realShortage r => some r.length
  | _ => none

/-- The length asked for by a shortage, if it is one. -/
def requirement? (words : Int) : Except ContractError Requirement :=
  if h : words ≤ 0 then .error (.requirement words)
  else if h' : words < wordCount then .ok ⟨words.toNat, by omega, by omega⟩
  else .error .infoKind

/-- Flag −3 is a shortage of integer words and −4 one of real words, with the length needed as
detail; −5 is a singular matrix and 3 a matrix of deficient rank. -/
def of? (info : KernelInfo) : Except ContractError Verdict :=
  match info.flag with
  | 0 => .ok .success
  | -3 => (requirement? info.detail).map .integerShortage
  | -4 => (requirement? info.detail).map .realShortage
  | -5 | 3 => .ok .singular
  | _ => .ok .error

end Verdict

/-- What a factorization reports. -/
structure FactorizationResult where
  verdict : Verdict
  negative : Int
  rank : Int
  realCompressions : Int
  integerCompressions : Int
  flag : Int
  detail : Int
  deriving DecidableEq

namespace FactorizationResult

/-- The report with a given verdict. -/
def ofInfo (info : KernelInfo) (verdict : Verdict) : FactorizationResult where
  verdict
  negative := info.negative
  rank := info.rank
  realCompressions := info.realCompressions
  integerCompressions := info.integerCompressions
  flag := info.flag
  detail := info.detail

/-- Classifies the answer of a factorization. -/
def ofRaw? (raw : RawInfo) : Except ContractError FactorizationResult := do
  let info ← KernelInfo.ofRaw? raw
  let verdict ← Verdict.of? info
  return ofInfo info verdict

end FactorizationResult

end SymSolve
