import SymSolve.File
import SymSolve.Options
import SymSolve.Yaml.Value

/-!
# Options from a file

An artifact is a YAML file with a schema and two mappings of settings. Nothing has a default: a
setting that is missing or not a number is a fault, and so is a text that is no YAML. What the
artifact holds besides is not looked at. `Options.ofValue` is the part that does not depend on
how a text becomes a value.
-/

namespace SymSolve

/-- Why an artifact holds no options. -/
inductive ArtifactFault where
  | file (cause : FileFault)
  | text (cause : Yaml.Fault)
  | rootNotMapping
  | noString (key : String)
  | schema (found : String)
  | noMapping (key : String)
  | truthValue (key : String)
  | noNumber (key : String)
  /-- An integer where a real number is expected, but no real number is that large. -/
  | tooLarge (key : String)
  | noInteger (key : String)
  | settings (cause : SettingsFault)
  deriving DecidableEq, Repr

/-- The schema of artifacts. -/
def optionsSchema : String := "linear_solver_options_v1"

namespace ArtifactFault

/-- The text of a fault in what an artifact says; other faults have none. -/
def text? : ArtifactFault → Option String
  | rootNotMapping => some "linear solver options artifact root must be a mapping"
  | noString key => some s!"missing or invalid string for key '{key}'"
  | schema found => some s!"unsupported options schema '{found}'; expected '{optionsSchema}'"
  | noMapping key => some s!"missing or invalid mapping for key '{key}'"
  | truthValue key => some s!"invalid numeric value for key '{key}'"
  | noNumber key => some s!"missing or invalid float for key '{key}'"
  | noInteger key => some s!"missing or invalid integer for key '{key}'"
  | settings cause => some cause.text
  | file _ | text _ | tooLarge _ => none

/-- The code of a fault in an artifact. Bytes that are no text, scalars without a value of their
kind and integers that are too large are no faults of an artifact, but end the reading of it. -/
def code? : ArtifactFault → Option String
  | file .encoding | text (.value _) | tooLarge _ => none
  | file _ => some "E_SOLVER_CONFIG_READ_FAILED"
  | text _ => some "E_SOLVER_CONFIG_PARSE_FAILED"
  | _ => some "E_SOLVER_CONFIG_INVALID"

end ArtifactFault

namespace Artifact

variable {α : Type} [Scalar α]

/-- The fields of a mapping in an artifact. -/
abbrev Fields (α : Type) := List (String × Yaml.Value α)

/-- A text that is not empty. -/
def stringAt (fields : Fields α) (key : String) : Except ArtifactFault String :=
  match Yaml.Value.field? fields key with
  | some (.text s) => if s = "" then .error (.noString key) else .ok s
  | _ => .error (.noString key)

/-- A mapping. -/
def mappingAt (fields : Fields α) (key : String) : Except ArtifactFault (Fields α) :=
  match Yaml.Value.field? fields key with
  | some (.map fields) => .ok fields
  | _ => .error (.noMapping key)

/-- A finite real number, for which an integer may stand. -/
def realAt (fields : Fields α) (key : String) : Except ArtifactFault α :=
  match Yaml.Value.field? fields key with
  | some (.bool _) => .error (.truthValue key)
  | some (.int i) =>
    let x : α := Scalar.ofInt i
    if Scalar.isFinite x then .ok x else .error (.tooLarge key)
  | some (.real x) => if Scalar.isFinite x then .ok x else .error (.noNumber key)
  | _ => .error (.noNumber key)

/-- An integer. -/
def intAt (fields : Fields α) (key : String) : Except ArtifactFault Int :=
  match Yaml.Value.field? fields key with
  | some (.int i) => .ok i
  | _ => .error (.noInteger key)

/-- The settings in the two mappings of an artifact. -/
def settings (pivoting workspace : Fields α) : Except ArtifactFault (Settings α) := do
  let tolerance ← realAt pivoting "pivot_tolerance"
  let toleranceMax ← realAt pivoting "pivot_tolerance_max"
  let qualityExponent ← realAt pivoting "quality_exponent"
  let integerInitFactor ← realAt workspace "integer_workspace_init_factor"
  let realInitFactor ← realAt workspace "real_workspace_init_factor"
  let growthFactor ← realAt workspace "workspace_growth_factor"
  let compressionThreshold ← intAt workspace "compression_count_threshold"
  let analysisOverestimate ← realAt workspace "analysis_integer_overestimate"
  return { tolerance, toleranceMax, qualityExponent, integerInitFactor, realInitFactor,
           growthFactor, compressionThreshold, analysisOverestimate }

/-- How deep the values of an artifact lie at most: in a mapping in a mapping. -/
def depth : Nat := 3

end Artifact

namespace Options

variable {α : Type} [Scalar α]

/-- The options in the value of an artifact. -/
def ofValue (value : Yaml.Value α) : Except ArtifactFault (Options α) := do
  let fields ← match value with
    | .map fields => pure fields
    | _ => throw .rootNotMapping
  let schema ← Artifact.stringAt fields "schema"
  if schema ≠ optionsSchema then throw (.schema schema)
  let pivoting ← Artifact.mappingAt fields "pivoting"
  let workspace ← Artifact.mappingAt fields "workspace"
  let settings ← Artifact.settings pivoting workspace
  (Options.ofSettings .overrideArtifact settings).mapError .settings

/-- The options in a file, given how a text becomes a value. -/
def ofFileWith (load : List Char → Except Yaml.Fault (Yaml.Value α)) (file : File) :
    Except ArtifactFault (Options α) := do
  let text ← file.text?.mapError .file
  let value ← (load text).mapError .text
  ofValue value

/-- The options in a file. -/
def ofFile (file : File) : Except ArtifactFault (Options α) :=
  ofFileWith (Yaml.Value.load Artifact.depth) file

end Options

end SymSolve
