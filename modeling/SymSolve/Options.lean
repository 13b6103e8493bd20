import SymSolve.Json

/-!
# Options of the solver

`Settings` are the eight numbers that steer the solver, and `Options` are settings that passed
`Settings.fault?`. Every comparison is asked for in a fixed order, and the first one that fails
names the fault. A setting that is no number fails a comparison that has to hold, but not one
that must not hold.
-/

namespace SymSolve

/-- The numbers that steer the solver. -/
structure Settings (α : Type) where
  /-- The pivot tolerance to start with. -/
  tolerance : α
  /-- The pivot tolerance that is never exceeded. -/
  toleranceMax : α
  /-- A raised tolerance is the old one to this power. -/
  qualityExponent : α
  /-- Integer words after the analysis, as a multiple of what it recommends. -/
  integerInitFactor : α
  /-- Real words after the analysis, as a multiple of what it recommends. -/
  realInitFactor : α
  /-- By how much a workspace grows. -/
  growthFactor : α
  /-- From how many compressions on a workspace is grown. -/
  compressionThreshold : Int
  /-- Integer words for the analysis, as a multiple of what it needs. -/
  analysisOverestimate : α

/-- Where options come from. -/
inductive OptionsSource where
  | constructed
  | defaultArtifact
  | overrideArtifact
  deriving DecidableEq, Repr

/-- The word for a source. -/
def OptionsSource.name : OptionsSource → String
  | constructed => "constructed"
  | defaultArtifact => "default_artifact"
  | overrideArtifact => "override_artifact"

/-- What is wrong with settings. -/
inductive SettingsFault where
  | tolerance
  | toleranceMax
  | qualityExponent
  | integerInitFactor
  | realInitFactor
  | growthFactor
  | compressionThreshold
  | analysisOverestimate
  deriving DecidableEq, Repr

/-- The text of a fault. -/
def SettingsFault.text : SettingsFault → String
  | tolerance => "pivot_tolerance must be between 0 and 1"
  | toleranceMax => "pivot_tolerance_max must be between pivot_tolerance and 1"
  | qualityExponent => "quality_exponent must be between 0 and 1"
  | integerInitFactor => "integer_workspace_init_factor must be at least 1"
  | realInitFactor => "real_workspace_init_factor must be at least 1"
  | growthFactor => "workspace_growth_factor must be larger than 1"
  | compressionThreshold => "compression_count_threshold must be >= 1"
  | analysisOverestimate => "analysis_integer_overestimate must be at least 1"

namespace Settings

variable {α : Type} [Scalar α]

/-- The settings that are used where nothing else is said. -/
def standard : Settings α where
  tolerance := Scalar.ofDecimal 1 (-8)
  toleranceMax := Scalar.ofDecimal 1 (-4)
  qualityExponent := Scalar.ofDecimal 75 (-2)
  integerInitFactor := Scalar.ofInt 5
  realInitFactor := Scalar.ofInt 5
  growthFactor := Scalar.ofInt 10
  compressionThreshold := 10
  analysisOverestimate := Scalar.ofInt 2

/-- The first fault of some settings. -/
def fault? (s : Settings α) : Option SettingsFault :=
  if !(Scalar.lt 0 s.tolerance && Scalar.lt s.tolerance 1) then some .tolerance
  else if !(Scalar.le s.tolerance s.toleranceMax && Scalar.lt s.toleranceMax 1) then
    some .toleranceMax
  else if !(Scalar.lt 0 s.qualityExponent && Scalar.lt s.qualityExponent 1) then
    some .qualityExponent
  else if Scalar.lt s.integerInitFactor 1 then some .integerInitFactor
  else if Scalar.lt s.realInitFactor 1 then some .realInitFactor
  else if !Scalar.lt 1 s.growthFactor then some .growthFactor
  else if s.compressionThreshold < 1 then some .compressionThreshold
  else if Scalar.lt s.analysisOverestimate 1 then some .analysisOverestimate
  else none

end Settings

/-- Settings without fault, and where they come from. -/
structure Options (α : Type) [Scalar α] extends Settings α where
  source : OptionsSource
  valid : toSettings.fault? = none

namespace Options

variable {α : Type} [Scalar α]

/-- Checks settings. -/
def ofSettings (source : OptionsSource) (s : Settings α) : Except SettingsFault (Options α) :=
  match h : s.fault? with
  | none => .ok { s with source, valid := h }
  | some fault => .error fault

/-- The options as a JSON value. -/
def snapshot (o : Options α) : Json α :=
  .object [
    ("pivoting", .object [
      ("pivot_tolerance", .real o.tolerance),
      ("pivot_tolerance_max", .real o.toleranceMax),
      ("quality_exponent", .real o.qualityExponent)]),
    ("workspace", .object [
      ("integer_workspace_init_factor", .real o.integerInitFactor),
      ("real_workspace_init_factor", .real o.realInitFactor),
      ("workspace_growth_factor", .real o.growthFactor),
      ("compression_count_threshold", .int o.compressionThreshold),
      ("analysis_integer_overestimate", .real o.analysisOverestimate)]),
    ("options_source", .text o.source.name)]

end Options

end SymSolve
