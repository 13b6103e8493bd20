import SymSolve.Json.Access
import SymSolve.Options

/-!
# Settings from named fields

Settings are given by name, and one that is not given has its standard value.
-/

namespace SymSolve

/-- The settings in the fields of an object. -/
def Settings.ofJson {α : Type} [Scalar α] (v : Json α) : Settings α :=
  let usual : Settings α := .standard
  { tolerance := v.realField "pivot_tolerance" usual.tolerance
    toleranceMax := v.realField "pivot_tolerance_max" usual.toleranceMax
    qualityExponent := v.realField "quality_exponent" usual.qualityExponent
    integerInitFactor := v.realField "integer_workspace_init_factor" usual.integerInitFactor
    realInitFactor := v.realField "real_workspace_init_factor" usual.realInitFactor
    growthFactor := v.realField "workspace_growth_factor" usual.growthFactor
    compressionThreshold := v.intField "compression_count_threshold" usual.compressionThreshold
    analysisOverestimate := v.realField "analysis_integer_overestimate" usual.analysisOverestimate }

end SymSolve
