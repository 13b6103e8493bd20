import SymSolve.Broadcast
import SymSolve.Scalar

/-!
# Steps of an interior point method

How far positive variables may move along a step, and the average complementarity they have
after it.
-/

namespace SymSolve.Barrier

variable {α : Type} [Scalar α]

/-- Why a step cannot be rated. -/
inductive StepError where
  /-- A step has another number of components than the variables. -/
  | lengths
  /-- Vectors that have to be added or multiplied do not fit. -/
  | misfit
  deriving DecidableEq, Repr

/-- The step length at which a component that decreases reaches `1 - tau` times its value. -/
def boundaryRatio (tau value step : α) : α := -tau * value / step

/-- The largest step length up to one that keeps every component at no less than `1 - tau` times
its value. Only components that decrease matter. -/
def fractionToBoundary (values steps : List α) (tau : α) : Except StepError α :=
  if steps.any fun s => Scalar.lt s 0 then
    if values.length = steps.length then
      let decreasing := (values.zip steps).filter fun (_, s) => Scalar.lt s 0
      let ratios := decreasing.map fun (v, s) => boundaryRatio tau v s
      .ok (Scalar.smaller 1 ((Scalar.minimum? ratios).getD 1))
    else .error .lengths
  else .ok 1

/-- The inner product of two vectors of one length. -/
def product? (as bs : List α) : Except StepError α :=
  if as.length = bs.length then .ok (Scalar.dot as bs) else .error .misfit

/-- The variables after a step of length `size`. -/
def trial? (size : α) (values steps : List α) : Except StepError (List α) :=
  match broadcast? (fun v s => v + size * s) values steps with
  | some trial => .ok trial
  | none => .error .misfit

/-- The average of the products of slacks and multipliers after a step. -/
def affineMu (primal dual : α) (slacks multipliers stepSlacks stepMultipliers : List α) :
    Except StepError α :=
  if slacks.length = 0 then .ok 0
  else do
    let trialSlacks ← trial? primal slacks stepSlacks
    let trialMultipliers ← trial? dual multipliers stepMultipliers
    let total ← product? trialSlacks trialMultipliers
    return total / Scalar.ofNat slacks.length

end SymSolve.Barrier
