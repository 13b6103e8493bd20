import SymSolve.Grid
import SymSolve.Scalar

/-!
# Starting points for feasibility restoration

Restoration splits the violation `c` of a constraint into two positive slacks with `p - n = c`,
where `n` is the positive root of `rho n² + (rho c - mu) n - mu c / 2 = 0`. It starts from
estimated multipliers, but from zero where an estimate is too large.
-/

namespace SymSolve

/-- What is wrong with the data of a restoration. -/
inductive RestorationError where
  | multiplierLimit
  | rho
  | mu
  | rank
  | estimateLength
  deriving DecidableEq, Repr

/-- The text of a fault. -/
def RestorationError.text : RestorationError → String
  | multiplierLimit => "laminitmax must be >= 0"
  | rho => "rho must be > 0"
  | mu => "mu must be > 0"
  | rank => "constraint_values must be one-dimensional"
  | estimateLength => "multiplier estimate length must match constraint_values"

/-- The two slacks of a constraint. -/
structure SlackPair (α : Type) where
  n : α
  p : α

/-- A starting point. -/
structure RestorationPoint (α : Type) where
  slacks : List (SlackPair α)
  multipliers : List α
  /-- An estimate was too large and zeros stand in its place. -/
  clipped : Bool

/-- The weights of a restoration. -/
structure Restoration (α : Type) where
  /-- The largest magnitude of a multiplier that is used. -/
  multiplierLimit : α
  /-- The penalty on the slacks. -/
  rho : α

/-- The mean of the two roots of the quadratic. -/
def SlackPair.middle {α : Type} [Scalar α] (rho mu c : α) : α :=
  (mu - rho * c) / ((1 + 1) * rho)

/-- The square of the distance from the mean to either root. -/
def SlackPair.radicand {α : Type} [Scalar α] (rho mu c : α) : α :=
  let half := middle rho mu c
  half * half + mu * c / ((1 + 1) * rho)

/-- The slacks for a violation `c`. -/
def SlackPair.ofViolation {α : Type} [RealScalar α] (rho mu c : α) : SlackPair α :=
  let n := middle rho mu c + RealScalar.sqrt (radicand rho mu c)
  ⟨n, c + n⟩

/-- The slacks for several violations. -/
def slackPairs {α : Type} [RealScalar α] (rho mu : α) (c : List α) :
    Except RestorationError (List (SlackPair α)) :=
  if Scalar.le rho 0 then .error .rho
  else if Scalar.le mu 0 then .error .mu
  else .ok (c.map (SlackPair.ofViolation rho mu))

namespace Restoration

variable {α : Type}

/-- The weights that are used where no others are given. -/
def standard [Scalar α] : Restoration α := ⟨Scalar.ofInt 1000, Scalar.ofInt 1000⟩

/-- What is wrong with some weights. -/
def fault? [Scalar α] (r : Restoration α) : Option RestorationError :=
  if Scalar.lt r.multiplierLimit 0 then some .multiplierLimit
  else if Scalar.le r.rho 0 then some .rho
  else none

/-- The slacks for the violations of all constraints. -/
def slacks [RealScalar α] (r : Restoration α) (c : Grid α) (mu : α) :
    Except RestorationError (List (SlackPair α)) :=
  match c.vector? with
  | none => .error .rank
  | some c => slackPairs r.rho mu c

/-- An estimate is too large when one of its magnitudes exceeds the limit. -/
def tooLarge [Scalar α] (r : Restoration α) (estimate : List α) : Bool :=
  !estimate.isEmpty && Scalar.lt r.multiplierLimit (Scalar.maxAbs estimate)

/-- The starting point with some slacks, from the multipliers estimated if there are any. -/
def point [Scalar α] (r : Restoration α) (slacks : List (SlackPair α))
    (estimate : Option (Grid α)) : Except RestorationError (RestorationPoint α) :=
  let zeros := List.replicate slacks.length 0
  match estimate with
  | none => .ok ⟨slacks, zeros, false⟩
  | some estimate =>
    if estimate.shape ≠ [slacks.length] then .error .estimateLength
    else if r.tooLarge estimate.entries then .ok ⟨slacks, zeros, true⟩
    else .ok ⟨slacks, estimate.entries, false⟩

/-- Why there is no starting point: a fault of the data, or of the estimate. -/
inductive StartError (ε : Type) where
  | data (cause : RestorationError)
  | estimate (cause : ε)

/-- The starting point for some violations. `estimator` is asked for multipliers, and may change
its state `κ`, once the slacks are known. -/
def start [RealScalar α] {κ ε : Type} (r : Restoration α) (c : Grid α) (mu : α)
    (estimator : κ → Except ε (Option (Grid α)) × κ) (k : κ) :
    Except (StartError ε) (RestorationPoint α) × κ :=
  match r.slacks c mu with
  | .error cause => (.error (.data cause), k)
  | .ok slacks =>
    match estimator k with
    | (.error cause, k) => (.error (.estimate cause), k)
    | (.ok estimate, k) => ((r.point slacks estimate).mapError .data, k)

end Restoration

end SymSolve
