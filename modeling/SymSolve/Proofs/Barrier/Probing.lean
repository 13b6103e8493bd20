import Mathlib.Tactic.FieldSimp
import SymSolve.Barrier.Probing
import SymSolve.Kernel.Reference
import SymSolve.Proofs.Barrier.Step
import SymSolve.Proofs.Engine.Reached
import SymSolve.Proofs.Ordering
import SymSolve.Proofs.Systems
import SymSolve.Proofs.Traversal

/-!
# The probing rule keeps to its bounds

**Theorem (`nextMu_guarded`).** For a point that was accepted, with at least one pair, and bounds that
were accepted, whatever solves for the step: if it reports a success, and all positions lie in the step
that it has left, then there is a parameter. It is positive and lies between the bounds, it is the
average complementarity times the cube of the ratio by which the step reduces it, or the bound next to
that, and it is at least the smaller one of the upper bound and `(1 - tau) ^ 6` times the present
average. Any other outcome is passed on.

Both step lengths are limited as in `fractionToBoundary_largest`, so that the step leaves every slack
and every multiplier the share `1 - tau`, and their products the share `(1 - tau) ^ 2`
(`mul_dot_le_dot`).
-/

namespace SymSolve

variable {K : Type} [Field K] [LinearOrder K] [FloorRing K]

/-! ## Inner products -/

namespace Scalar

theorem dot_nil_left (bs : List K) : dot [] bs = 0 := by simp [dot, sum_eq]

theorem dot_cons (a b : K) (as bs : List K) : dot (a :: as) (b :: bs) = a * b + dot as bs := by
  simp [dot, sum_eq]

variable [IsStrictOrderedRing K]

/-- Numbers that keep a share of others keep its square in the products. -/
theorem mul_dot_le_dot {c : K} (nonneg : 0 ≤ c) {as as' bs bs' : List K}
    (first : List.Forall₂ (fun a a' => c * a ≤ a') as as')
    (second : List.Forall₂ (fun b b' => c * b ≤ b') bs bs') (as_pos : ∀ a ∈ as, 0 < a)
    (bs_pos : ∀ b ∈ bs, 0 < b) : c ^ 2 * dot as bs ≤ dot as' bs' := by
  induction first generalizing bs bs' with
  | nil => simp [dot_nil_left]
  | @cons a a' as as' ha first ih =>
    cases second with
    | nil => simp [dot, sum_eq]
    | @cons b b' bs bs' hb second =>
      rw [List.forall_mem_cons] at as_pos bs_pos
      have rest := ih second as_pos.2 bs_pos.2
      have ca : 0 ≤ c * a := mul_nonneg nonneg as_pos.1.le
      have cb : 0 ≤ c * b := mul_nonneg nonneg bs_pos.1.le
      have product : c * a * (c * b) ≤ a' * b' := mul_le_mul ha hb cb (ca.trans ha)
      calc c ^ 2 * dot (a :: as) (b :: bs)
          = c * a * (c * b) + c ^ 2 * dot as bs := by
            rw [dot_cons]
            ring
        _ ≤ a' * b' + dot as' bs' := add_le_add product rest
        _ = dot (a' :: as') (b' :: bs') := (dot_cons ..).symm

theorem dot_pos {as bs : List K} (fits : bs.length = as.length) (filled : as ≠ [])
    (as_pos : ∀ a ∈ as, 0 < a) (bs_pos : ∀ b ∈ bs, 0 < b) : 0 < dot as bs := by
  induction as generalizing bs with
  | nil => exact absurd rfl filled
  | cons a as ih =>
    cases bs with
    | nil => cases fits
    | cons b bs =>
      rw [List.forall_mem_cons] at as_pos bs_pos
      have product : 0 < a * b := mul_pos as_pos.1 bs_pos.1
      rw [dot_cons]
      by_cases last : as = []
      · rw [last, dot_nil_left, add_zero]
        exact product
      · exact add_pos product (ih (Nat.succ.inj fits) last as_pos.2 bs_pos.2)

end Scalar

namespace Barrier

/-! ## The point -/

/-- What the checks of a point make sure of. -/
structure Point.Valid (p : Point K) : Prop where
  multipliers_length : p.multipliers.length = p.slacks.length
  slackPositions_length : p.slackPositions.length = p.slacks.length
  multiplierPositions_length : p.multiplierPositions.length = p.slacks.length
  slacks_pos : ∀ v ∈ p.slacks, 0 < v
  multipliers_pos : ∀ v ∈ p.multipliers, 0 < v

theorem ite_error_eq_ok_iff {ε β : Type} {refused : Prop} [Decidable refused] {cause : ε}
    {r : Except ε β} {b : β} :
    (if refused then .error cause else r) = .ok b ↔ ¬ refused ∧ r = .ok b := by
  by_cases refuses : refused <;> simp [refuses]

theorem Point.valid_of_ofGrids {slacks multipliers : List K}
    {slackPositions multiplierPositions : List Int} {p : Point K}
    (checked : Point.ofGrids (.ofList slacks) (.ofList multipliers) (.ofList slackPositions)
      (.ofList multiplierPositions) = .ok p) : p.Valid := by
  unfold ofGrids at checked
  simp only [ite_error_eq_ok_iff, Except.ok.injEq] at checked
  obtain ⟨pairs, positions, sign, rfl⟩ := checked
  simp only [Grid.ofList, not_or, not_not, List.cons.injEq, and_true] at pairs positions
  have positive : ∀ v ∈ slacks ++ multipliers, 0 < v := by
    intro v member
    by_contra nonpositive
    apply sign
    rw [List.any_eq_true]
    exact ⟨v, member, (Scalar.le_iff v 0).2 (not_lt.1 nonpositive)⟩
  rw [List.forall_mem_append] at positive
  exact ⟨pairs.2, positions.1, positions.2, positive.1, positive.2⟩

/-! ## The trial -/

/-- A place among `n`, or one counted from the end. -/
def Names (n : Nat) (i : Int) : Prop := -n ≤ i ∧ i < n

theorem exists_signedIndex? {n : Nat} {i : Int} (inside : Names n i) :
    ∃ place, signedIndex? n i = some place := by
  unfold signedIndex?
  by_cases forward : 0 ≤ i
  · exact ⟨_, dif_pos ⟨forward, inside.2⟩⟩
  · rw [dif_neg fun within => forward within.1]
    exact ⟨_, dif_pos ⟨inside.1, not_le.1 forward⟩⟩

/-- The components at positions inside of a step, one for each position. -/
theorem Probing.exists_pick? {α : Type} {step : List α} {positions : List Int}
    (inside : ∀ i ∈ positions, Names step.length i) :
    ∃ picked, pick? step positions = .ok picked ∧ picked.length = positions.length := by
  have found : ∀ i ∈ positions, ∃ s, (signedIndex? step.length i).map step.get = some s := by
    intro i member
    obtain ⟨place, named⟩ := exists_signedIndex? (inside i member)
    exact ⟨step.get place, by rw [named]; rfl⟩
  obtain ⟨picked, collected, each⟩ := exists_mapM_eq_some found
  exact ⟨picked, by rw [pick?, collected], each.length_eq.symm⟩

/-- A step as it is tried: its components for the slacks and for the multipliers, and how far the two
go along it. -/
structure Trial (K : Type) where
  stepSlacks : List K
  stepMultipliers : List K
  primal : K
  dual : K

namespace Trial

/-- The slacks after the step. -/
def slacks (t : Trial K) (p : Point K) : List K :=
  List.zipWith (fun v s => v + t.primal * s) p.slacks t.stepSlacks

/-- The multipliers after the step. -/
def multipliers (t : Trial K) (p : Point K) : List K :=
  List.zipWith (fun v s => v + t.dual * s) p.multipliers t.stepMultipliers

/-- The average of their products. -/
def affine (t : Trial K) (p : Point K) : K :=
  (List.zipWith (· * ·) (t.slacks p) (t.multipliers p)).sum / p.pairs

end Trial

/-- The trial that the rule makes of a step. -/
structure Probing.Tries (r : Probing K) (p : Point K) (step : List K) (t : Trial K) : Prop where
  stepSlacks : pick? step p.slackPositions = .ok t.stepSlacks
  stepMultipliers : pick? step p.multiplierPositions = .ok t.stepMultipliers
  primal : fractionToBoundary p.slacks t.stepSlacks r.tau = .ok t.primal
  dual : fractionToBoundary p.multipliers t.stepMultipliers r.tau = .ok t.dual
  affine : affineMu t.primal t.dual p.slacks p.multipliers t.stepSlacks t.stepMultipliers =
    .ok (t.affine p)

/-- A trial leaves every slack and every multiplier a share of its value, and the average of their
products the square of the share. -/
structure Trial.Guarded (t : Trial K) (p : Point K) (tau : K) : Prop where
  mu_pos : 0 < p.mu
  primal : 0 < t.primal ∧ t.primal ≤ 1
  dual : 0 < t.dual ∧ t.dual ≤ 1
  slacks : List.Forall₂ (fun v left => (1 - tau) * v ≤ left) p.slacks (t.slacks p)
  multipliers : List.Forall₂ (fun v left => (1 - tau) * v ≤ left) p.multipliers (t.multipliers p)
  affine : 0 ≤ (1 - tau) ^ 2 * p.mu ∧ (1 - tau) ^ 2 * p.mu ≤ t.affine p

theorem Point.mu_eq (p : Point K) : p.mu = Scalar.dot p.slacks p.multipliers / p.pairs := by
  rw [mu, Scalar.ofNat, Scalar.ofInt_eq, Int.cast_natCast]

theorem Trial.affine_eq (t : Trial K) (p : Point K) :
    t.affine p = Scalar.dot (t.slacks p) (t.multipliers p) / p.pairs := by
  rw [affine, Scalar.dot, Scalar.sum_eq]

theorem affineMu_eq {p : Point K} (valid : p.Valid) (paired : p.pairs ≠ 0) {t : Trial K}
    (slacks_fit : p.slacks.length = t.stepSlacks.length)
    (multipliers_fit : p.multipliers.length = t.stepMultipliers.length) :
    affineMu t.primal t.dual p.slacks p.multipliers t.stepSlacks t.stepMultipliers =
      .ok (t.affine p) := by
  have lengths : (t.slacks p).length = (t.multipliers p).length := by
    simp [Trial.slacks, Trial.multipliers, ← slacks_fit, ← multipliers_fit, valid.multipliers_length]
  have slacks : trial? t.primal p.slacks t.stepSlacks = .ok (t.slacks p) := by
    simp only [trial?, broadcast?_of_length _ slacks_fit]
    rfl
  have multipliers : trial? t.dual p.multipliers t.stepMultipliers = .ok (t.multipliers p) := by
    simp only [trial?, broadcast?_of_length _ multipliers_fit]
    rfl
  have total : product? (t.slacks p) (t.multipliers p) =
      .ok (Scalar.dot (t.slacks p) (t.multipliers p)) := if_pos lengths
  have count : (Scalar.ofNat p.slacks.length : K) = p.pairs := by
    rw [Scalar.ofNat, Scalar.ofInt_eq, Int.cast_natCast]
    rfl
  unfold affineMu
  rw [if_neg (show p.slacks.length ≠ 0 from paired), slacks, multipliers, t.affine_eq, ← count]
  exact congrArg (· >>= fun total => pure (total / Scalar.ofNat p.slacks.length)) total

variable [IsStrictOrderedRing K]

/-- Up to the limit of a step every variable keeps its share. -/
theorem exists_guarded {values steps : List K} (fits : values.length = steps.length)
    (positive : ∀ v ∈ values, 0 < v) {tau : K} (tau_pos : 0 < tau) :
    ∃ size, fractionToBoundary values steps tau = .ok size ∧ (0 < size ∧ size ≤ 1) ∧
      List.Forall₂ (fun v left => (1 - tau) * v ≤ left) values
        (List.zipWith (fun v s => v + size * s) values steps) := by
  obtain ⟨size, found, least⟩ := exists_isLeast_limits fits tau
  refine ⟨size, found, ⟨pos_of_mem_limits positive tau_pos least.1, least.2 (.inl rfl)⟩, ?_⟩
  have keeps := keeps_of_isLeast fits positive tau_pos least
  clear least found fits positive
  induction keeps with
  | nil => exact .nil
  | cons kept _ ih => exact .cons kept ih

theorem Point.Valid.mu_pos {p : Point K} (valid : p.Valid) (paired : p.pairs ≠ 0) : 0 < p.mu := by
  have count_pos : 0 < p.pairs := Nat.pos_of_ne_zero paired
  have filled : p.slacks ≠ [] := List.ne_nil_of_length_pos count_pos
  have total_pos := Scalar.dot_pos valid.multipliers_length filled valid.slacks_pos
    valid.multipliers_pos
  rw [p.mu_eq]
  exact div_pos total_pos (Nat.cast_pos.2 count_pos)

/-- **The trial of a step** can be made, and is guarded. -/
theorem Probing.exists_tries {r : Probing K} {p : Point K} (valid : p.Valid) (paired : p.pairs ≠ 0)
    (tau_pos : 0 < r.tau) (tau_le : r.tau ≤ 1) {step : List K}
    (inside : ∀ i ∈ p.slackPositions ++ p.multiplierPositions, Names step.length i) :
    ∃ t, r.Tries p step t ∧ t.Guarded p r.tau := by
  rw [List.forall_mem_append] at inside
  obtain ⟨stepSlacks, picked, counted⟩ := exists_pick? inside.1
  obtain ⟨stepMultipliers, picked', counted'⟩ := exists_pick? inside.2
  have slacks_fit := (counted.trans valid.slackPositions_length).symm
  have multipliers_fit := valid.multipliers_length.trans
    (counted'.trans valid.multiplierPositions_length).symm
  obtain ⟨primal, found, primal_range, slacks⟩ := exists_guarded slacks_fit valid.slacks_pos tau_pos
  obtain ⟨dual, found', dual_range, multipliers⟩ :=
    exists_guarded multipliers_fit valid.multipliers_pos tau_pos
  have products := Scalar.mul_dot_le_dot (sub_nonneg.2 tau_le) slacks multipliers
    valid.slacks_pos valid.multipliers_pos
  let t : Trial K := ⟨stepSlacks, stepMultipliers, primal, dual⟩
  have mu_pos := valid.mu_pos paired
  have affine : (1 - r.tau) ^ 2 * p.mu ≤ t.affine p := by
    rw [p.mu_eq, t.affine_eq, ← mul_div_assoc]
    exact div_le_div_of_nonneg_right products (Nat.cast_nonneg _)
  have computed := affineMu_eq valid paired (t := t) slacks_fit multipliers_fit
  exact ⟨t, ⟨picked, picked', found, found', computed⟩,
    ⟨mu_pos, primal_range, dual_range, slacks, multipliers,
      mul_nonneg (sq_nonneg _) mu_pos.le, affine⟩⟩

/-! ## The parameter -/

namespace Probing

omit [IsStrictOrderedRing K] in
theorem fault?_eq_none_iff {r : Probing K} :
    r.fault? = none ↔ (0 < r.muMin ∧ r.muMin ≤ r.muMax) ∧ 0 < r.tau ∧ r.tau ≤ 1 := by
  have refuses (a b c d : K) :
      (!(Scalar.lt a b && Scalar.le c d)) = true ↔ ¬ (a < b ∧ c ≤ d) := by
    rw [Bool.not_eq_true', ← Bool.not_eq_true, Bool.and_eq_true, Scalar.lt_iff, Scalar.le_iff]
  unfold fault?
  rw [if_congr (refuses ..) rfl (if_congr (refuses ..) rfl rfl)]
  by_cases within : 0 < r.muMin ∧ r.muMin ≤ r.muMax <;> simp [within]

/-- A parameter is the value between the bounds that is nearest to a target. -/
structure Clips (r : Probing K) (target mu : K) : Prop where
  range : r.muMin ≤ mu ∧ mu ≤ r.muMax
  inside : r.muMin ≤ target → target ≤ r.muMax → mu = target
  below : target ≤ r.muMin → mu = r.muMin
  above : r.muMax ≤ target → mu = r.muMax

omit [IsStrictOrderedRing K] in
theorem clip_eq (r : Probing K) (target : K) :
    r.clip target = min r.muMax (max r.muMin target) := by
  rw [clip, Scalar.smaller_eq, Scalar.larger_eq]

omit [IsStrictOrderedRing K] in
theorem clips_clip {r : Probing K} (ordered : r.muMin ≤ r.muMax) (target : K) :
    r.Clips target (r.clip target) := by
  rw [clip_eq]
  refine ⟨⟨le_min ordered (le_max_left _ _), min_le_left _ _⟩, ?_, ?_, ?_⟩
  · intro least greatest
    rw [max_eq_right least, min_eq_right greatest]
  · intro below
    rw [max_eq_left below, min_eq_right ordered]
  · intro above
    exact min_eq_left (above.trans (le_max_right _ _))

omit [IsStrictOrderedRing K] in
theorem muOfStep_eq {r : Probing K} {p : Point K} {step : List K} {t : Trial K}
    (tries : r.Tries p step t) (positive : p.mu ≠ 0) :
    r.muOfStep p step = .ok (r.clip ((t.affine p / p.mu) ^ 3 * p.mu)) := by
  have cubed : cube (t.affine p / p.mu) = .ok ((t.affine p / p.mu) ^ 3) := by
    simp [cube, pow_succ]
  unfold muOfStep
  simp only [tries.stepSlacks, tries.stepMultipliers, tries.primal, tries.dual, tries.affine, cubed,
    Except.mapError, bind, Except.bind, Scalar.eq_iff, if_neg positive]
  rfl

omit [IsStrictOrderedRing K] in
/-- What a target is at least, a parameter is, too, unless the upper bound is lower. -/
theorem min_le_clip (r : Probing K) {least target : K} (h : least ≤ target) :
    min r.muMax least ≤ r.clip target := by
  rw [clip_eq]
  exact min_le_min le_rfl (h.trans (le_max_right _ _))

section Solver

variable {α τ : Type} [Scalar α] {r : Probing α} {solve : Solver α τ} {s : τ} {kkt : MatrixView α}
variable {rhs : DenseVector α} {p : Point α}

theorem nextMuWith_of_success (paired : p.pairs ≠ 0)
    (success : (solve s kkt rhs ⟨List.replicate kkt.dim 0⟩).1.result = .ok .success) :
    (r.nextMuWith solve s kkt rhs p).1 =
      r.muOfStep p (solve s kkt rhs ⟨List.replicate kkt.dim 0⟩).1.solution.entries := by
  unfold nextMuWith
  rw [if_neg paired]
  generalize solve s kkt rhs ⟨List.replicate kkt.dim 0⟩ = done at success ⊢
  obtain ⟨⟨result, solution⟩, s'⟩ := done
  cases success
  rfl

theorem nextMuWith_of_outcome (paired : p.pairs ≠ 0) {outcome : Outcome}
    (other : outcome ≠ .success)
    (ended : (solve s kkt rhs ⟨List.replicate kkt.dim 0⟩).1.result = .ok outcome) :
    (r.nextMuWith solve s kkt rhs p).1 = .error (.noStep outcome) := by
  unfold nextMuWith
  rw [if_neg paired]
  generalize solve s kkt rhs ⟨List.replicate kkt.dim 0⟩ = done at ended ⊢
  obtain ⟨⟨result, solution⟩, s'⟩ := done
  cases ended
  cases outcome with
  | success => exact absurd rfl other
  | singular | wrongInertia | fatalError => rfl

end Solver

end Probing

/-- The cube of the ratio is at least that of the share. -/
theorem Trial.Guarded.le_target {t : Trial K} {p : Point K} {tau : K} (h : t.Guarded p tau) :
    (1 - tau) ^ 6 * p.mu ≤ (t.affine p / p.mu) ^ 3 * p.mu := by
  have ratio : (1 - tau) ^ 2 ≤ t.affine p / p.mu := (le_div_iff₀ h.mu_pos).2 h.affine.2
  have cubed := pow_le_pow_left₀ (sq_nonneg (1 - tau)) ratio 3
  rw [← pow_mul] at cubed
  exact mul_le_mul_of_nonneg_right cubed h.mu_pos.le

/-- **The next parameter keeps to the bounds.** -/
theorem nextMu_guarded {slacks multipliers : List K} {slackPositions multiplierPositions : List Int}
    {p : Point K}
    (checked : Point.ofGrids (.ofList slacks) (.ofList multipliers) (.ofList slackPositions)
      (.ofList multiplierPositions) = .ok p) (paired : p.pairs ≠ 0) {r : Probing K}
    (admitted : r.fault? = none) {τ : Type} (solve : Solver K τ) (s : τ) (kkt : MatrixView K)
    (rhs : DenseVector K) :
    let answer := (solve s kkt rhs ⟨List.replicate kkt.dim 0⟩).1
    let next := (r.nextMuWith solve s kkt rhs p).1
    (answer.result = .ok .success →
      (∀ i ∈ p.slackPositions ++ p.multiplierPositions, Names answer.solution.dim i) →
      ∃ t mu, r.Tries p answer.solution.entries t ∧ t.Guarded p r.tau ∧ next = .ok mu ∧ 0 < mu ∧
        r.Clips ((t.affine p / p.mu) ^ 3 * p.mu) mu ∧ min r.muMax ((1 - r.tau) ^ 6 * p.mu) ≤ mu) ∧
    ∀ outcome, outcome ≠ .success → answer.result = .ok outcome →
      next = .error (.noStep outcome) := by
  intro answer next
  obtain ⟨⟨muMin_pos, ordered⟩, tau_pos, tau_le⟩ := Probing.fault?_eq_none_iff.1 admitted
  have valid := Point.valid_of_ofGrids checked
  refine ⟨fun success inside => ?_, fun outcome => Probing.nextMuWith_of_outcome paired⟩
  obtain ⟨t, tries, guarded⟩ := Probing.exists_tries valid paired tau_pos tau_le inside
  have followed : next = .ok (r.clip ((t.affine p / p.mu) ^ 3 * p.mu)) :=
    (Probing.nextMuWith_of_success paired success).trans
      (Probing.muOfStep_eq tries guarded.mu_pos.ne')
  have clips := Probing.clips_clip ordered ((t.affine p / p.mu) ^ 3 * p.mu)
  exact ⟨t, _, tries, guarded, followed, muMin_pos.trans_le clips.range.1, clips,
    r.min_le_clip guarded.le_target⟩

/-! ## Two pairs -/

/-- The identity on four unknowns. -/
def identityFour : SymTriplets ℚ := ⟨4, [⟨0, 0, 1⟩, ⟨1, 1, 1⟩, ⟨2, 2, 1⟩, ⟨3, 3, 1⟩], 1⟩

/-- A step that halves two slacks. -/
def halving : DenseVector ℚ := ⟨[-1 / 2, -1, 1 / 5, -1 / 10]⟩

/-- Two pairs, the steps of whose multipliers are counted from the end. -/
def twoPairs : Point ℚ := ⟨[1, 2], [1, 1], [0, 1], [-2, -1]⟩

theorem probing_twoPairs :
    let answer := (engineSolver (exactEngine Reference.kernel ()) identityFour.view halving
      ⟨List.replicate 4 0⟩).1
    let next := (Probing.standard.nextMu (exactEngine Reference.kernel ()) identityFour.view halving
      twoPairs).1
    answer.result = .ok .success ∧ answer.solution.dim = 4 ∧ next.toOption = some (3 / 16) := by
  -- merging recurses on the length of a list, which the kernel does not compute with
  delta Reference.kernel Reference.analyse Graph.narrowOrder Graph.breadthFirst Graph.round
    Graph.withSeed
  simp only [Graph.byDegree_eq_insertionSort]
  decide +kernel

/-- The step halves the average complementarity, and an eighth of it is next. -/
theorem nextMu_guarded_halved : ∃ t : Trial ℚ,
    (Probing.standard.nextMu (exactEngine Reference.kernel ()) identityFour.view halving twoPairs).1 =
        .ok (3 / 16) ∧
      t.Guarded twoPairs (99 / 100) ∧
      Probing.standard.Clips ((t.affine twoPairs / (3 / 2)) ^ 3 * (3 / 2)) (3 / 16) := by
  obtain ⟨success, dim, value⟩ := probing_twoPairs
  have checked : Point.ofGrids (.ofList [1, 2]) (.ofList [1, 1]) (.ofList [0, 1])
      (.ofList [-2, -1]) = .ok twoPairs := rfl
  have admitted : (Probing.standard : Probing ℚ).fault? = none := by decide +kernel
  have average : twoPairs.mu = 3 / 2 := by decide +kernel
  have inside : ∀ i ∈ twoPairs.slackPositions ++ twoPairs.multiplierPositions, Names 4 i := by
    simp [twoPairs, Names]
  obtain ⟨followed, -⟩ := nextMu_guarded checked (by decide) admitted engineSolver
    (exactEngine Reference.kernel ()) identityFour.view halving
  obtain ⟨t, mu, -, guarded, next, -, clips, -⟩ := followed success (dim ▸ inside)
  change (Probing.standard.nextMuWith engineSolver _ _ halving twoPairs).1.toOption = _ at value
  rw [next] at value
  obtain rfl : mu = 3 / 16 := Option.some.inj value
  rw [average] at clips
  exact ⟨t, next, guarded, clips⟩

end Barrier

end SymSolve
