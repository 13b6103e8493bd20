import Mathlib.Data.List.Forall2
import Mathlib.Tactic.FieldSimp
import Mathlib.Tactic.Linarith
import SymSolve.Proofs.Exact
import SymSolve.Restoration

/-!
# Starting points for feasibility restoration are admissible

**Theorem (`start_admissible`).** Where the roots that are taken are exact, a restoration starts from
slacks that are positive and have the violations as their differences, each the only root of its
quadratic for which this can be. The multipliers are those estimated, or zeros if one of them is too
large or there is no estimate. Only an estimate of another shape than the violations is refused.

The two roots of the quadratic lie at the same distance on either side of their mean (`quadratic_eq`).
The square of that distance differs from the square of the mean, for the first slack, and from the
square of the mean and the violation together, for the second one, by the same amount in opposite
directions (`radicand_eq`, `radicand_eq_sub`). So for one slack the distance exceeds what it is added
to, and for the other slack that is positive by itself.
-/

namespace SymSolve

variable {K : Type} [Field K] [LinearOrder K] [FloorRing K]

/-! ## Slacks -/

/-- The quadratic of which the first slack is a root. -/
def SlackPair.quadratic (rho mu c n : K) : K := rho * n ^ 2 + (rho * c - mu) * n - mu * c / (1 + 1)

namespace SlackPair

variable {rho mu c : K}

theorem middle_eq : middle rho mu c = (mu - rho * c) / (2 * rho) := by
  rw [← one_add_one_eq_two]
  rfl

theorem radicand_eq :
    radicand rho mu c = middle rho mu c * middle rho mu c + mu * c / (2 * rho) := by
  rw [← one_add_one_eq_two]
  rfl

theorem radicand_eq_sub (rho_pos : 0 < rho) : radicand rho mu c =
    (c + middle rho mu c) * (c + middle rho mu c) + -(mu * c / (2 * rho)) := by
  rw [radicand_eq, middle_eq]
  field_simp
  ring

theorem quadratic_eq (rho_pos : 0 < rho) (n : K) : quadratic rho mu c n =
    rho * ((n - middle rho mu c) * (n - middle rho mu c) - radicand rho mu c) := by
  rw [radicand_eq, middle_eq, quadratic, one_add_one_eq_two]
  field_simp
  ring

section Roots

variable [IsStrictOrderedRing K]

omit [FloorRing K] in
/-- A root of more than the square of `m` lies beyond `m`. -/
theorem le_of_square {m s d : K} (s_nonneg : 0 ≤ s) (square : s * s = m * m + d) (d_nonneg : 0 ≤ d) :
    m ≤ s := by
  by_contra below
  have smaller : s * s < m * m := mul_self_lt_mul_self s_nonneg (not_le.1 below)
  linarith

omit [FloorRing K] in
theorem add_pos_of_square {m s d : K} (s_nonneg : 0 ≤ s) (square : s * s = m * m + d)
    (positive : 0 < m ∨ 0 < d) : 0 < m + s := by
  by_contra nonpositive
  have opposite : s ≤ -m := by linarith
  have smaller : s * s ≤ m * m := by
    simpa using mul_self_le_mul_self s_nonneg opposite
  cases positive with
  | inl m_pos => linarith
  | inr d_pos => linarith

theorem radicand_nonneg (rho_pos : 0 < rho) (mu c : K) : 0 ≤ radicand rho mu c := by
  by_cases share : 0 ≤ mu * c / (2 * rho)
  · rw [radicand_eq]
    exact add_nonneg (mul_self_nonneg _) share
  · rw [radicand_eq_sub rho_pos]
    exact add_nonneg (mul_self_nonneg _) (neg_nonneg.2 (not_le.1 share).le)

/-- For a violation that is not positive the mean is. -/
theorem middle_pos (rho_pos : 0 < rho) (mu_pos : 0 < mu) (nonpositive : c ≤ 0) :
    0 < middle rho mu c := by
  rw [middle_eq]
  have product : rho * c ≤ 0 := mul_nonpos_of_nonneg_of_nonpos rho_pos.le nonpositive
  exact div_pos (by linarith) (by linarith)

/-- For a violation that is not negative the mean and the violation together are positive. -/
theorem add_middle_pos (rho_pos : 0 < rho) (mu_pos : 0 < mu) (nonneg : 0 ≤ c) :
    0 < c + middle rho mu c := by
  have total : c + middle rho mu c = (mu + rho * c) / (2 * rho) := by
    rw [middle_eq]
    field_simp
    ring
  have product : 0 ≤ rho * c := mul_nonneg rho_pos.le nonneg
  rw [total]
  exact div_pos (by linarith) (by linarith)

/-- The lesser root leaves one of the slacks without a positive value. -/
theorem not_pos_of_lesser (rho_pos : 0 < rho) (mu_pos : 0 < mu) {s : K} (s_nonneg : 0 ≤ s)
    (square : s * s = radicand rho mu c) (n_pos : 0 < middle rho mu c - s) :
    ¬ 0 < c + (middle rho mu c - s) := by
  intro p_pos
  by_cases nonneg : 0 ≤ c
  · have share : 0 ≤ mu * c / (2 * rho) := by positivity
    have beyond := le_of_square s_nonneg (square.trans radicand_eq) share
    linarith
  · have share : 0 ≤ -(mu * c / (2 * rho)) := by
      rw [← neg_div, ← mul_neg]
      have opposite : 0 ≤ -c := by linarith
      positivity
    have beyond := le_of_square s_nonneg (square.trans (radicand_eq_sub rho_pos)) share
    linarith

/-- The greater root leaves both slacks positive. -/
theorem pos_of_greater (rho_pos : 0 < rho) (mu_pos : 0 < mu) {s : K} (s_nonneg : 0 ≤ s)
    (square : s * s = radicand rho mu c) :
    0 < middle rho mu c + s ∧ 0 < c + (middle rho mu c + s) := by
  rw [← add_assoc]
  constructor
  · refine add_pos_of_square s_nonneg (square.trans radicand_eq) ?_
    by_cases positive : 0 < c
    · right
      positivity
    · exact .inl (middle_pos rho_pos mu_pos (not_lt.1 positive))
  · refine add_pos_of_square s_nonneg (square.trans (radicand_eq_sub rho_pos)) ?_
    by_cases negative : c < 0
    · right
      rw [← neg_div, ← mul_neg]
      have opposite : 0 < -c := by linarith
      positivity
    · exact .inl (add_middle_pos rho_pos mu_pos (not_lt.1 negative))

variable [Powers K]

/-- The slacks of a violation: positive, with the right difference, and the only root. -/
structure Splits (s : SlackPair K) (rho mu c : K) : Prop where
  radicand : 0 ≤ radicand rho mu c
  n_pos : 0 < s.n
  p_pos : 0 < s.p
  difference : s.p - s.n = c
  root : quadratic rho mu c s.n = 0
  unique : ∀ t, quadratic rho mu c t = 0 → 0 < t → 0 < c + t → t = s.n

/-- **The slacks of a violation** are the admissible ones. -/
theorem splits_ofViolation (rho_pos : 0 < rho) (mu_pos : 0 < mu)
    (root : ExactRoot (radicand rho mu c)) : (ofViolation rho mu c).Splits rho mu c := by
  obtain ⟨s_nonneg, square⟩ := root
  generalize taken : RealScalar.sqrt (radicand rho mu c) = s at s_nonneg square
  have slacks : ofViolation rho mu c = ⟨middle rho mu c + s, c + (middle rho mu c + s)⟩ := by
    rw [← taken]
    rfl
  have positive := pos_of_greater rho_pos mu_pos s_nonneg square
  rw [slacks]
  refine ⟨radicand_nonneg rho_pos mu c, positive.1, positive.2, add_sub_cancel_right .., ?_, ?_⟩
  · rw [quadratic_eq rho_pos, add_sub_cancel_left, square, sub_self, mul_zero]
  · intro t zero t_pos p_pos
    rw [quadratic_eq rho_pos, ← square] at zero
    have distance : (t - middle rho mu c) * (t - middle rho mu c) = s * s :=
      sub_eq_zero.1 ((mul_eq_zero_iff_left rho_pos.ne').1 zero)
    cases mul_self_eq_mul_self_iff.1 distance with
    | inl greater => exact eq_add_of_sub_eq' greater
    | inr lesser =>
      obtain rfl : t = middle rho mu c - s := by linarith
      exact absurd p_pos (not_pos_of_lesser rho_pos mu_pos s_nonneg square t_pos)

end Roots

end SlackPair

/-! ## Starting points -/

namespace Restoration

theorem fault?_eq_none_iff {r : Restoration K} :
    r.fault? = none ↔ 0 ≤ r.multiplierLimit ∧ 0 < r.rho := by
  simp only [fault?, Scalar.lt_iff, Scalar.le_iff]
  split_ifs with limit rho
  · simp [limit]
  · simp [rho]
  · simp [not_lt.1 limit, not_le.1 rho]

/-- A starting point is admissible. -/
structure Admissible [Powers K] (r : Restoration K) (mu : K) (c : List K)
    (estimate : Option (Grid K)) (point : RestorationPoint K) : Prop where
  slacks : List.Forall₂ (fun x s => SlackPair.Splits s r.rho mu x) c point.slacks
  length : point.multipliers.length = c.length
  bounded : ∀ y ∈ point.multipliers, |y| ≤ r.multiplierLimit
  clipped_iff : point.clipped = true ↔
    ∃ g, estimate = some g ∧ ∃ y ∈ g.entries, r.multiplierLimit < |y|
  kept : point.clipped = false → ∀ g, estimate = some g → point.multipliers = g.entries
  zeros : estimate = none ∨ point.clipped = true → point.multipliers = List.replicate c.length 0

theorem tooLarge_iff {r : Restoration K} (limit_nonneg : 0 ≤ r.multiplierLimit)
    (estimate : List K) :
    r.tooLarge estimate = true ↔ ∃ y ∈ estimate, r.multiplierLimit < |y| := by
  have within := Scalar.maxAbs_le_iff estimate limit_nonneg
  cases estimate with
  | nil => simp [tooLarge]
  | cons y ys =>
    rw [tooLarge, List.isEmpty_cons, Bool.not_false, Bool.true_and, Scalar.lt_iff, ← not_le, within]
    simp only [not_forall, not_le, exists_prop]

variable [Powers K]

theorem slackPairs_eq {rho mu : K} (rho_pos : 0 < rho) (mu_pos : 0 < mu) (c : List K) :
    slackPairs rho mu c = .ok (c.map (SlackPair.ofViolation rho mu)) := by
  unfold slackPairs
  rw [if_neg (by simpa using rho_pos), if_neg (by simpa using mu_pos)]

theorem start_eq {r : Restoration K} (rho_pos : 0 < r.rho) {mu : K} (mu_pos : 0 < mu) (c : List K)
    {κ ε : Type} {estimator : κ → Except ε (Option (Grid K)) × κ} {k : κ}
    {estimate : Option (Grid K)} (asked : (estimator k).1 = .ok estimate) :
    (r.start (.ofList c) mu estimator k).1 =
      (r.point (c.map (SlackPair.ofViolation r.rho mu)) estimate).mapError .data := by
  have slacks : r.slacks (.ofList c) mu = .ok (c.map (SlackPair.ofViolation r.rho mu)) :=
    slackPairs_eq rho_pos mu_pos c
  unfold start
  rw [slacks]
  dsimp only
  generalize estimator k = answer at asked ⊢
  obtain ⟨result, k'⟩ := answer
  cases asked
  rfl

variable [IsStrictOrderedRing K]

theorem splits_map {rho mu : K} (rho_pos : 0 < rho) (mu_pos : 0 < mu) {c : List K}
    (roots : ∀ x ∈ c, 0 ≤ SlackPair.radicand rho mu x → ExactRoot (SlackPair.radicand rho mu x)) :
    List.Forall₂ (fun x s => SlackPair.Splits s rho mu x) c
      (c.map (SlackPair.ofViolation rho mu)) := by
  rw [List.forall₂_map_right_iff, List.forall₂_same]
  intro x member
  have nonneg := SlackPair.radicand_nonneg rho_pos mu x
  exact SlackPair.splits_ofViolation rho_pos mu_pos (roots x member nonneg)

/-- An estimate of the right shape is taken or replaced. -/
theorem exists_point {r : Restoration K} (limit_nonneg : 0 ≤ r.multiplierLimit) {mu : K}
    {c : List K} {pairs : List (SlackPair K)}
    (slacks : List.Forall₂ (fun x s => SlackPair.Splits s r.rho mu x) c pairs)
    {estimate : Option (Grid K)} (shaped : ∀ g, estimate = some g → g.shape = [c.length])
    (full : ∀ g, estimate = some g → g.entries.length = g.shape.prod) :
    ∃ point, r.point pairs estimate = .ok point ∧ r.Admissible mu c estimate point := by
  have zeros_bounded : ∀ y ∈ List.replicate c.length (0 : K), |y| ≤ r.multiplierLimit := by
    intro y member
    rw [List.eq_of_mem_replicate member, abs_zero]
    exact limit_nonneg
  have zeros_length := List.length_replicate (n := c.length) (a := (0 : K))
  unfold point
  rw [← slacks.length_eq]
  cases estimate with
  | none => exact ⟨_, rfl, slacks, zeros_length, zeros_bounded, by simp, by simp, fun _ => rfl⟩
  | some g =>
    have shape := shaped g rfl
    have length : g.entries.length = c.length := by
      rw [full g rfl, shape, List.prod_singleton]
    dsimp only
    rw [if_neg (not_not_intro shape)]
    have exceeds := tooLarge_iff limit_nonneg g.entries
    by_cases large : r.tooLarge g.entries = true
    · rw [if_pos large]
      exact ⟨_, rfl, slacks, zeros_length, zeros_bounded, by simpa using exceeds.1 large, by simp,
        fun _ => rfl⟩
    · rw [if_neg large]
      rw [exceeds] at large
      refine ⟨_, rfl, slacks, length, ?_, by simpa using large, by simp, by simp⟩
      intro y member
      by_contra above
      exact large ⟨y, member, not_le.1 above⟩

/-- **A restoration starts from an admissible point**, unless the estimate has another shape than the
violations. -/
theorem start_admissible {r : Restoration K} (admitted : r.fault? = none) {mu : K}
    (mu_pos : 0 < mu) (c : List K)
    (roots : ∀ x ∈ c, 0 ≤ SlackPair.radicand r.rho mu x → ExactRoot (SlackPair.radicand r.rho mu x))
    {κ ε : Type} (estimator : κ → Except ε (Option (Grid K)) × κ) (k : κ)
    {estimate : Option (Grid K)} (asked : (estimator k).1 = .ok estimate)
    (full : ∀ g, estimate = some g → g.entries.length = g.shape.prod) :
    let result := (r.start (.ofList c) mu estimator k).1
    (result = .error (.data .estimateLength) ∧ ∃ g, estimate = some g ∧ g.shape ≠ [c.length]) ∨
      (∀ g, estimate = some g → g.shape = [c.length]) ∧
        ∃ point, result = .ok point ∧ r.Admissible mu c estimate point := by
  intro result
  obtain ⟨limit_nonneg, rho_pos⟩ := fault?_eq_none_iff.1 admitted
  have started : result = (r.point _ estimate).mapError .data := start_eq rho_pos mu_pos c asked
  by_cases shaped : ∀ g, estimate = some g → g.shape = [c.length]
  · right
    have slacks := splits_map rho_pos mu_pos roots
    obtain ⟨point, made, admissible⟩ := exists_point limit_nonneg slacks shaped full
    rw [made] at started
    exact ⟨shaped, point, started, admissible⟩
  · left
    simp only [not_forall] at shaped
    obtain ⟨g, rfl, misfit⟩ := shaped
    have refused : r.point (c.map (SlackPair.ofViolation r.rho mu)) (some g) =
        .error .estimateLength := if_pos (by rwa [List.length_map])
    rw [refused] at started
    exact ⟨started, g, rfl, misfit⟩

/-- An estimate with an entry beyond a limit of ten. -/
def excessive (k : Unit) : Except Unit (Option (Grid ℚ)) × Unit :=
  (.ok (some (.ofList [1, -20, 3])), k)

/-- Violations of both signs, and none. -/
theorem start_admissible_clipped : ∃ point,
    ((⟨10, 1⟩ : Restoration ℚ).start (.ofList [4, 0, -4]) 3 excessive ()).1 = .ok point ∧
      point.slacks.map SlackPair.n = [2, 3, 6] ∧ point.multipliers = [0, 0, 0] ∧
      Restoration.Admissible ⟨10, 1⟩ 3 [4, 0, -4] (some (.ofList [1, -20, 3])) point := by
  have admitted : (⟨10, 1⟩ : Restoration ℚ).fault? = none := by decide +kernel
  have nonneg : ∀ x ∈ [(4 : ℚ), 0, -4], 0 ≤ RealScalar.sqrt (SlackPair.radicand 1 3 x) := by
    decide +kernel
  have square : ∀ x ∈ [(4 : ℚ), 0, -4], RealScalar.sqrt (SlackPair.radicand 1 3 x) *
      RealScalar.sqrt (SlackPair.radicand 1 3 x) = SlackPair.radicand 1 3 x := by
    decide +kernel
  have computed : ((⟨10, 1⟩ : Restoration ℚ).start (.ofList [4, 0, -4]) 3 excessive
      ()).1.toOption.map (fun point => (point.slacks.map SlackPair.n, point.multipliers)) =
        some ([2, 3, 6], [0, 0, 0]) := by
    decide +kernel
  obtain ⟨-, g, found, misfit⟩ | ⟨-, point, made, admissible⟩ :=
    start_admissible admitted (by decide : (0 : ℚ) < 3) [4, 0, -4]
      (fun x member _ => ⟨nonneg x member, square x member⟩) excessive () rfl
      (fun g found => by cases found; rfl)
  · cases found
    exact absurd rfl misfit
  · rw [made] at computed
    have values := Prod.ext_iff.1 (Option.some.inj computed)
    exact ⟨point, made, values.1, values.2, admissible⟩

end Restoration

end SymSolve
