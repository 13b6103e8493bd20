import Mathlib.Order.Bounds.Basic
import Mathlib.Tactic.Linarith
import SymSolve.Barrier.Step
import SymSolve.Proofs.Exact

/-!
# The largest step that keeps variables positive

**Theorem (`fractionToBoundary_largest`).** For positive variables the step length is positive and at
most one. With it every variable keeps at least the share `1 - tau` of its value, and with any longer
one up to one some variable does not.

A variable that decreases keeps its share exactly up to the length at which it reaches the boundary
(`keeps_iff_of_neg`), and the other variables keep theirs at every length. So the step length is the
least of several limits (`exists_isLeast_limits`), one among them.
-/

namespace SymSolve.Barrier

variable {K : Type} [Field K] [LinearOrder K] [FloorRing K]

/-! ## Limits -/

/-- The lengths that a step must not exceed: one, and those at which a variable reaches the
boundary. -/
def limits (tau : K) (values steps : List K) : Set K :=
  {a | a = 1 ∨ ∃ v s, (v, s) ∈ values.zip steps ∧ s < 0 ∧ a = boundaryRatio tau v s}

/-- The lengths at which variables reach the boundary. -/
def ratios (tau : K) (values steps : List K) : List K :=
  ((values.zip steps).filter fun w => Scalar.lt w.2 0).map fun w => boundaryRatio tau w.1 w.2

theorem mem_ratios {tau a : K} {values steps : List K} : a ∈ ratios tau values steps ↔
    ∃ v s, (v, s) ∈ values.zip steps ∧ s < 0 ∧ a = boundaryRatio tau v s := by
  simp only [ratios, List.mem_map, List.mem_filter, Scalar.lt_iff, Prod.exists, and_assoc,
    eq_comm (a := a)]

theorem fractionToBoundary_eq {values steps : List K} (fits : values.length = steps.length)
    (tau : K) :
    fractionToBoundary values steps tau = .ok (min 1 ((ratios tau values steps).min?.getD 1)) := by
  unfold fractionToBoundary
  rw [if_pos fits]
  by_cases decreasing : steps.any fun s => Scalar.lt s 0
  · rw [if_pos decreasing]
    dsimp only
    rw [Scalar.smaller_eq, Scalar.minimum?_eq]
    rfl
  · have none : ratios tau values steps = [] := by
      rw [List.eq_nil_iff_forall_not_mem]
      intro a member
      obtain ⟨v, s, paired, negative, -⟩ := mem_ratios.1 member
      apply decreasing
      rw [List.any_eq_true]
      exact ⟨s, (List.of_mem_zip paired).2, (Scalar.lt_iff s 0).2 negative⟩
    rw [if_neg decreasing, none]
    simp

/-- **The step length is the least limit.** -/
theorem exists_isLeast_limits {values steps : List K} (fits : values.length = steps.length)
    (tau : K) :
    ∃ size, fractionToBoundary values steps tau = .ok size ∧
      IsLeast (limits tau values steps) size := by
  have split (a : K) : a ∈ limits tau values steps ↔ a = 1 ∨ a ∈ ratios tau values steps :=
    or_congr_right mem_ratios.symm
  have computed := fractionToBoundary_eq fits tau
  cases least : (ratios tau values steps).min? with
  | none =>
    rw [least] at computed
    rw [List.min?_eq_none_iff] at least
    refine ⟨_, computed, ?_, ?_⟩
    · simp [split]
    · intro a limit
      simp_all
  | some m =>
    rw [least] at computed
    obtain ⟨member, below⟩ := List.min?_eq_some_iff.1 least
    refine ⟨min 1 m, computed, ?_, ?_⟩
    · rw [split]
      by_cases one : 1 ≤ m
      · exact .inl (min_eq_left one)
      · rw [min_eq_right (not_le.1 one).le]
        exact .inr member
    · intro a limit
      cases (split a).1 limit with
      | inl one => exact one ▸ min_le_left 1 m
      | inr ratio => exact (min_le_right 1 m).trans (below a ratio)

/-! ## Shares -/

variable [IsStrictOrderedRing K]

omit [FloorRing K] [IsStrictOrderedRing K] in
/-- A variable `v` that changes by `s` along a step keeps the share `1 - tau` at a length. -/
def Keeps (tau size v s : K) : Prop := (1 - tau) * v ≤ v + size * s

omit [FloorRing K] in
theorem keeps_of_nonneg {tau size v s : K} (tau_nonneg : 0 ≤ tau) (size_nonneg : 0 ≤ size)
    (v_nonneg : 0 ≤ v) (s_nonneg : 0 ≤ s) : Keeps tau size v s := by
  have lost : 0 ≤ tau * v := mul_nonneg tau_nonneg v_nonneg
  have gained : 0 ≤ size * s := mul_nonneg size_nonneg s_nonneg
  unfold Keeps
  linarith

theorem keeps_iff_of_neg {tau size v s : K} (decreases : s < 0) :
    Keeps tau size v s ↔ size ≤ boundaryRatio tau v s := by
  have reached : size ≤ boundaryRatio tau v s ↔ -tau * v ≤ size * s :=
    le_div_iff_of_neg decreases
  rw [reached]
  unfold Keeps
  constructor <;> intro h <;> linarith

theorem boundaryRatio_pos {tau v s : K} (tau_pos : 0 < tau) (v_pos : 0 < v) (decreases : s < 0) :
    0 < boundaryRatio tau v s := by
  have above : -tau * v < 0 := by
    rw [neg_mul]
    exact neg_neg_of_pos (mul_pos tau_pos v_pos)
  exact div_pos_of_neg_of_neg above decreases

section Limits

variable {values steps : List K} {tau size : K}

theorem pos_of_mem_limits (positive : ∀ v ∈ values, 0 < v) (tau_pos : 0 < tau)
    (limit : size ∈ limits tau values steps) : 0 < size := by
  obtain one | ⟨v, s, paired, decreases, reached⟩ := limit
  · exact one ▸ one_pos
  · rw [reached]
    exact boundaryRatio_pos tau_pos (positive v (List.of_mem_zip paired).1) decreases

/-- Up to the least limit every variable keeps its share. -/
theorem keeps_of_isLeast (fits : values.length = steps.length) (positive : ∀ v ∈ values, 0 < v)
    (tau_pos : 0 < tau) (least : IsLeast (limits tau values steps) size) :
    List.Forall₂ (Keeps tau size) values steps := by
  rw [List.forall₂_iff_zip]
  refine ⟨fits, fun {v s} paired => ?_⟩
  by_cases decreases : s < 0
  · apply (keeps_iff_of_neg decreases).2
    exact least.2 (.inr ⟨v, s, paired, decreases, rfl⟩)
  · have v_pos := positive v (List.of_mem_zip paired).1
    have size_pos := pos_of_mem_limits positive tau_pos least.1
    exact keeps_of_nonneg tau_pos.le size_pos.le v_pos.le (not_lt.1 decreases)

/-- Beyond it the variable that sets it does not. -/
theorem exists_not_keeps (limit : size ∈ limits tau values steps) {longer : K}
    (exceeds : size < longer) (le_one : longer ≤ 1) :
    ∃ v s, (v, s) ∈ values.zip steps ∧ ¬ Keeps tau longer v s := by
  obtain one | ⟨v, s, paired, decreases, reached⟩ := limit
  · exact absurd le_one (not_le.2 (one ▸ exceeds))
  · refine ⟨v, s, paired, fun keeps => ?_⟩
    have within := (keeps_iff_of_neg decreases).1 keeps
    exact absurd within (not_le.2 (reached ▸ exceeds))

end Limits

/-! ## The largest step -/

/-- All variables keep their share at a length, and at a longer one up to one some do not. -/
structure LargestStep (tau : K) (values steps : List K) (size : K) : Prop where
  pos : 0 < size
  le_one : size ≤ 1
  keeps : List.Forall₂ (Keeps tau size) values steps
  maximal : ∀ longer, size < longer → longer ≤ 1 →
    ∃ v s, (v, s) ∈ values.zip steps ∧ ¬ Keeps tau longer v s

/-- **The step length is the largest one.** -/
theorem fractionToBoundary_largest {values steps : List K} (fits : values.length = steps.length)
    (positive : ∀ v ∈ values, 0 < v) {tau : K} (tau_pos : 0 < tau) :
    ∃ size, fractionToBoundary values steps tau = .ok size ∧ LargestStep tau values steps size := by
  obtain ⟨size, found, least⟩ := exists_isLeast_limits fits tau
  refine ⟨size, found, ?_⟩
  exact {
    pos := pos_of_mem_limits positive tau_pos least.1
    le_one := least.2 (.inl rfl)
    keeps := keeps_of_isLeast fits positive tau_pos least
    maximal := fun _ => exists_not_keeps least.1 }

/-- Of two variables that decrease the first one sets the limit. -/
theorem fractionToBoundary_largest_first :
    fractionToBoundary [1, 1, 4] [-2, 0, -4] (99 / 100 : ℚ) = .ok (99 / 200) ∧
      LargestStep (99 / 100 : ℚ) [1, 1, 4] [-2, 0, -4] (99 / 200) := by
  have computed : fractionToBoundary [1, 1, 4] [-2, 0, -4] (99 / 100 : ℚ) = .ok (99 / 200) := by
    decide +kernel
  have fits : [(1 : ℚ), 1, 4].length = [(-2 : ℚ), 0, -4].length := rfl
  have positive : ∀ v ∈ [(1 : ℚ), 1, 4], 0 < v := by decide +kernel
  have tau_pos : (0 : ℚ) < 99 / 100 := by decide +kernel
  obtain ⟨size, found, largest⟩ := fractionToBoundary_largest fits positive tau_pos
  rw [computed] at found
  cases found
  exact ⟨computed, largest⟩

end SymSolve.Barrier
