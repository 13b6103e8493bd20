import Mathlib.Analysis.Matrix.Spectrum
import SymSolve.Proofs.Ldl.Sylvester

/-!
# Inertia and eigenvalues

A symmetric real matrix is congruent to the diagonal matrix of its eigenvalues, and so it is if both
are moved by a multiple of the identity. Congruent diagonal matrices have equally many negative
entries, so that an inertia counts eigenvalues (`HasInertia.eigenvaluesWhere_signs`), and an inertia up to a
magnitude counts those below and within that magnitude (`HasInertiaUpTo.eigenvaluesWhere_signs`).

**Theorem (`HasInertiaUpTo.hides`).** What is counted up to a magnitude falls short of the exact counts
by the eigenvalues that are hidden: they are not zero, but their magnitude is not larger.
-/

namespace SymSolve

open Matrix

variable {ι : Type} [Fintype ι] [DecidableEq ι]

/-! ## Real matrices -/

section Real

variable {M : Matrix ι ι ℝ} {p : Inertia} {t : ℝ}

theorem congruent_eigenvalues_add (hM : M.IsHermitian) (s : ℝ) :
    Congruent (M + s • 1) (diagonal fun i => hM.eigenvalues i + s) := by
  have unitary : (hM.eigenvectorUnitary : Matrix ι ι ℝ) * star (hM.eigenvectorUnitary : Matrix ι ι ℝ) =
      1 := Unitary.coe_mul_star_self hM.eigenvectorUnitary
  have spectral := hM.spectral_theorem
  rw [Unitary.conjStarAlgAut_apply] at spectral
  refine ⟨hM.eigenvectorUnitary, star (hM.eigenvectorUnitary : Matrix ι ι ℝ), unitary, ?_⟩
  have moved : (diagonal fun i => hM.eigenvalues i + s) = diagonal hM.eigenvalues + s • 1 := by
    rw [smul_one_eq_diagonal, diagonal_add]
  rw [moved, ← conjTranspose_eq_transpose_of_trivial, ← star_eq_conjTranspose, mul_add, add_mul,
    mul_smul_comm, mul_one, smul_mul_assoc, unitary]
  exact congrArg (· + s • 1) spectral

theorem HasInertia.card_eigenvalues_add {s : ℝ} (h : HasInertia (M + s • 1) p) (hM : M.IsHermitian) :
    Fintype.card {i // hM.eigenvalues i + s < 0} = p.negative ∧
      Fintype.card {i // hM.eigenvalues i + s = 0} = p.zero := by
  have told : HasInertia (M + s • 1) ⟨_, _⟩ := ⟨_, congruent_eigenvalues_add hM s, rfl, rfl⟩
  have same := told.unique h
  exact ⟨congrArg Inertia.negative same, congrArg Inertia.zero same⟩

theorem Signs.card_eigenvalues {k : Nat} (h : Signs M k) (hM : M.IsHermitian) :
    Fintype.card {i // hM.eigenvalues i < 0} = k := by
  have exact : HasInertia (M + (0 : ℝ) • 1) ⟨k, 0⟩ := by
    rw [zero_smul, add_zero]
    exact signs_iff.1 h
  simpa using (exact.card_eigenvalues_add hM).1

end Real

/-! ## Rational matrices -/

omit [Fintype ι] [DecidableEq ι] in
theorem isHermitian_map {M : Matrix ι ι ℚ} (h : M.IsSymm) :
    (M.map fun q : ℚ => (q : ℝ)).IsHermitian :=
  IsHermitian.ext fun i j => congrArg (fun q : ℚ => (q : ℝ)) (h.apply i j)

/-- How many eigenvalues have the property, each counted as often as it occurs. -/
noncomputable def eigenvaluesWhere {M : Matrix ι ι ℚ} (h : M.IsSymm) (P : ℝ → Prop) : Nat :=
  Nat.card {i // P ((isHermitian_map h).eigenvalues i)}

section Rational

variable {M : Matrix ι ι ℚ} {p q : Inertia} {t : ℚ} (symm : M.IsSymm)

theorem eigenvaluesWhere_congr {P Q : ℝ → Prop} (same : ∀ x, P x ↔ Q x) :
    eigenvaluesWhere symm P = eigenvaluesWhere symm Q :=
  Nat.card_congr (Equiv.subtypeEquivRight fun _ => same _)

theorem eigenvaluesWhere_add {P Q R : ℝ → Prop} (parts : ∀ x, P x ↔ Q x ∨ R x)
    (apart : ∀ x, Q x → ¬R x) :
    eigenvaluesWhere symm P = eigenvaluesWhere symm Q + eigenvaluesWhere symm R := by
  classical
  rw [eigenvaluesWhere_congr symm parts]
  have disjoint : Disjoint (fun i => Q ((isHermitian_map symm).eigenvalues i))
      (fun i => R ((isHermitian_map symm).eigenvalues i)) :=
    Pi.disjoint_iff.2 fun i => Prop.disjoint_iff.2 fun h => apart _ h.1 h.2
  exact (Nat.card_congr (subtypeOrEquiv _ _ disjoint)).trans Nat.card_sum

theorem HasInertia.eigenvaluesWhere_moved {s : ℚ} (h : HasInertia (M + s • 1) p) :
    eigenvaluesWhere symm (fun x => x + s < 0) = p.negative ∧
      eigenvaluesWhere symm (fun x => x + s = 0) = p.zero := by
  have moved : (M + s • 1).map (Rat.castHom ℝ) =
      (M.map fun q : ℚ => (q : ℝ)) + (s : ℝ) • 1 := by
    rw [smul_one_eq_diagonal, smul_one_eq_diagonal, Matrix.map_add _ (map_add _),
      diagonal_map (map_zero _)]
    rfl
  have real := h.map (Rat.castHom ℝ) fun _ => Rat.cast_lt_zero
  rw [moved] at real
  obtain ⟨negative, zero⟩ := real.card_eigenvalues_add (isHermitian_map symm)
  rw [← negative, ← zero, ← Nat.card_eq_fintype_card, ← Nat.card_eq_fintype_card]
  exact ⟨rfl, rfl⟩

theorem HasInertia.eigenvaluesWhere_signs (h : HasInertia M p) :
    eigenvaluesWhere symm (· < 0) = p.negative ∧ eigenvaluesWhere symm (· = 0) = p.zero := by
  have exact : HasInertia (M + (0 : ℚ) • 1) p := by rwa [zero_smul, add_zero]
  simpa using exact.eigenvaluesWhere_moved symm

theorem HasInertiaUpTo.eigenvaluesWhere_signs (h : HasInertiaUpTo M t p) (nonneg : 0 ≤ t) :
    eigenvaluesWhere symm (· < -(t : ℝ)) = p.negative ∧
      eigenvaluesWhere symm (fun x => |x| ≤ t) = p.zero := by
  obtain ⟨low, high, below, above, negative, zero⟩ := h
  rw [sub_eq_add_neg, ← neg_smul] at above
  obtain ⟨less, -⟩ := below.eigenvaluesWhere_moved symm
  obtain ⟨less', equal⟩ := above.eigenvaluesWhere_moved symm
  push_cast at less' equal
  have nonneg : (0 : ℝ) ≤ t := Rat.cast_nonneg.2 nonneg
  have down : eigenvaluesWhere symm (fun x => x + (t : ℝ) < 0) =
      eigenvaluesWhere symm (· < -(t : ℝ)) :=
    eigenvaluesWhere_congr symm fun x => lt_neg_iff_add_neg.symm
  -- both counts of those that are not above `t`
  have up : eigenvaluesWhere symm (· ≤ (t : ℝ)) = _ + _ :=
    eigenvaluesWhere_add symm (Q := fun x => x + -(t : ℝ) < 0) (R := fun x => x + -(t : ℝ) = 0)
      (fun x => by grind) (fun x => by grind)
  have within : eigenvaluesWhere symm (· ≤ (t : ℝ)) = _ + _ :=
    eigenvaluesWhere_add symm (Q := (· < -(t : ℝ))) (R := fun x => |x| ≤ (t : ℝ))
      (fun x => by grind [abs_le]) (fun x => by grind [abs_le])
  omega

/-- **What is hidden.** Up to a magnitude, fewer eigenvalues count as negative and more count as zero
than there are: those that are not zero and of at most that magnitude. -/
theorem HasInertiaUpTo.hides (h : HasInertiaUpTo M t p) (nonneg : 0 ≤ t) (exact : HasInertia M q) :
    q.negative = p.negative + eigenvaluesWhere symm (fun x => x < 0 ∧ |x| ≤ t) ∧
      p.zero = q.zero + eigenvaluesWhere symm (fun x => x ≠ 0 ∧ |x| ≤ t) := by
  obtain ⟨below, within⟩ := h.eigenvaluesWhere_signs symm nonneg
  obtain ⟨negative, zero⟩ := exact.eigenvaluesWhere_signs symm
  have nonneg : (0 : ℝ) ≤ t := Rat.cast_nonneg.2 nonneg
  rw [← below, ← within, ← negative, ← zero]
  constructor
  · exact eigenvaluesWhere_add symm (fun x => by grind [abs_le]) (fun x => by grind [abs_le])
  · exact eigenvaluesWhere_add symm (fun x => by grind) (fun x => by grind)

end Rational

end SymSolve
