import SymSolve.Proofs.Ldl.Factor

/-!
# Every symmetric table has factors

**Theorem (`thresholds_factor_exactly`).** Whatever the threshold, a symmetric table has factors:
it is, with its rows and columns permuted, the product `L D Lᵀ`, and no step on the way divides
by zero. Singular tables are no exception.

Two rows are eliminated together only after three tests have failed. The first diagonal entry `a`
and the one of the other row, `d`, are then small against the largest entry `c` below the first:
with `σ` the largest other entry in the column of `c`,

* `|a| σ < β c²` and `|d| < β σ`, so `|a d| < β² c²`.

As `β` is at most one, `a d` is below `c²`: the pair can be solved, and its determinant is negative
(`Pivot.solvable_of_choose`). That no
division is by zero is said by exchanging the division: nothing changes with one that agrees where
the divisor is not zero (`factor?_dividing`).
-/

namespace SymSolve

open Matrix

variable {K : Type} [Field K] {n : Nat}

namespace Ldl

/-- Places `i` and `j` are the two of a block of size two. -/
def Paired (F : Ldl n K) (i j : Fin n) : Prop := j.val = i.val + 1 ∧ F.coupling.get i ≠ 0

/-- The factors are what the name says, and their product is the permuted table. -/
structure Exact (F : Ldl n K) (A : Dense n K) : Prop where
  /-- Every row stands in one place. -/
  placed : Function.Bijective F.perm.get
  triangular : ∀ i j, i < j → F.lower.get i j = 0
  unit : ∀ i, F.lower.get i i = 1
  symmetric : F.middle.IsSymm
  /-- Outside of its blocks `D` is zero. -/
  blocks : ∀ i j, F.middle i j ≠ 0 → i = j ∨ F.Paired i j ∨ F.Paired j i
  disjoint : ∀ i j k, F.Paired i j → ¬F.Paired j k
  /-- Inside of a block `L` is the identity. -/
  inside : ∀ i j, F.Paired i j → F.lower.get j i = 0
  regular : ∀ i j, F.Paired i j → F.middle i i * F.middle j j ≠ F.middle i j * F.middle j i
  product : A.toMatrix.submatrix F.perm.get F.perm.get =
    F.lower.toMatrix * F.middle * F.lower.toMatrixᵀ

theorem middle_isSymm (F : Ldl n K) : F.middle.IsSymm := by
  refine IsSymm.ext fun i j => ?_
  simp only [middle, tridiagonal, of_apply]
  split_ifs <;> first | rfl | omega | simp_all

theorem middle_self (F : Ldl n K) (i : Fin n) : F.middle i i = F.diagonal.get i := if_pos rfl

theorem middle_paired (F : Ldl n K) {i j : Fin n} (h : F.Paired i j) :
    F.middle j i = F.coupling.get i := by
  simp [middle, tridiagonal, Fin.ext_iff, h.1]

theorem paired_of_middle_ne_zero {F : Ldl n K} {i j : Fin n} (h : F.middle i j ≠ 0) :
    i = j ∨ F.Paired i j ∨ F.Paired j i := by
  simp only [middle, tridiagonal, of_apply] at h
  split_ifs at h with same below above
  · exact .inl same
  · exact .inr (.inr ⟨below, h⟩)
  · exact .inr (.inl ⟨above, h⟩)
  · exact absurd rfl h

/-- What is asked of each block of size two. -/
structure Regular [LinearOrder K] (F : Ldl n K) : Prop where
  inside : ∀ i j, F.Paired i j → F.lower.get j i = 0
  indefinite : ∀ i j, F.Paired i j →
    F.diagonal.get i * F.diagonal.get j < F.coupling.get i * F.coupling.get i

theorem Factorizes.exact [LinearOrder K] {F : Ldl n K} {A : Dense n K} (h : F.Factorizes A) (regular : F.Regular) :
    F.Exact A where
  placed := Finite.injective_iff_bijective.1 h.distinct
  triangular i j above := by simpa [above.ne] using h.unit i j above.le
  unit i := by simpa using h.unit i i le_rfl
  symmetric := F.middle_isSymm
  blocks _ _ := paired_of_middle_ne_zero
  disjoint i j _ first second := (h.separate i j first.1).elim first.2 second.2
  inside := regular.inside
  regular i j pair := by
    rw [F.middle_isSymm.apply j i, F.middle_paired pair, F.middle_self, F.middle_self]
    exact (regular.indefinite i j pair).ne
  product := h.submatrix_eq

/-! ## Putting factors together -/

variable [LinearOrder K] [FloorRing K]

theorem paired_extend {place : Fin (n + 1) → Fin (n + 1)} {pivot : K} {multiplier : Vector K n}
    {F : Ldl n K} {i j : Fin (n + 1)} (h : (extend place pivot multiplier F).Paired i j) :
    ∃ k l, i = k.succ ∧ j = l.succ ∧ F.Paired k l := by
  obtain ⟨next, coupled⟩ := h
  cases i using leadingCases with
  | first => simp [extend] at coupled
  | later i =>
    cases j using leadingCases with
    | first => simp at next
    | later j => exact ⟨i, j, rfl, rfl, by simpa using next, by simpa [extend] using coupled⟩

theorem Regular.extend {F : Ldl n K} (h : F.Regular) {place : Fin (n + 1) → Fin (n + 1)} {pivot : K}
    {multiplier : Vector K n} : (Ldl.extend place pivot multiplier F).Regular where
  inside i j pair := by
    obtain ⟨k, l, rfl, rfl, later⟩ := paired_extend pair
    simpa using h.inside k l later
  indefinite i j pair := by
    obtain ⟨k, l, rfl, rfl, later⟩ := paired_extend pair
    simpa [Ldl.extend] using h.indefinite k l later

theorem paired_extendPair {place : Fin (n + 2) → Fin (n + 2)} {p : Pair K}
    {multiplier : Vector (K × K) n} {F : Ldl n K} {i j : Fin (n + 2)}
    (h : (extendPair place p multiplier F).Paired i j) :
    (i = leading ∧ j = leading.succ) ∨ ∃ k l, i = k.succ.succ ∧ j = l.succ.succ ∧ F.Paired k l := by
  obtain ⟨next, coupled⟩ := h
  cases i using pairCases with
  | first => exact .inl ⟨rfl, Fin.ext (by simpa using next)⟩
  | second => simp [extendPair] at coupled
  | later i =>
    cases j using pairCases with
    | first => simp at next
    | second => simp at next
    | later j =>
      exact .inr ⟨i, j, rfl, rfl, by simpa using next, by simpa [extendPair] using coupled⟩

theorem Regular.extendPair {F : Ldl n K} (h : F.Regular) {place : Fin (n + 2) → Fin (n + 2)}
    {p : Pair K} {multiplier : Vector (K × K) n} (indefinite : p.a * p.d < p.c * p.c) :
    (Ldl.extendPair place p multiplier F).Regular where
  inside i j pair := by
    obtain ⟨rfl, rfl⟩ | ⟨k, l, rfl, rfl, later⟩ := paired_extendPair pair
    · simp
    · simpa using h.inside k l later
  indefinite i j pair := by
    obtain ⟨rfl, rfl⟩ | ⟨k, l, rfl, rfl, later⟩ := paired_extendPair pair
    · simpa [Ldl.extendPair] using indefinite
    · simpa [Ldl.extendPair] using h.indefinite k l later

end Ldl

/-! ## Two rows -/

variable [LinearOrder K]

/-- The determinant is negative, when the pair is symmetric, and both rows can be solved for. -/
structure Pair.Solvable (m : Pair K) : Prop where
  coupled : m.c ≠ 0
  indefinite : m.a * m.d < m.c * m.c

variable [FloorRing K] [IsStrictOrderedRing K]

omit [FloorRing K] in
/-- The three tests that fail before a pair is taken. -/
theorem mul_lt_of_tests {bound a c d rival : K} (nonneg : 0 ≤ bound) (least : bound ≤ 1)
    (coupled : 0 < |c|) (weak : a = 0 ∨ |a| * rival < bound * |c| * |c|)
    (unfit : d ≠ 0 → |d| < bound * rival) : a * d < c * c := by
  have square : 0 < c * c := mul_self_pos.2 (abs_pos.1 coupled)
  by_cases first : a = 0
  · simpa [first] using square
  by_cases last : d = 0
  · simpa [last] using square
  calc a * d ≤ |a| * |d| := (le_abs_self _).trans (abs_mul a d).le
    _ < |a| * (bound * rival) := mul_lt_mul_of_pos_left (unfit last) (abs_pos.2 first)
    _ = bound * (|a| * rival) := by ring
    _ ≤ bound * (bound * |c| * |c|) :=
        mul_le_mul_of_nonneg_left (weak.resolve_left first).le nonneg
    _ = bound * bound * (|c| * |c|) := by ring
    _ ≤ 1 * (|c| * |c|) :=
        mul_le_mul_of_nonneg_right (mul_le_one₀ least nonneg least) (mul_self_nonneg |c|)
    _ = c * c := by rw [one_mul, abs_mul_abs_self]

theorem Pivot.solvable_of_choose {bound : K} (nonneg : 0 ≤ bound) (least : bound ≤ 1)
    {A : Dense (n + 2) K} {r : Fin (n + 1)} (chosen : Pivot.choose bound A = .pair r) :
    (A.exchange leading.succ r.succ).leadingPair.Solvable := by
  have first : exchange leading.succ r.succ leading = leading := by simp [exchange]
  obtain ⟨s, rival, -, accepts⟩ := exists_accepts bound A
  rw [chosen] at accepts
  cases accepts with
  | paired coupled weak unfit =>
    have indefinite := mul_lt_of_tests nonneg least (abs_pos.2 coupled) weak unfit
    constructor <;> simp [Dense.leadingPair, Dense.get_exchange, first, coupled, indefinite]

theorem Pair.Solvable.isSingular_eq_false {m : Pair K} (h : m.Solvable) (symmetric : m.b = m.c) :
    m.isSingular = false := by
  have regular : m.a * m.d ≠ m.b * m.c := by simpa [symmetric] using h.indefinite.ne
  simp only [isSingular, Bool.or_eq_false_iff, Scalar.eq_eq_false_iff, lastPivot, ordered]
  by_cases leads : m.secondLeads = true
  · simp only [leads, if_true]
    have coupled := h.coupled
    refine ⟨coupled, fun last => regular ?_⟩
    field_simp at last
    linear_combination -last
  · simp only [leads, if_false, Bool.false_eq_true]
    have first : m.a ≠ 0 := fun zero => h.coupled (by simpa [secondLeads, zero] using leads)
    refine ⟨first, fun last => regular ?_⟩
    field_simp at last
    linear_combination last

/-! ## All passes -/

namespace Ldl

theorem exists_factor? {bound : K} (nonneg : 0 ≤ bound) (least : bound ≤ 1) {A : Dense n K}
    (symmetric : A.Symmetric) : ∃ F, factor? bound A = some F ∧ F.Regular := by
  fun_induction factor? bound A with
  | case1 A => exact ⟨_, rfl, fun i => i.elim0, fun i => i.elim0⟩
  | case2 A =>
    have alone (i j : Fin 1) : ¬Paired (ofEntry (A.get leading leading)) i j := fun pair => by
      have next := pair.1
      omega
    exact ⟨_, rfl, fun i j pair => absurd pair (alone i j), fun i j pair => absurd pair (alone i j)⟩
  | case3 n r multiplier rest A chosen B eliminated =>
    rename_i ih
    have symRest := (symmetric.exchange leading r).eliminate (Pivot.zeros_of_exchange chosen)
    rw [show (A.exchange leading r).eliminate = _ from eliminated] at symRest
    obtain ⟨G, found, regular⟩ := ih symRest
    exact ⟨_, by rw [found]; rfl, regular.extend⟩
  | case4 n r A chosen B failed =>
    have solvable := Pivot.solvable_of_choose nonneg least chosen
    have regular := solvable.isSingular_eq_false (symmetric.exchange leading.succ r.succ ..)
    simp [B, Dense.eliminatePair?, regular] at failed
  | case5 n r multiplier rest A chosen B eliminated =>
    rename_i ih
    have symB : B.Symmetric := symmetric.exchange leading.succ r.succ
    have solvable := Pivot.solvable_of_choose nonneg least chosen
    obtain ⟨G, found, regular⟩ := ih (symB.eliminatePair? eliminated)
    exact ⟨_, by rw [found]; rfl, regular.extendPair solvable.indefinite⟩

theorem boundOf_mem (threshold : K) : 0 ≤ boundOf threshold ∧ boundOf threshold ≤ 1 := by
  have half : (0 : K) ≤ 1 / (1 + 1) ∧ (1 : K) / (1 + 1) ≤ 1 := by constructor <;> norm_num
  simp only [boundOf, strictest, Scalar.smaller_eq, Scalar.larger_eq]
  exact ⟨le_min (le_max_right ..) half.1, (min_le_right ..).trans half.2⟩

end Ldl

/-! ## Another division -/

section Dividing

omit [IsStrictOrderedRing K]

/-- Exact arithmetic, with a division of one's own. -/
abbrev Scalar.dividing (div : K → K → K) : Scalar K := { instScalarExact with div }

variable {div : K → K → K} (agrees : ∀ a b, b ≠ 0 → div a b = a / b)

include agrees

theorem Dense.eliminate_dividing (A : Dense (n + 1) K) :
    @Dense.eliminate n K (Scalar.dividing div) A = A.eliminate := by
  show (if decide (A.get leading leading = 0) = true then (Vector.replicate n 0, A.trailing)
    else
      let multiplier := Vector.ofFn fun i => div (A.get i.succ leading) (A.get leading leading)
      (multiplier,
        ofFn fun i j => A.get i.succ j.succ - multiplier.get i * A.get j.succ leading)) = _
  by_cases zero : A.get leading leading = 0 <;> simp [eliminate, zero, agrees]

theorem Pair.lastPivot_dividing {m : Pair K} (first : m.ordered.a ≠ 0) :
    @Pair.lastPivot K (Scalar.dividing div) m = m.lastPivot :=
  congrArg (fun q => m.ordered.d - q * m.ordered.b) (agrees _ _ first)

theorem Pair.isSingular_dividing (m : Pair K) :
    @Pair.isSingular K (Scalar.dividing div) m = m.isSingular := by
  show (decide (m.ordered.a = 0) || decide (@Pair.lastPivot K (Scalar.dividing div) m = 0)) = _
  by_cases first : m.ordered.a = 0
  · simp [isSingular, first]
  · rw [lastPivot_dividing agrees first]
    rfl

theorem Pair.solve_dividing {m : Pair K} (regular : m.isSingular = false) (y z : K) :
    @Pair.solve K (Scalar.dividing div) m y z = m.solve y z := by
  simp only [isSingular, Bool.or_eq_false_iff, Scalar.eq_eq_false_iff] at regular
  have last := lastPivot_dividing agrees regular.1
  let rows := if m.secondLeads then (z, y) else (y, z)
  let second := div (rows.2 - div m.ordered.c m.ordered.a * rows.1)
    (@Pair.lastPivot K (Scalar.dividing div) m)
  show (div (rows.1 - m.ordered.b * second) m.ordered.a, second) = _
  simp only [second, last, agrees _ _ regular.1, agrees _ _ regular.2]
  rfl

theorem Dense.eliminatePair?_dividing (A : Dense (n + 2) K) :
    @Dense.eliminatePair? n K (Scalar.dividing div) A = A.eliminatePair? := by
  unfold Dense.eliminatePair?
  dsimp only
  rw [Pair.isSingular_dividing agrees]
  split
  · rfl
  · next regular =>
    have same (i : Fin n) := Pair.solve_dividing agrees (m := A.leadingPair)
      (by
        by_contra singular
        exact regular ⟨(Fin.pos i).ne', by simpa using singular⟩)
      (A.get i.succ.succ leading) (A.get i.succ.succ leading.succ)
    exact congrArg (fun multiplier : Vector (K × K) n => some (multiplier, ofFn fun i j =>
      A.get i.succ.succ j.succ.succ -
        ((multiplier.get i).1 * A.get j.succ.succ leading +
          (multiplier.get i).2 * A.get j.succ.succ leading.succ)))
      (congrArg Vector.ofFn (funext same))

theorem Ldl.factor?_dividing (bound : K) (A : Dense n K) :
    @Ldl.factor? K (Scalar.dividing div) bound n A = Ldl.factor? bound A := by
  fun_induction factor? bound A with
  | case1 A => rfl
  | case2 A => rfl
  | case3 n r multiplier rest A chosen B eliminated =>
    rename_i ih
    have chosen' : @Pivot.choose n K (Scalar.dividing div) bound A = .single r := chosen
    have eliminated' := (Dense.eliminate_dividing agrees B).trans eliminated
    rw [@factor?.eq_3 K (Scalar.dividing div), chosen']
    dsimp only
    rw [eliminated']
    exact congrArg _ ih
  | case4 n r A chosen B failed =>
    have chosen' : @Pivot.choose n K (Scalar.dividing div) bound A = .pair r := chosen
    have failed' := (Dense.eliminatePair?_dividing agrees B).trans failed
    rw [@factor?.eq_3 K (Scalar.dividing div), chosen']
    dsimp only
    rw [failed']
  | case5 n r multiplier rest A chosen B eliminated =>
    rename_i ih
    have chosen' : @Pivot.choose n K (Scalar.dividing div) bound A = .pair r := chosen
    have eliminated' := (Dense.eliminatePair?_dividing agrees B).trans eliminated
    rw [@factor?.eq_3 K (Scalar.dividing div), chosen']
    dsimp only
    rw [eliminated']
    exact congrArg (Option.map _) ih

theorem Ldl.ofTable?_dividing (threshold : K) (A : Dense n K) :
    @Ldl.ofTable? n K (Scalar.dividing div) threshold A = Ldl.ofTable? threshold A := by
  have half : div 1 (1 + 1) = 1 / (1 + 1) := agrees _ _ (by norm_num)
  have bound : @boundOf K (Scalar.dividing div) threshold = boundOf threshold :=
    congrArg (Scalar.smaller (Scalar.larger threshold 0)) half
  calc @Ldl.ofTable? n K (Scalar.dividing div) threshold A
      = @Ldl.factor? K (Scalar.dividing div) (boundOf threshold) n A :=
        congrArg (fun bound => @Ldl.factor? K (Scalar.dividing div) bound n A) bound
    _ = Ldl.factor? (boundOf threshold) A := factor?_dividing agrees ..

end Dividing

/-- Every symmetric table has exact factors, for every threshold, and what a division by zero
would give plays no part in them. -/
theorem thresholds_factor_exactly (threshold : K) {A : Dense n K} (symmetric : A.Symmetric) :
    (∃ F, Ldl.ofTable? threshold A = some F ∧ F.Exact A) ∧
      ∀ div : K → K → K, (∀ a b, b ≠ 0 → div a b = a / b) →
        @Ldl.ofTable? n K (Scalar.dividing div) threshold A = Ldl.ofTable? threshold A := by
  obtain ⟨nonneg, least⟩ := Ldl.boundOf_mem threshold
  obtain ⟨F, found, regular⟩ := Ldl.exists_factor? nonneg least symmetric
  refine ⟨⟨F, found, (Ldl.factor?_factorizes symmetric found).exact regular⟩, ?_⟩
  exact fun div agrees => Ldl.ofTable?_dividing agrees threshold A

/-- A singular table with zeros on its diagonal, and a threshold that cannot be met. -/
def Dense.hollow : Dense 3 ℚ := ⟨#v[#v[0, 1, 2], #v[1, 0, 0], #v[2, 0, 0]]⟩

theorem thresholds_factor_exactly_hollow : Dense.hollow.Symmetric ∧
    ((∃ F, Ldl.ofTable? 3 Dense.hollow = some F ∧ F.Exact Dense.hollow) ∧
      ∀ div : ℚ → ℚ → ℚ, (∀ a b, b ≠ 0 → div a b = a / b) →
        @Ldl.ofTable? 3 ℚ (Scalar.dividing div) 3 Dense.hollow = Ldl.ofTable? 3 Dense.hollow) := by
  have symmetric : Dense.hollow.Symmetric := by
    unfold Dense.Symmetric
    decide +kernel
  exact ⟨symmetric, thresholds_factor_exactly 3 symmetric⟩

end SymSolve
