import SymSolve.Proofs.Ldl.Inertia
import SymSolve.Proofs.Ldl.Regular

/-!
# Growth of the entries during elimination

**Theorem (`growth_is_bounded`).** For every symmetric table and every positive threshold, with `α`
the smaller of the threshold and one half, a pass of the elimination leaves a table whose largest
entry is at most `1 + max (1 / α) (2 / (1 - α))` times the largest entry before the pass. So the
block that pass `p` writes has entries of at most the `p`-th power of that factor times the largest
entry of the table.

What is subtracted from an entry of the table is bounded by the tests that the pivot has passed and
those it has failed (`Pivot.Accepts`). With `λ` the largest entry below the first, `σ` its rival and
`M` the largest entry of all:

* one row, with pivot `p`, subtracts `x y / p` where `x` and `y` stand in the column of the pivot.
  Each test that accepts a single row gives `α |x| |y| ≤ |p| M` (`Pivot.Accepts.outweighs`);
* two rows, with the diagonal `a`, `d` and the coupling `λ`, subtract what has the product with the
  determinant `a d - λ²` bounded by `2 (1 + α) σ λ²`. The tests that failed give `|a| σ ≤ α λ²` and
  `|d| ≤ α σ`, so that the determinant is at least `(1 - α²) λ²` (`abs_solved_le`).
-/

namespace SymSolve

variable {K : Type} [Field K] [LinearOrder K] [FloorRing K] {n : Nat}

/-! ## The largest entry -/

/-- A square table of any size. -/
structure Table (K : Type) where
  size : Nat
  table : Dense size K

/-- The largest absolute value of an entry. -/
def Dense.magnitude (A : Dense n K) : K := Scalar.maxAbs A.toList

/-- The entries of a block. -/
def Block.entries : Block K → List K
  | one a => [a]
  | two a b d => [a, b, b, d]

namespace Dense

variable [IsStrictOrderedRing K]

theorem magnitude_nonneg (A : Dense n K) : 0 ≤ A.magnitude := Scalar.maxAbs_nonneg _

omit [IsStrictOrderedRing K] in
theorem magnitude_le_iff {A : Dense n K} {bound : K} (nonneg : 0 ≤ bound) :
    A.magnitude ≤ bound ↔ ∀ i j, |A.get i j| ≤ bound := by
  rw [magnitude, Scalar.maxAbs_le_iff _ nonneg]
  constructor
  · intro h i j
    exact h _ (mem_toList.2 ⟨i, j, rfl⟩)
  · intro h a member
    obtain ⟨i, j, rfl⟩ := mem_toList.1 member
    exact h i j

theorem abs_get_le_magnitude (A : Dense n K) (i j : Fin n) : |A.get i j| ≤ A.magnitude :=
  (magnitude_le_iff A.magnitude_nonneg).1 le_rfl i j

end Dense

/-! ## One row -/

section Bounds

variable [IsStrictOrderedRing K] {bound : K} {A : Dense (n + 2) K}

namespace Pivot.Candidate

variable {r : Fin (n + 1)} {rival : K} (h : Candidate A r rival)

include h

omit [FloorRing K] in
theorem rival_nonneg : 0 ≤ rival := by
  obtain ⟨k, -, rfl⟩ := h.attained
  exact abs_nonneg _

theorem rival_le : rival ≤ A.magnitude := by
  obtain ⟨k, -, rfl⟩ := h.attained
  exact A.abs_get_le_magnitude ..

omit [FloorRing K] [IsStrictOrderedRing K] in
theorem below_of_ne {i : Fin (n + 2)} (later : i ≠ leading) :
    |A.get i leading| ≤ |A.get r.succ leading| := by
  cases i using leadingCases with
  | first => exact absurd rfl later
  | later i => exact h.below i

end Pivot.Candidate

/-- The entries in the column of a single pivot are small against the pivot. -/
theorem Pivot.Accepts.outweighs (nonneg : 0 ≤ bound) {r : Fin (n + 1)} {rival : K}
    {q : Fin (n + 2)} (candidate : Candidate A r rival)
    (accepts : Accepts bound A r rival (.single q)) {i j : Fin (n + 2)} (hi : i ≠ q) (hj : j ≠ q) :
    bound * (|A.get i q| * |A.get j q|) ≤ |A.get q q| * A.magnitude := by
  have product_le {x y s t : K} (hx : |x| ≤ s) (hy : |y| ≤ t) :
      bound * (|x| * |y|) ≤ bound * (s * t) :=
    mul_le_mul_of_nonneg_left (mul_le_mul hx hy (abs_nonneg y) ((abs_nonneg x).trans hx)) nonneg
  cases accepts with
  | direct accepted =>
    rcases accepted with none | ⟨-, large⟩
    · have zero : |A.get i leading| ≤ 0 := by simpa [none] using candidate.below_of_ne hi
      rw [le_antisymm zero (abs_nonneg _), zero_mul, mul_zero]
      exact mul_nonneg (abs_nonneg _) A.magnitude_nonneg
    · calc bound * (|A.get i leading| * |A.get j leading|)
          ≤ bound * (|A.get r.succ leading| * A.magnitude) :=
            product_le (candidate.below_of_ne hi) (A.abs_get_le_magnitude ..)
        _ = bound * |A.get r.succ leading| * A.magnitude := by ring
        _ ≤ |A.get leading leading| * A.magnitude :=
            mul_le_mul_of_nonneg_right large A.magnitude_nonneg
  | tested _ accepted =>
    calc bound * (|A.get i leading| * |A.get j leading|)
        ≤ bound * (|A.get r.succ leading| * |A.get r.succ leading|) :=
          product_le (candidate.below_of_ne hi) (candidate.below_of_ne hj)
      _ = bound * |A.get r.succ leading| * |A.get r.succ leading| := by ring
      _ ≤ |A.get leading leading| * rival := accepted
      _ ≤ |A.get leading leading| * A.magnitude :=
          mul_le_mul_of_nonneg_left candidate.rival_le (abs_nonneg _)
  | swapped _ accepted =>
    calc bound * (|A.get i r.succ| * |A.get j r.succ|)
        ≤ bound * (rival * A.magnitude) :=
          product_le (candidate.beside i hi) (A.abs_get_le_magnitude ..)
      _ = bound * rival * A.magnitude := by ring
      _ ≤ |A.get r.succ r.succ| * A.magnitude :=
          mul_le_mul_of_nonneg_right accepted A.magnitude_nonneg

/-- What one eliminated row subtracts. -/
theorem Pivot.abs_get_eliminate_le (positive : 0 < bound) {q : Fin (n + 2)}
    (chosen : choose bound A = .single q) (i j : Fin (n + 1)) :
    |(A.exchange leading q).eliminate.2.get i j| ≤ A.magnitude + 1 / bound * A.magnitude := by
  obtain ⟨r, rival, candidate, accepts⟩ := exists_accepts bound A
  rw [chosen] at accepts
  have moved (k l : Fin (n + 2)) : (A.exchange leading q).get k l = _ :=
    A.get_exchange leading q k l
  have zeros := zeros_of_exchange chosen
  obtain ⟨column, left⟩ := Dense.eliminate_spec zeros
  generalize (A.exchange leading q).eliminate = eliminated at column left
  generalize (A.exchange leading q) = B at moved zeros column left
  have subtracted : |eliminated.1.get i * B.get j.succ leading| ≤ 1 / bound * A.magnitude := by
    by_cases zero : B.get leading leading = 0
    · rw [zeros zero j, mul_zero, abs_zero]
      exact mul_nonneg (one_div_pos.2 positive).le A.magnitude_nonneg
    · have other (k : Fin (n + 1)) : exchange leading q k.succ ≠ q := fun same =>
        succ_ne_leading k (exchange_injective leading q (same.trans (exchange_left leading q).symm))
      have product := accepts.outweighs positive.le candidate (other i) (other j)
      simp only [moved, exchange_left] at column zero ⊢
      rw [column i, abs_mul] at product
      rw [abs_mul, one_div_mul_eq_div, le_div_iff₀ positive]
      refine le_of_mul_le_mul_left ?_ (abs_pos.2 zero)
      calc |A.get q q| * (|eliminated.1.get i| * |A.get (exchange leading q j.succ) q| * bound)
          = bound * (|eliminated.1.get i| * |A.get q q| *
              |A.get (exchange leading q j.succ) q|) := by ring
        _ ≤ |A.get q q| * A.magnitude := product
  calc |eliminated.2.get i j|
      = |B.get i.succ j.succ - eliminated.1.get i * B.get j.succ leading| := by
        rw [left, add_sub_cancel_right]
    _ ≤ |B.get i.succ j.succ| + |eliminated.1.get i * B.get j.succ leading| := abs_sub ..
    _ ≤ A.magnitude + 1 / bound * A.magnitude := by
        refine add_le_add ?_ subtracted
        rw [moved]
        exact A.abs_get_le_magnitude ..

/-! ## Two rows -/

section TwoRows

omit [FloorRing K]

variable {a d z s : K} (nonneg : 0 ≤ bound) (weak : |a| * s ≤ bound * |z| * |z|)
  (unfit : |d| ≤ bound * s)

include nonneg weak unfit

/-- A pair with a small diagonal has a large determinant. -/
theorem le_abs_determinant : (1 - bound) * (1 + bound) * (|z| * |z|) ≤ |a * d - z * z| := by
  have product : |a * d| ≤ bound * bound * (|z| * |z|) :=
    calc |a * d| = |a| * |d| := abs_mul ..
      _ ≤ |a| * (bound * s) := mul_le_mul_of_nonneg_left unfit (abs_nonneg a)
      _ = bound * (|a| * s) := by ring
      _ ≤ bound * (bound * |z| * |z|) := mul_le_mul_of_nonneg_left weak nonneg
      _ = bound * bound * (|z| * |z|) := by ring
  calc (1 - bound) * (1 + bound) * (|z| * |z|)
      = |z| * |z| - bound * bound * (|z| * |z|) := by ring
    _ ≤ |z| * |z| - |a * d| := sub_le_sub_left product _
    _ = |z * z| - |a * d| := by rw [abs_mul z z]
    _ ≤ |z * z - a * d| := abs_sub_abs_le_abs_sub ..
    _ = |a * d - z * z| := abs_sub_comm ..

variable {x y x' y' : K} (hx : |x| ≤ |z|) (hy : |y| ≤ s) (hx' : |x'| ≤ |z|) (hy' : |y'| ≤ s)

include hx hy hx' hy'

/-- What two rows subtract, times the determinant. The column of the first row has entries up to
`|z|`, that of the other row entries up to `s`. -/
theorem abs_solved_mul_le :
    |d * (x * x') - z * (y * x' + x * y') + a * (y * y')| ≤
      2 * (1 + bound) * s * (|z| * |z|) := by
  have rival : 0 ≤ s := (abs_nonneg y).trans hy
  have last : |d * (x * x')| ≤ bound * s * (|z| * |z|) := by
    rw [abs_mul, abs_mul]
    exact mul_le_mul unfit (mul_le_mul hx hx' (abs_nonneg _) (abs_nonneg z)) (by positivity)
      (mul_nonneg nonneg rival)
  have mixed : |z * (y * x' + x * y')| ≤ |z| * (s * |z| + |z| * s) := by
    rw [abs_mul]
    refine mul_le_mul_of_nonneg_left ((abs_add_le _ _).trans ?_) (abs_nonneg z)
    rw [abs_mul, abs_mul]
    exact add_le_add (mul_le_mul hy hx' (abs_nonneg _) rival)
      (mul_le_mul hx hy' (abs_nonneg _) (abs_nonneg z))
  have first : |a * (y * y')| ≤ bound * |z| * |z| * s :=
    calc |a * (y * y')| = |a| * (|y| * |y'|) := by rw [abs_mul, abs_mul]
      _ ≤ |a| * (s * s) :=
          mul_le_mul_of_nonneg_left (mul_le_mul hy hy' (abs_nonneg _) rival) (abs_nonneg a)
      _ = |a| * s * s := by ring
      _ ≤ bound * |z| * |z| * s := mul_le_mul_of_nonneg_right weak rival
  calc |d * (x * x') - z * (y * x' + x * y') + a * (y * y')|
      ≤ |d * (x * x')| + |z * (y * x' + x * y')| + |a * (y * y')| :=
        (abs_add_le _ _).trans (add_le_add_left (abs_sub _ _) _)
    _ ≤ bound * s * (|z| * |z|) + |z| * (s * |z| + |z| * s) + bound * |z| * |z| * s :=
        add_le_add (add_le_add last mixed) first
    _ = 2 * (1 + bound) * s * (|z| * |z|) := by ring

/-- What two rows subtract: `p` and `q` solve the pair for the entries `x` and `y` of a row. -/
theorem abs_solved_le (small : bound < 1) (coupled : z ≠ 0) {p q : K} (first : a * p + z * q = x)
    (second : z * p + d * q = y) : |p * x' + q * y'| ≤ 2 / (1 - bound) * s := by
  have size : 0 < |z| := abs_pos.2 coupled
  have solved : (a * d - z * z) * (p * x' + q * y') =
      d * (x * x') - z * (y * x' + x * y') + a * (y * y') := by
    rw [← first, ← second]
    ring
  have positive : 0 < (1 + bound) * (|z| * |z|) := mul_pos (by linarith) (mul_pos size size)
  rw [div_mul_eq_mul_div, le_div_iff₀ (by linarith)]
  refine le_of_mul_le_mul_left ?_ positive
  calc (1 + bound) * (|z| * |z|) * (|p * x' + q * y'| * (1 - bound))
      = (1 - bound) * (1 + bound) * (|z| * |z|) * |p * x' + q * y'| := by ring
    _ ≤ |a * d - z * z| * |p * x' + q * y'| :=
        mul_le_mul_of_nonneg_right (le_abs_determinant nonneg weak unfit) (abs_nonneg _)
    _ = |d * (x * x') - z * (y * x' + x * y') + a * (y * y')| := by rw [← abs_mul, solved]
    _ ≤ 2 * (1 + bound) * s * (|z| * |z|) := abs_solved_mul_le nonneg weak unfit hx hy hx' hy'
    _ = (1 + bound) * (|z| * |z|) * (2 * s) := by ring

end TwoRows

/-- What becomes of an entry when two rows are eliminated. -/
theorem Pivot.abs_get_eliminatePair?_le (nonneg : 0 ≤ bound) (small : bound < 1)
    (symmetric : A.Symmetric) {r : Fin (n + 1)} (chosen : choose bound A = .pair r)
    {multiplier : Vector (K × K) n} {rest : Dense n K}
    (eliminated : (A.exchange leading.succ r.succ).eliminatePair? = some (multiplier, rest))
    (i j : Fin n) : |rest.get i j| ≤ A.magnitude + 2 / (1 - bound) * A.magnitude := by
  obtain ⟨s, rival, candidate, accepts⟩ := exists_accepts bound A
  rw [chosen] at accepts
  have moved (k l : Fin (n + 2)) :
      (A.exchange leading.succ r.succ).get k l = _ := A.get_exchange leading.succ r.succ k l
  have front : exchange leading.succ r.succ leading = leading := by simp [exchange]
  have distinct := exchange_injective leading.succ r.succ
  obtain ⟨column, left⟩ := Dense.eliminatePair?_spec eliminated
  simp only [Dense.leadingPair, moved, front, exchange_left] at column left
  cases accepts with
  | paired coupled weak unfit =>
    have rival_nonneg := candidate.rival_nonneg
    have weak' : |A.get leading leading| * rival ≤
        bound * |A.get r.succ leading| * |A.get r.succ leading| := by
      rcases weak with zero | weak
      · rw [zero, abs_zero, zero_mul]
        positivity
      · exact weak.le
    have unfit' : |A.get r.succ r.succ| ≤ bound * rival := by
      by_cases zero : A.get r.succ r.succ = 0
      · rw [zero, abs_zero]
        exact mul_nonneg nonneg rival_nonneg
      · exact (unfit zero).le
    have column_le (k : Fin n) : |A.get (exchange leading.succ r.succ k.succ.succ) leading| ≤
        |A.get r.succ leading| := by
      refine candidate.below_of_ne ?_
      rw [← front]
      exact distinct.ne (succ_ne_leading _)
    have column_le' (k : Fin n) :
        |A.get (exchange leading.succ r.succ k.succ.succ) r.succ| ≤ rival := by
      refine candidate.beside _ ?_
      rw [← exchange_left leading.succ r.succ]
      exact distinct.ne fun same => succ_ne_leading k (Fin.succ_injective _ same)
    have first := (column i).1
    rw [symmetric leading r.succ] at first
    have subtracted := abs_solved_le nonneg weak' unfit' (column_le i) (column_le' i) (column_le j)
      (column_le' j) small coupled first (column i).2
    calc |rest.get i j| = |A.get (exchange leading.succ r.succ i.succ.succ)
          (exchange leading.succ r.succ j.succ.succ) - _| := by rw [left, add_sub_cancel_right]
      _ ≤ A.magnitude + 2 / (1 - bound) * rival :=
          (abs_sub _ _).trans (add_le_add (A.abs_get_le_magnitude ..) subtracted)
      _ ≤ A.magnitude + 2 / (1 - bound) * A.magnitude := by
          refine add_le_add_right (mul_le_mul_of_nonneg_left candidate.rival_le ?_) _
          exact div_nonneg zero_le_two (sub_pos.2 small).le

end Bounds

/-! ## Passes -/

namespace Ldl

/-- One pass of the elimination: the table it starts from, the block it writes and the table it
leaves. -/
inductive Pass (bound : K) : Table K → Block K → Table K → Prop
  | last (A : Dense 1 K) (rest : Dense 0 K) :
      Pass bound ⟨1, A⟩ (.one (A.get leading leading)) ⟨0, rest⟩
  | single {n : Nat} {A : Dense (n + 2) K} {r : Fin (n + 2)}
      (chosen : Pivot.choose bound A = .single r) :
      Pass bound ⟨n + 2, A⟩ (.one ((A.exchange leading r).get leading leading))
        ⟨n + 1, (A.exchange leading r).eliminate.2⟩
  | pair {n : Nat} {A : Dense (n + 2) K} {r : Fin (n + 1)} {multiplier : Vector (K × K) n}
      {rest : Dense n K} (chosen : Pivot.choose bound A = .pair r)
      (eliminated : (A.exchange leading.succ r.succ).eliminatePair? = some (multiplier, rest)) :
      Pass bound ⟨n + 2, A⟩
        (.two (A.exchange leading.succ r.succ).leadingPair.a
          (A.exchange leading.succ r.succ).leadingPair.c
          (A.exchange leading.succ r.succ).leadingPair.d) ⟨n, rest⟩

/-- All passes of the elimination, from a table until nothing is left: the blocks that are written
and the tables that are left, in this order. -/
inductive Passes (bound : K) : Table K → List (Block K) → List (Table K) → Prop
  | done (A : Dense 0 K) : Passes bound ⟨0, A⟩ [] []
  | pass {T T' : Table K} {block : Block K} {blocks : List (Block K)} {tables : List (Table K)}
      (first : Pass bound T block T') (later : Passes bound T' blocks tables) :
      Passes bound T (block :: blocks) (T' :: tables)

variable [IsStrictOrderedRing K] {bound : K}

/-- The blocks of the factors are those that the passes write. -/
theorem factor?_passes (nonneg : 0 ≤ bound) (least : bound ≤ 1) {A : Dense n K} {F : Ldl n K}
    (h : factor? bound A = some F) : ∃ tables, Passes bound ⟨n, A⟩ F.blocks tables := by
  fun_induction factor? bound A with
  | case1 A =>
    cases h
    exact ⟨_, .done A⟩
  | case2 A =>
    cases h
    exact ⟨_, .pass (.last A (Dense.zero 0)) (.done _)⟩
  | case3 n r multiplier rest A chosen B eliminated =>
    rename_i ih
    obtain ⟨G, found, rfl⟩ := Option.map_eq_some_iff.1 h
    obtain ⟨tables, later⟩ := ih found
    have left : B.eliminate.2 = rest := congrArg Prod.snd eliminated
    have first := Pass.single chosen
    rw [show (A.exchange leading r).eliminate.2 = rest from left] at first
    have blocks : (extend (exchange leading r) (B.get leading leading) multiplier G).blocks =
        .one (B.get leading leading) :: G.blocks := blocksOf_of_zero ..
    exact ⟨_, blocks ▸ Passes.pass first later⟩
  | case4 => cases h
  | case5 n r multiplier rest A chosen B eliminated =>
    rename_i ih
    obtain ⟨G, found, rfl⟩ := Option.map_eq_some_iff.1 h
    obtain ⟨tables, later⟩ := ih found
    have coupled : B.leadingPair.c ≠ 0 := (Pivot.solvable_of_choose nonneg least chosen).coupled
    have blocks : (extendPair (exchange leading.succ r.succ) B.leadingPair multiplier G).blocks =
        .two B.leadingPair.a B.leadingPair.c B.leadingPair.d :: G.blocks :=
      blocksOf_of_ne_zero _ _ coupled ..
    exact ⟨_, blocks ▸ Passes.pass (.pair chosen eliminated) later⟩

/-- The largest factor by which a pass multiplies the largest entry. -/
def growth (bound : K) : K := 1 + max (1 / bound) (2 / (1 - bound))

theorem growth_nonneg (positive : 0 < bound) : 0 ≤ growth bound :=
  add_nonneg zero_le_one (le_max_of_le_left (one_div_pos.2 positive).le)

theorem Pass.magnitude_le (positive : 0 < bound) (small : bound < 1) {T T' : Table K}
    {block : Block K} (pass : Pass bound T block T') (symmetric : T.table.Symmetric) :
    T'.table.Symmetric ∧ T'.table.magnitude ≤ growth bound * T.table.magnitude ∧
      ∀ x ∈ block.entries, |x| ≤ T.table.magnitude := by
  have nonneg := growth_nonneg positive
  have factor {t : K} (ht : t ≤ max (1 / bound) (2 / (1 - bound))) {m : K} (hm : 0 ≤ m) :
      m + t * m ≤ growth bound * m := by
    rw [growth, one_add_mul]
    exact add_le_add_right (mul_le_mul_of_nonneg_right ht hm) m
  cases pass with
  | last A rest =>
    refine ⟨fun i => i.elim0, ?_, ?_⟩
    · refine (Dense.magnitude_le_iff (mul_nonneg nonneg A.magnitude_nonneg)).2 fun i => i.elim0
    · simpa [Block.entries] using A.abs_get_le_magnitude leading leading
  | @single n A r chosen =>
    refine ⟨(symmetric.exchange leading r).eliminate (Pivot.zeros_of_exchange chosen), ?_, ?_⟩
    · refine (Dense.magnitude_le_iff (mul_nonneg nonneg A.magnitude_nonneg)).2 fun i j => ?_
      exact (Pivot.abs_get_eliminate_le positive chosen i j).trans
        (factor (le_max_left ..) A.magnitude_nonneg)
    · simpa [Block.entries, Dense.get_exchange] using A.abs_get_le_magnitude r r
  | @pair n A r multiplier rest chosen eliminated =>
    refine ⟨(symmetric.exchange leading.succ r.succ).eliminatePair? eliminated, ?_, ?_⟩
    · refine (Dense.magnitude_le_iff (mul_nonneg nonneg A.magnitude_nonneg)).2 fun i j => ?_
      exact (Pivot.abs_get_eliminatePair?_le positive.le small symmetric chosen eliminated i
        j).trans (factor (le_max_right ..) A.magnitude_nonneg)
    · intro x member
      have entry (i j : Fin (n + 2)) :
          |(A.exchange leading.succ r.succ).get i j| ≤ A.magnitude := by
        rw [Dense.get_exchange]
        exact A.abs_get_le_magnitude ..
      simp only [Block.entries, Dense.leadingPair, List.mem_cons, List.not_mem_nil,
        or_false] at member
      rcases member with rfl | rfl | rfl | rfl <;> exact entry ..

theorem Passes.magnitude_le (positive : 0 < bound) (small : bound < 1) {T : Table K}
    {blocks : List (Block K)} {tables : List (Table K)} (passes : Passes bound T blocks tables)
    (symmetric : T.table.Symmetric) :
    (T :: tables).IsChain (fun T T' => T'.table.magnitude ≤ growth bound * T.table.magnitude) ∧
      ∀ p block, blocks[p]? = some block →
        ∀ x ∈ block.entries, |x| ≤ growth bound ^ p * T.table.magnitude := by
  induction passes with
  | done A => exact ⟨.singleton _, by simp⟩
  | @pass T T' block blocks tables first later ih =>
    obtain ⟨symmetric', grown, entries⟩ := first.magnitude_le positive small symmetric
    obtain ⟨chain, powers⟩ := ih symmetric'
    refine ⟨.cons_cons grown chain, fun p b at_p x member => ?_⟩
    cases p with
    | zero =>
      cases at_p
      simpa using entries x member
    | succ p =>
      have nonneg : 0 ≤ growth bound ^ p := pow_nonneg (growth_nonneg positive) p
      calc |x| ≤ growth bound ^ p * T'.table.magnitude := powers p b at_p x member
        _ ≤ growth bound ^ p * (growth bound * T.table.magnitude) :=
            mul_le_mul_of_nonneg_left grown nonneg
        _ = growth bound ^ (p + 1) * T.table.magnitude := by ring

end Ldl

/-- **The growth of the entries is bounded.** A pass of the elimination multiplies the largest entry
of the table by at most `c`, and the entries of the block that pass `p` writes are at most the
`p`-th power of `c` times the largest entry of the table. -/
theorem growth_is_bounded [IsStrictOrderedRing K] {A : Dense n K} (symmetric : A.Symmetric)
    {threshold : K} (positive : 0 < threshold) :
    let α := min threshold (1 / 2)
    let c := 1 + max (1 / α) (2 / (1 - α))
    ∃ F tables, Ldl.ofTable? threshold A = some F ∧ Ldl.Passes α ⟨n, A⟩ F.blocks tables ∧
      (⟨n, A⟩ :: tables).IsChain (fun T T' => T'.table.magnitude ≤ c * T.table.magnitude) ∧
      ∀ p block, F.blocks[p]? = some block → ∀ x ∈ block.entries, |x| ≤ c ^ p * A.magnitude := by
  intro α c
  have bound : Ldl.boundOf threshold = α := by
    simp only [Ldl.boundOf, Ldl.strictest, Scalar.smaller_eq, Scalar.larger_eq,
      max_eq_left positive.le, one_add_one_eq_two, α]
  have pos : 0 < α := lt_min positive one_half_pos
  have small : α < 1 := (min_le_right ..).trans_lt one_half_lt_one
  obtain ⟨F, found, -⟩ := Ldl.exists_factor? pos.le small.le symmetric
  obtain ⟨tables, passes⟩ := Ldl.factor?_passes pos.le small.le found
  obtain ⟨chain, entries⟩ := passes.magnitude_le pos small symmetric
  exact ⟨F, tables, by rw [Ldl.ofTable?, bound, found], passes, chain, entries⟩

/-- The first pass takes the first row with the third, and the second pass the row in between. -/
theorem growth_is_bounded_hollow : Dense.hollow.Symmetric ∧ (0 : ℚ) < 3 ∧
    ∃ F tables, Ldl.ofTable? 3 Dense.hollow = some F ∧
      Ldl.Passes (1 / 2) ⟨3, Dense.hollow⟩ F.blocks tables ∧ F.blocks.length = 2 ∧
      (⟨3, Dense.hollow⟩ :: tables).IsChain
        (fun T T' => T'.table.magnitude ≤ 5 * T.table.magnitude) := by
  have symmetric : Dense.hollow.Symmetric := by
    unfold Dense.Symmetric
    decide +kernel
  have told : (Ldl.ofTable? 3 Dense.hollow).map (fun F => F.blocks.length) = some 2 := by
    decide +kernel
  have positive : (0 : ℚ) < 3 := by norm_num
  obtain ⟨F, tables, found, passes, chain, -⟩ := growth_is_bounded symmetric positive
  rw [found, Option.map_some] at told
  have half : min (3 : ℚ) (1 / 2) = 1 / 2 := by norm_num
  rw [half] at passes chain
  have five : 1 + max (1 / (1 / 2 : ℚ)) (2 / (1 - 1 / 2)) = 5 := by norm_num
  simp only [five] at chain
  exact ⟨symmetric, positive, F, tables, found, passes, Option.some.inj told, chain⟩

end SymSolve
