import Mathlib.Data.Sign.Basic
import SymSolve.Proofs.Ldl.Inertia
import SymSolve.Proofs.Ldl.Regular

/-!
# Pivots do not change the inertia

**Theorem (`pivots_keep_inertia`).** Whatever the threshold and the ordering, the blocks of the factors
have equally many negative, zero and positive signs, where a pair counts as one negative and one
positive sign, and as many are negative as the largest dimension of a subspace on which the form of
the table is negative definite.

Two runs need not have a pivot in common. What they share is the table: it has the inertia of either
block diagonal, and it has only one. The signs of a block are told by its determinant, which is
negative for every pair that an elimination takes.
-/

namespace SymSolve

open Matrix

variable {K : Type} [Field K] [LinearOrder K] {n : Nat}

/-! ## Signs of blocks -/

/-- The signs of the eigenvalues of a block: a pair has one of each. -/
def Block.signs : Block K → List SignType
  | one a => [SignType.sign a]
  | two _ _ _ => [-1, 1]

/-- Every pair has a negative determinant, and its rows are coupled. -/
def Indefinite (blocks : List (Block K)) : Prop :=
  ∀ a b c, Block.two a b c ∈ blocks → b ≠ 0 ∧ a * c - b * b < 0

theorem Indefinite.tail {block : Block K} {blocks : List (Block K)}
    (h : Indefinite (block :: blocks)) : Indefinite blocks :=
  fun a b c member => h a b c (List.mem_cons_of_mem _ member)

theorem count_signs (signs : List SignType) :
    signs.count (-1) + signs.count 0 + signs.count 1 = signs.length := by
  induction signs with
  | nil => rfl
  | cons s signs ih => cases s <;> simp <;> omega

variable [FloorRing K]

/-- The signs of the eigenvalues of `D`, block by block. -/
def Ldl.signs (F : Ldl n K) : List SignType := F.blocks.flatMap Block.signs

variable [IsStrictOrderedRing K]

theorem Block.inertia_zero {block : Block K} {blocks : List (Block K)}
    (h : Indefinite (block :: blocks)) :
    block.inertia 0 = ⟨block.signs.count (-1), block.signs.count 0⟩ := by
  cases block with
  | one a =>
    rcases lt_trichotomy a 0 with negative | rfl | positive
    · simp [inertia, signs, negative, negative.ne]
    · simp [inertia, signs]
    · simp [inertia, signs, positive, positive.ne', positive.le]
  | two a b c =>
    obtain ⟨coupled, indefinite⟩ := h a b c List.mem_cons_self
    have told := (hasInertiaUpTo_two le_rfl coupled).hasInertia.unique (hasInertia_pair a b c)
    simp only [told, pairSigns, Scalar.lt_iff, indefinite, if_true, signs]
    decide

/-- With a cutoff of zero the signs of the blocks are counted. -/
theorem Inertia.total_zero {blocks : List (Block K)} (h : Indefinite blocks) :
    total 0 blocks = ⟨(blocks.flatMap Block.signs).count (-1), (blocks.flatMap Block.signs).count 0⟩ := by
  induction blocks with
  | nil => rfl
  | cons block blocks ih =>
    rw [total_cons, ih h.tail, Block.inertia_zero h, List.flatMap_cons, List.count_append,
      List.count_append]
    rfl

namespace Ldl

/-! ## Blocks of factors -/

omit [IsStrictOrderedRing K]

/-- A pair among the blocks is one along the diagonal. -/
theorem pair_of_mem {diagonal coupling : Vector K n}
    (separate : ∀ i j : Fin n, j.val = i.val + 1 → coupling.get i = 0 ∨ coupling.get j = 0) :
    ∀ a b c, Block.two a b c ∈ blocksOf diagonal.toList coupling.toList →
      b ≠ 0 ∧ ∃ i j : Fin n, j.val = i.val + 1 ∧ diagonal.get i = a ∧ coupling.get i = b ∧
        diagonal.get j = c := by
  refine blocks_induction (motive := fun n diagonal coupling blocks =>
    ∀ a b c, Block.two a b c ∈ blocks → b ≠ 0 ∧ ∃ i j : Fin n, j.val = i.val + 1 ∧
      diagonal.get i = a ∧ coupling.get i = b ∧ diagonal.get j = c)
    ?none ?last ?one ?two diagonal coupling separate
  case none =>
    intro a b c member
    cases member
  case last =>
    intro d e a b c member
    simp at member
  case one =>
    intro n d diagonal coupling blocks rest a b c member
    obtain ⟨coupled, i, j, next, words⟩ := rest a b c (by simpa using member)
    exact ⟨coupled, i.succ, j.succ, by simpa using next, by simpa using words⟩
  case two =>
    intro n d e f diagonal coupling blocks coupled rest a b c member
    rcases List.mem_cons.1 member with here | later
    · cases here
      exact ⟨coupled, leading, leading.succ, rfl, by simp, by simp, by simp⟩
    · obtain ⟨coupled', i, j, next, words⟩ := rest a b c later
      exact ⟨coupled', i.succ.succ, j.succ.succ, by simpa using next, by simpa using words⟩

theorem length_signs {diagonal coupling : Vector K n}
    (separate : ∀ i j : Fin n, j.val = i.val + 1 → coupling.get i = 0 ∨ coupling.get j = 0) :
    ((blocksOf diagonal.toList coupling.toList).flatMap Block.signs).length = n := by
  refine blocks_induction (motive := fun n _ _ blocks => (blocks.flatMap Block.signs).length = n)
    ?none ?last ?one ?two diagonal coupling separate
  case none => rfl
  case last =>
    intro a b
    rfl
  case one =>
    intro n a diagonal coupling blocks rest
    rw [List.flatMap_cons, List.length_append, rest, Nat.add_comm]
    rfl
  case two =>
    intro n a b c diagonal coupling blocks coupled rest
    rw [List.flatMap_cons, List.length_append, rest, Nat.add_comm]
    rfl

variable [IsStrictOrderedRing K]

theorem Factorizes.indefinite {F : Ldl n K} {A : Dense n K} (h : F.Factorizes A)
    (regular : F.Regular) : Indefinite F.blocks := by
  intro a b c member
  obtain ⟨coupled, i, j, next, rfl, rfl, rfl⟩ := pair_of_mem h.separate a b c member
  exact ⟨coupled, sub_neg.2 (regular.indefinite i j ⟨next, coupled⟩)⟩

/-- A run with any threshold and any ordering finds factors, and the table has the inertia that the
signs of their blocks tell. -/
theorem exists_factors {A : Dense n K} (symmetric : A.Symmetric) (threshold : K)
    {order : Vector (Fin n) n} (distinct : Function.Injective order.get) :
    ∃ F, ofTable? threshold (A.select order) = some F ∧ Indefinite F.blocks ∧ F.signs.length = n ∧
      F.inertia 0 = ⟨F.signs.count (-1), F.signs.count 0⟩ ∧ HasInertia F.middle (F.inertia 0) ∧
      HasInertia A.toMatrix (F.inertia 0) := by
  obtain ⟨nonneg, least⟩ := boundOf_mem threshold
  obtain ⟨F, found, regular⟩ := exists_factor? nonneg least (symmetric.select order)
  have factorizes := factor?_factorizes (symmetric.select order) found
  have indefinite := factorizes.indefinite regular
  have middle : HasInertia F.middle (F.inertia 0) := (factorizes.middle_inertia le_rfl).hasInertia
  have permuted := factorizes.hasInertia middle
  rw [Dense.toMatrix_select] at permuted
  exact ⟨F, found, indefinite, length_signs factorizes.separate, Inertia.total_zero indefinite, middle,
    permuted.of_submatrix distinct⟩

end Ldl

/-- **Pivots do not change the inertia.** For every threshold and every ordering there are factors whose
blocks have equally many signs of each kind. They are those of the eigenvalues of the block diagonal,
and the negative ones tell on how large a subspace the form of the table is negative definite. -/
theorem pivots_keep_inertia {A : Dense n K} (symmetric : A.Symmetric) :
    ∃ count : SignType → Nat,
      (∀ (threshold : K) (order : Vector (Fin n) n), Function.Injective order.get →
        ∃ F, Ldl.ofTable? threshold (A.select order) = some F ∧
          (∀ s, F.signs.count s = count s) ∧
          (∀ a b c, .two a b c ∈ F.blocks → a * c - b * b < 0) ∧
          F.inertia 0 = ⟨count (-1), count 0⟩ ∧
          HasInertia F.middle ⟨count (-1), count 0⟩) ∧
      IsGreatest {d | NegativeOn A.toMatrix d} (count (-1)) := by
  have identity : Function.Injective (Vector.ofFn (id : Fin n → Fin n)).get := fun i j same => by
    simpa using same
  obtain ⟨F, -, -, all, told, -, table⟩ := Ldl.exists_factors symmetric 0 identity
  refine ⟨F.signs.count, ?_, ?_⟩
  · intro threshold order distinct
    obtain ⟨G, found, indefinite, all', told', middle, table'⟩ :=
      Ldl.exists_factors symmetric threshold distinct
    -- both runs tell the inertia of the table
    have same := table'.unique table
    rw [told, told', Inertia.mk.injEq] at same
    obtain ⟨negative, zero⟩ := same
    have counts := count_signs F.signs
    have counts' := count_signs G.signs
    refine ⟨G, found, ?_, fun a b c member => (indefinite a b c member).2, ?_, ?_⟩
    · intro s
      cases s with
      | neg => exact negative
      | zero => exact zero
      | pos =>
        show G.signs.count 1 = F.signs.count 1
        omega
    · rw [told', negative, zero]
    · show HasInertia G.middle ⟨F.signs.count (-1), F.signs.count 0⟩
      rwa [← negative, ← zero, ← told']
  · have greatest := table.isGreatest
    rwa [told] at greatest

theorem pivots_keep_inertia_hollow : Dense.hollow.Symmetric ∧
    Function.Injective (#v[2, 0, 1] : Vector (Fin 3) 3).get ∧
    IsGreatest {d | NegativeOn Dense.hollow.toMatrix d} 1 := by
  have symmetric : Dense.hollow.Symmetric := by
    unfold Dense.Symmetric
    decide +kernel
  have distinct : Function.Injective (#v[2, 0, 1] : Vector (Fin 3) 3).get := by
    decide
  obtain ⟨count, runs, greatest⟩ := pivots_keep_inertia symmetric
  obtain ⟨F, found, signs, -⟩ := runs 3 #v[2, 0, 1] distinct
  have told : (Ldl.ofTable? 3 (Dense.hollow.select #v[2, 0, 1])).map
      (fun F => F.signs.count (-1)) = some 1 := by decide +kernel
  rw [found, Option.map_some, signs] at told
  exact ⟨symmetric, distinct, Option.some.inj told ▸ greatest⟩

end SymSolve
