import SymSolve.Proofs.Engine.Reached
import SymSolve.Proofs.Engine.Record

/-!
# No stale factors

**Theorem (`solves_with_current_factors`).** Whatever a caller has done before, and whatever the
kernel did with its buffers while it factorized: when a call of the engine makes the kernel solve,
the kernel gets the words that its latest factorization left. That factorization was a success. It
was given the values that the matrix has now and the present pivot tolerance, and the number of
negative eigenvalues that it reported is the one the engine tells.

Conversely the factorization is called only if the engine had no current factors, or had them for
values with another tag.

All that is assumed of the kernel is that solving leaves the factors as they are.
-/

namespace SymSolve

open Engine

variable {α σ : Type} [RealScalar α] [Printable α] {k : Kernel α σ}

/-- A solve `s` with current factors of `A`, in a call that takes the engine from `e` to `e'` and
has called the kernel `earlier` already. -/
def UsesCurrentFactors (e e' : Engine α (Recorded α σ)) (A : SymTriplets α)
    (earlier : List (KernelCall α)) (s : SolveCall α) : Prop :=
  ∃ f result, latest? KernelCall.factorization? (e.calls ++ earlier) = some f ∧
    f.aAfter = s.a ∧ f.iwAfter = s.iw ∧
    f.result = .ok result ∧ result.verdict = .success ∧
    f.a.toList.take A.nonzeros = A.values ∧ f.controls.tolerance = e.tolerance ∧
    (e'.providesInertia → e'.negativeEigenvalues = .ok result.negative)

/-- **Kernels solve with current factors.** -/
theorem solves_with_current_factors (leaves : k.LeavesFactors) {w : World α (Recorded α σ)}
    (reached : w.Reached k) {A : SymTriplets α} (hA : A ∈ w.matrices)
    (rhs solutions : List (DenseVector α)) (demand : InertiaDemand) :
    let e' := (w.engine.multiSolve A.view rhs solutions demand).2
    ∃ new, e'.calls = w.engine.calls ++ new ∧
      (∀ earlier c later s, new = earlier ++ c :: later → c.solve? = some s →
        UsesCurrentFactors w.engine e' A earlier s) ∧
      ((∃ c ∈ new, c.factorization?.isSome) →
        w.engine.phase ≠ .factorized ∨ A.tag ≠ w.engine.matrixTag) := by
  intro e'
  have order := reached.inOrder
  cases used : w.engine.usageFault? A.view rhs solutions demand with
  | some cause =>
    simp only [e', multiSolve_of_rejected used]
    refine ⟨[], (List.append_nil _).symm, fun earlier c later s split => ?_, ?_⟩
    · simp at split
    · rintro ⟨c, hc, -⟩
      cases hc
  | none =>
    obtain ⟨prepares, solves, added, serves, rests⟩ := record_multiSolve order.sound
      (usageFault?_eq_none.1 used) A.length_values (order.knows_iff hA)
    refine ⟨_, added, fun earlier c later s split hs => ?_, ?_⟩
    · obtain ⟨hc, latest⟩ := Records.of_solve ⟨added, serves, rests⟩ split hs
      obtain ⟨_, f, negative, hs', found, made, left, late, noted⟩ := rests c hc
      obtain rfl := Option.some.inj (hs.symm.trans hs')
      obtain ⟨result, answered, success, rfl⟩ := made.success
      refine ⟨f, result, latest.trans found, (left leaves).1, (left leaves).2, answered, success, ?_, ?_,
        fun provides => negativeEigenvalues_eq_ok.2 ⟨provides, late, noted⟩⟩
      · rw [← A.values_length]
        exact (List.prefix_iff_eq_take.1 made.values).symm
      · rw [made.controls, ← order.tolerance]
        rfl
    · rintro ⟨c, hc, factorizes⟩
      by_contra current
      simp only [not_or, not_not] at current
      obtain ⟨late, same⟩ := current
      obtain ⟨only, added', areSolves⟩ := no_factorization_of_current order.sound.admits.1
        late (m := A.view) same rhs solutions demand
      rw [List.append_cancel_left (added.symm.trans added')] at hc
      have isSolve := areSolves c hc
      cases c <;> simp_all [KernelCall.factorization?, KernelCall.solve?]

/-- A caller who made the matrix with the entry 2. -/
def firstWorld : World ℚ (Recorded ℚ (Script ℚ)) :=
  (World.start (scriptedEngine ⟨[], [], []⟩) ⟨0⟩).run [.ofTriplets 1 [0] [0] (some [2])]

theorem firstWorld_matrices : 0 < firstWorld.matrices.length := by decide +kernel

/-- That matrix. -/
def firstMatrix : SymTriplets ℚ := firstWorld.matrices.get ⟨0, firstWorld_matrices⟩

/-- The engine after the first call. -/
def afterFirst : Engine ℚ (Recorded ℚ (Script ℚ)) :=
  (firstWorld.engine.multiSolve firstMatrix.view [⟨[1]⟩] [⟨[0]⟩] none).2

theorem solves_with_current_factors_first :
    firstMatrix.values = [2] ∧ ∃ earlier c s, afterFirst.calls = earlier ++ [c] ∧
      c.solve? = some s ∧ UsesCurrentFactors firstWorld.engine afterFirst firstMatrix earlier s := by
  refine ⟨by decide +kernel, ?_⟩
  obtain ⟨new, added, solves, -⟩ := solves_with_current_factors (w := firstWorld)
    scripted_leavesFactors (reached_scripted _ _) (List.get_mem _ ⟨0, firstWorld_matrices⟩)
    [⟨[1]⟩] [⟨[0]⟩] none
  have before : firstWorld.engine.calls = [] := List.eq_nil_of_length_eq_zero (by decide +kernel)
  have kinds : (afterFirst.calls.map fun c => c.solve?.isSome) = [false, false, true] := by
    decide +kernel
  have same : afterFirst.calls = new := added.trans (by rw [before, List.nil_append])
  rw [same] at kinds ⊢
  obtain ⟨c₁, c₂, c, rfl⟩ := List.length_eq_three.1 (by simpa using congrArg List.length kinds)
  simp only [List.map_cons, List.map_nil, List.cons.injEq, and_true] at kinds
  obtain ⟨s, hs⟩ := Option.isSome_iff_exists.1 kinds.2.2
  exact ⟨[c₁, c₂], c, s, rfl, hs, solves [c₁, c₂] c [] s rfl hs⟩

end SymSolve
