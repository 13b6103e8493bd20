import SymSolve.Proofs.Engine.Reached
import SymSolve.Proofs.Kernel.Factors
import SymSolve.Proofs.Ldl.Eigenvalues

/-!
# Exact solutions

**Theorem (`solves_exactly`).** Over exact arithmetic, whatever a caller has done with an engine over
the reference kernel: a call that is a success solves the systems of its matrix, and if it was told
how many negative eigenvalues to expect, the matrix is nonsingular and has that many. All matrices
passed since the last reset must have the same positions; otherwise the engine works with those of
another matrix.

The captured positions are those of a matrix passed since the last reset (`InOrder.pattern_run`), and
the reference kernel meets its specification (`referenceSpec_met`), so a call from an engine that is
in order can be read off `multiSolve_sound`.
-/

namespace SymSolve

/-! ## The captured positions -/

namespace World

variable {α σ : Type} [RealScalar α] [Printable α] {spec : KernelSpec α σ} {w : World α σ}

/-- The matrix that an action passes to the engine, if it passes one. -/
def passed? (w : World α σ) : Action α → Option (SymTriplets α)
  | .multiSolve place _ _ _ => w.matrices[place]?
  | _ => none

/-- The matrix is passed to the engine in a run, and no later action resets the structure. -/
def PassedSinceReset (w : World α σ) (actions : List (Action α)) (A : SymTriplets α) : Prop :=
  ∃ before action since, actions = before ++ action :: since ∧
    (w.run before).passed? action = some A ∧ .resetStructure ∉ since

theorem PassedSinceReset.concat {actions : List (Action α)} {A : SymTriplets α}
    (h : w.PassedSinceReset actions A) {action : Action α} (other : action ≠ .resetStructure) :
    w.PassedSinceReset (actions ++ [action]) A := by
  obtain ⟨before, first, since, rfl, passed, kept⟩ := h
  refine ⟨before, first, since ++ [action], by simp, passed, fun reset => ?_⟩
  rcases List.mem_append.1 reset with reset | reset
  · exact kept reset
  · exact other (List.mem_singleton.1 reset).symm

theorem structure_increaseQuality (e : Engine α σ) :
    let e' := (e.exec Engine.increaseQuality).2
    e'.pattern = e.pattern ∧ (e'.phase = .uninitialized ↔ e.phase = .uninitialized) := by
  have stale (p : Phase) : p.stale = .uninitialized ↔ p = .uninitialized := by
    cases p <;> simp [Phase.stale]
  rcases e.exec_increaseQuality_cases with same | ⟨tolerance, diagnostics, raised⟩
  · simp only [same, and_self]
  · simp only [raised, stale, and_self]

/-- A structure was captured before an action that does not reset it, and the action keeps its
positions. -/
def KeepsPattern (w : World α σ) (action : Action α) : Prop :=
  action ≠ .resetStructure ∧ w.engine.phase ≠ .uninitialized ∧
    (w.step action).engine.pattern = w.engine.pattern

theorem keepsPattern_of_engine {action : Action α} (other : action ≠ .resetStructure)
    (same : (w.step action).engine = w.engine)
    (captured : (w.step action).engine.phase ≠ .uninitialized) : w.KeepsPattern action := by
  rw [same] at captured
  exact ⟨other, captured, congrArg Engine.pattern same⟩

/-- After an action there is no structure, or the positions are those of the matrix that the action
passes, or the action keeps them. -/
theorem InOrder.pattern_step (h : w.InOrder spec) (met : spec.Met) (action : Action α)
    (captured : (w.step action).engine.phase ≠ .uninitialized) :
    (∃ A, w.passed? action = some A ∧ (w.step action).engine.pattern = .ofView A.view) ∨
      w.KeepsPattern action := by
  cases action with
  | ofTriplets dim rows cols values =>
    exact .inr (keepsPattern_of_engine nofun (w.engine_adopt _) captured)
  | ofSparse A => exact .inr (keepsPattern_of_engine nofun (w.engine_adopt _) captured)
  | ofTable table => exact .inr (keepsPattern_of_engine nofun (w.engine_adopt _) captured)
  | drawTag => exact .inr (keepsPattern_of_engine nofun rfl captured)
  | setValues place values =>
    exact .inr (keepsPattern_of_engine nofun (w.engine_revise ..) captured)
  | resetStructure => exact absurd rfl captured
  | increaseQuality =>
    obtain ⟨pattern, phase⟩ := structure_increaseQuality w.engine
    exact .inr ⟨nofun, fun new => captured (phase.2 new), pattern⟩
  | multiSolve place rhs solutions demand =>
    cases found : w.matrices[place]? with
    | none =>
      have same : w.step (.multiSolve place rhs solutions demand) = w := by
        simp only [World.step, World.multiSolve, found]
      exact .inr (keepsPattern_of_engine nofun (congrArg engine same) captured)
    | some A =>
      have stepped : (w.step (.multiSolve place rhs solutions demand)).engine =
          (w.engine.multiSolve A.view rhs solutions demand).2 := by
        simp only [World.step, World.multiSolve, found]
      cases used : w.engine.usageFault? A.view rhs solutions demand with
      | some cause =>
        rw [Engine.multiSolve_of_rejected used] at stepped
        exact .inr (keepsPattern_of_engine nofun stepped captured)
      | none =>
        obtain ⟨-, steady, -⟩ := Engine.multiSolve_sound h.sound
          (Engine.usageFault?_eq_none.1 used) (met.factorizes _ _) met.backsolves A.length_values
          (h.knows_iff (List.mem_of_getElem? found))
        rw [← stepped] at steady
        by_cases new : w.engine.phase = .uninitialized
        · exact .inl ⟨A, found, steady.pattern.trans ((Engine.pattern_captured_iff ..).2 (.inl new))⟩
        · refine .inr ⟨nofun, new, steady.pattern.trans ?_⟩
          rw [Engine.captured, Engine.captureIfNew_of_ne (e := w.engine.beginCall) new]
          rfl

/-- **The captured positions** are those of a matrix that was passed since the last reset. -/
theorem InOrder.pattern_run (h : w.InOrder spec) (met : spec.Met)
    (new : w.engine.phase = .uninitialized) (actions : List (Action α))
    (captured : (w.run actions).engine.phase ≠ .uninitialized) :
    ∃ A, w.PassedSinceReset actions A ∧ (w.run actions).engine.pattern = .ofView A.view := by
  induction actions using List.reverseRecOn with
  | nil => exact absurd new captured
  | append_singleton actions action ih =>
    rw [run_concat] at captured ⊢
    rcases (h.run met actions).pattern_step met action captured with
      ⟨A, passed, own⟩ | ⟨other, before, kept⟩
    · exact ⟨A, ⟨actions, action, [], rfl, passed, List.not_mem_nil⟩, own⟩
    · obtain ⟨A, since, own⟩ := ih before
      exact ⟨A, since.concat other, kept.trans own⟩

end World

/-! ## Systems and signs -/

section Exact

variable {K : Type} [Field K] [LinearOrder K] [IsStrictOrderedRing K] [FloorRing K]

/-- A successful call from a world that is in order, with a matrix whose positions the engine has
or captures. -/
theorem World.InOrder.solves_of_success {w : World K Unit} (h : w.InOrder referenceSpec)
    {A : SymTriplets K} (hA : A ∈ w.matrices)
    (own : w.engine.phase = .uninitialized ∨ w.engine.pattern = .ofView A.view)
    {rhs solutions : List (DenseVector K)} {demand : InertiaDemand}
    (success : (w.engine.multiSolve A.view rhs solutions demand).1.result = .ok .success) :
    List.Forall₂ (fun b x => A.toDense.Solves b.entries x.entries) rhs
        (w.engine.multiSolve A.view rhs solutions demand).1.solutions ∧
      ∀ expected, demand = some expected →
        ∃ k : Nat, Signs A.toDense.toMatrix k ∧ expected = k := by
  have captured := (Engine.pattern_captured_iff A.view w.engine).2 own
  obtain ⟨-, steady, right⟩ := Engine.multiSolve_sound h.sound
    (Engine.usageFault?_eq_none.1 (Engine.accepted_of_ok success)) (referenceSpec_met.factorizes _ _)
    referenceSpec_met.backsolves A.length_values (h.knows_iff hA)
  obtain ⟨⟨-, -, negative, noted, words, front, factored⟩, demanded, solved⟩ := right success
  rw [steady.pattern, captured] at factored
  rw [captured] at solved
  constructor
  · refine solved.imp fun b x hx => ?_
    obtain ⟨words, front, solves⟩ := hx
    exact A.matrix_ofView front ▸ solves
  · intro expected told
    obtain ⟨k, signs, counted⟩ := factored.signs
    have same : expected = negative := Option.some.inj ((demanded expected told).symm.trans noted)
    exact ⟨k, A.matrix_ofView front ▸ signs, same.trans counted⟩

end Exact

namespace SymTriplets

theorem toDense_symmetric {K : Type} [Field K] [LinearOrder K] [FloorRing K] (A : SymTriplets K) :
    A.toDense.Symmetric := by
  rw [← A.matrix_ofView List.prefix_rfl]
  exact Reference.assemble_symmetric _

/-- The matrix that is denoted, over the real numbers. -/
noncomputable def realMatrix (A : SymTriplets ℚ) : Matrix (Fin A.dim) (Fin A.dim) ℝ :=
  A.toDense.toMatrix.map (Rat.castHom ℝ)

theorem realMatrix_isHermitian (A : SymTriplets ℚ) : A.realMatrix.IsHermitian :=
  Matrix.IsHermitian.ext fun i j => congrArg (Rat.castHom ℝ) (A.toDense_symmetric j i)

/-- How many eigenvalues are negative, each counted as often as it occurs. -/
noncomputable def negativeEigenvalues (A : SymTriplets ℚ) : Nat :=
  Fintype.card {i // A.realMatrix_isHermitian.eigenvalues i < 0}

theorem negativeEigenvalues_of_signs {A : SymTriplets ℚ} {k : Nat} (h : Signs A.toDense.toMatrix k) :
    A.negativeEigenvalues = k :=
  (h.map (Rat.castHom ℝ) fun _ => Rat.cast_lt_zero).card_eigenvalues A.realMatrix_isHermitian

end SymTriplets

/-- **Exact solutions.** -/
theorem solves_exactly [Powers ℚ] [Printable ℚ] {memory : Memory} {options : Options ℚ}
    {solverId : String} {providesInertia : Bool} {e : Engine ℚ Unit}
    (created : Engine.create memory options Reference.kernel () solverId providesInertia = .ok e)
    (tags : TagSource) (actions : List (Action ℚ)) {A : SymTriplets ℚ}
    (hA : A ∈ ((World.start e tags).run actions).matrices)
    (uniform : ∀ B, (World.start e tags).PassedSinceReset actions B →
      Pattern.ofView B.view = .ofView A.view)
    {rhs solutions : List (DenseVector ℚ)} {demand : InertiaDemand}
    (success : (((World.start e tags).run actions).engine.multiSolve A.view rhs solutions
      demand).1.result = .ok .success) :
    List.Forall₂ (fun b x => A.toDense.Solves b.entries x.entries) rhs
        (((World.start e tags).run actions).engine.multiSolve A.view rhs solutions
          demand).1.solutions ∧
      ∀ expected, demand = some expected →
        A.toDense.toMatrix.det ≠ 0 ∧ (A.negativeEigenvalues : Int) = expected := by
  have begun : (World.start e tags).InOrder referenceSpec :=
    World.inOrder_start created tags (World.new_of_create created).1
  have own : ((World.start e tags).run actions).engine.phase = .uninitialized ∨
      ((World.start e tags).run actions).engine.pattern = .ofView A.view := by
    by_contra other
    rw [not_or] at other
    obtain ⟨B, passed, positions⟩ := begun.pattern_run referenceSpec_met
      (World.new_of_create created).2 actions other.1
    exact other.2 (positions.trans (uniform B passed))
  obtain ⟨solved, told⟩ := (begun.run referenceSpec_met actions).solves_of_success hA own success
  refine ⟨solved, fun expected demanded => ?_⟩
  obtain ⟨k, signs, rfl⟩ := told expected demanded
  exact ⟨signs.det_ne_zero, congrArg Nat.cast (SymTriplets.negativeEigenvalues_of_signs signs)⟩

/-! ## A solve with a negative matrix -/

/-- A caller solves with the matrix that has the entry 2, and then replaces it by -2. -/
def negation : List (Action ℚ) :=
  [.ofTriplets 1 [0] [0] (some [2]), .multiSolve 0 [⟨[1]⟩] [⟨[0]⟩] (some 0), .setValues 0 [-2]]

/-- The world of that caller at first. -/
def unusedWorld : World ℚ Unit := World.start (exactEngine Reference.kernel ()) ⟨0⟩

theorem negated_matrices : 0 < (unusedWorld.run negation).matrices.length := by decide +kernel

/-- The matrix, as it is after that. -/
def negated : SymTriplets ℚ := (unusedWorld.run negation).matrices.get ⟨0, negated_matrices⟩

theorem passed_negated {A : SymTriplets ℚ} (passed : unusedWorld.PassedSinceReset negation A) :
    Pattern.ofView A.view = .ofView negated.view := by
  obtain ⟨before, action, since, split, passed, -⟩ := passed
  rcases before with _ | ⟨first, _ | ⟨second, _ | ⟨third, before⟩⟩⟩
  · cases split
    cases passed
  · cases split
    have shown : ((unusedWorld.run [.ofTriplets 1 [0] [0] (some [2])]).passed?
        (.multiSolve 0 [⟨[1]⟩] [⟨[0]⟩] (some 0))).map (fun A => Pattern.ofView A.view) =
          some (.ofView negated.view) := by decide +kernel
    rw [passed] at shown
    exact Option.some.inj shown
  · cases split
    cases passed
  · simp [negation] at split

theorem solves_exactly_negated :
    negated.toDense.Solves [1] [-1 / 2] ∧ negated.toDense.toMatrix.det ≠ 0 ∧
      negated.negativeEigenvalues = 1 := by
  have success : ((unusedWorld.run negation).engine.multiSolve negated.view [⟨[1]⟩] [⟨[0]⟩]
      (some 1)).1.result = .ok .success := by decide +kernel
  have written : ((unusedWorld.run negation).engine.multiSolve negated.view [⟨[1]⟩] [⟨[0]⟩]
      (some 1)).1.solutions.map DenseVector.entries = [[-1 / 2]] := by decide +kernel
  obtain ⟨solved, told⟩ := solves_exactly (create_exactEngine Reference.kernel ()) ⟨0⟩ negation
    (List.get_mem _ ⟨0, negated_matrices⟩) (fun B => passed_negated) success
  obtain ⟨regular, counted⟩ := told 1 rfl
  refine ⟨?_, regular, Int.ofNat.inj counted⟩
  obtain ⟨x, rest, solves, -, answer⟩ := List.forall₂_cons_left_iff.1 solved
  have same : (x :: rest).map DenseVector.entries = [[-1 / 2]] := answer ▸ written
  rwa [(List.cons.inj same).1] at solves

end SymSolve
