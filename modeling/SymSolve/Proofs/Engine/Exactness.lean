import SymSolve.Proofs.Engine.ExactSolutions
import SymSolve.Proofs.Engine.Outcomes
import SymSolve.Proofs.Ldl.Sylvester

/-!
# Exact engines

Whoever builds on an engine relies on what a call tells of its matrix (`Engine.Truthful`): a success
solves the systems, only nonsingular matrices have factors, and the inertia told is the one of the
matrix. An engine is exact on a matrix (`Engine.ExactOn`) if the next call with it is truthful, with
any right-hand sides and any demand.

**Theorem (`World.InOrder.exactOn`).** Whatever a caller has done with an engine over the reference
kernel, it is exact on the matrices of the caller whose positions it has or captures.

The proof needs that factors found at the end of a call are those of its matrix, also if the call was
no success. So the notes of the engine are followed through the stages of a call (`Ended`).
-/

namespace SymSolve

namespace Engine

/-! ## The notes at the end of a call -/

section Scalar

variable {α σ : Type} [Scalar α] {m : MatrixView α} {e : Engine α σ}

/-- A call has come to an outcome: if there are factors, they are those of its matrix, and if the
inertia is wrong, it is not the one that was demanded. -/
structure Ended (m : MatrixView α) (demand : InertiaDemand) (outcome : Outcome) (e : Engine α σ) :
    Prop where
  matrixTag : e.phase = .factorized → e.matrixTag = m.tag
  unmet : outcome = .wrongInertia → ∃ expected, demand = some expected ∧ e.negative ≠ some expected

theorem matrixTag_noteValues (m : MatrixView α) (e : Engine α σ) :
    (noteValues m e).matrixTag = m.tag := by
  unfold noteValues
  split
  · rfl
  · next same =>
    simp only [MatrixView.hasChanged, bne_iff_ne, ne_eq, Decidable.not_not] at same
    exact same.symm

theorem solverId_noteValues (m : MatrixView α) (e : Engine α σ) :
    (noteValues m e).solverId = e.solverId := by
  unfold noteValues
  split <;> rfl

/-- The engine has taken note of the values of the matrix, and its reports have a name. -/
structure Named (m : MatrixView α) (e : Engine α σ) : Prop where
  solverId : e.solverId ≠ ""
  matrixTag : e.matrixTag = m.tag

theorem ends_prepare_ended (named : e.solverId ≠ "") (m : MatrixView α) (demand : InertiaDemand)
    (k : Nat) :
    Ends (prepare m demand k) e
      (fun ended e' => match ended with
        | none => Named m e'
        | some outcome => Ended m demand outcome e')
      (fun _ _ => True) := by
  have named : (captureIfNew m e).solverId ≠ "" := by
    unfold captureIfNew
    split <;> exact named
  refine ends_prepare_by (Named m) (Named m) ?_ (fun e₁ noted => ?_) fun e₂ noted => ?_
  · split
    · next fresh =>
      refine (analyse_during named).mono ?_ fun _ _ _ => trivial
      rintro (_ | outcome) e₁ h₁
      · refine ⟨?_, matrixTag_noteValues m e₁⟩
        rw [solverId_noteValues, h₁.1.steady.solverId]
        exact named
      · obtain ⟨rfl, -, notes, -⟩ := h₁
        have early : e₁.phase = .structureKnown := (congrArg Notes.phase notes).trans fresh
        exact ⟨fun late => by simp [early] at late, nofun⟩
    · exact ⟨(solverId_noteValues m _).symm ▸ named, matrixTag_noteValues m _⟩
  · split
    · exact noted
    · refine (factorize_during noted.solverId m).mono ?_ fun _ _ _ => trivial
      rintro outcome e₃ ⟨e₂, grown, cleared, concludes⟩
      have tag : e₂.matrixTag = m.tag := (congrArg Notes.matrixTag cleared).trans noted.matrixTag
      rcases outcome with _ | outcome
      · obtain ⟨during, pending, negative, notes⟩ := concludes
        refine ⟨?_, (congrArg Notes.matrixTag notes).trans tag⟩
        rw [during.steady.solverId, grown.steady.solverId]
        exact noted.solverId
      · obtain ⟨failure, tells, -, notes⟩ := concludes
        refine ⟨fun _ => (congrArg Notes.matrixTag notes).trans tag, ?_⟩
        rintro rfl
        cases tells
  · refine ends_checkInertia_of (fun _ => noted) fun expected demanded other => ?_
    unfold emitWrongInertia
    refine (ends_emit ..).mono ?_ fun _ _ _ => trivial
    rintro - _ ⟨diagnostics, rfl⟩
    exact ⟨fun _ => noted.matrixTag, fun _ => ⟨expected, demanded, other⟩⟩

theorem backsolve_ne_wrongInertia (k index : Nat) (rhs solutions : List (DenseVector α))
    (e : Engine α σ) : (backsolve k index rhs solutions e).1.result ≠ .ok .wrongInertia := by
  fun_induction backsolve k index rhs solutions e with
  | case1 => simp
  | case2 => simp
  | case3 index b more x solutions e x' after solved answer last rest ih =>
    rw [rest] at ih
    exact ih
  | case4 => simp

/-- **The notes at the end of a call.** -/
theorem multiSolve_ended (named : e.solverId ≠ "") {rhs solutions : List (DenseVector α)}
    {demand : InertiaDemand} {outcome : Outcome}
    (ended : (e.multiSolve m rhs solutions demand).1.result = .ok outcome) :
    Ended m demand outcome (e.multiSolve m rhs solutions demand).2 := by
  refine multiSolve_of_prepare (Named m)
    (fun answer e' => answer.result = .ok outcome → Ended m demand outcome e') (accepted_of_ok ended)
    ?_ ?_ ended
  · refine (ends_prepare_ended (e := e.beginCall) named m demand e.solveCount).mono ?_
      fun _ _ _ => by simp
    rintro (_ | other) e₁ h₁
    · exact h₁
    · rintro ⟨⟩
      exact h₁
  · intro e₁ noted solved
    have answers := backsolve_during e.solveCount 0 rhs solutions e₁ noted.solverId
    rw [solved] at answers
    obtain ⟨failure, -, -, notes⟩ := answers
    refine ⟨fun _ => (congrArg Notes.matrixTag notes).trans noted.matrixTag, ?_⟩
    rintro rfl
    exact (backsolve_ne_wrongInertia _ _ _ _ _ solved).elim

end Scalar

/-! ## True calls -/

section Exact

variable {K σ : Type} [Field K] [LinearOrder K] [FloorRing K]

/-- What a call tells of its matrix is true. -/
structure Truthful (A : SymTriplets K) (rhs : List (DenseVector K)) (answer : SolveAnswer K)
    (e : Engine K σ) : Prop where
  solves : answer.result = .ok .success →
    List.Forall₂ (fun b x => A.toDense.Solves b.entries x.entries) rhs answer.solutions
  regular : ∀ outcome, answer.result = .ok outcome → e.phase = .factorized →
    A.toDense.toMatrix.det ≠ 0
  inertia : ∀ outcome n, answer.result = .ok outcome → e.negativeEigenvalues = .ok n →
    ∃ d : Nat, n = d ∧ IsGreatest {d | NegativeOn A.toDense.toMatrix d} d

/-- The next call with the matrix is truthful, whatever it is called with. -/
def ExactOn (e : Engine K σ) (A : SymTriplets K) : Prop :=
  ∀ (rhs solutions : List (DenseVector K)) (demand : InertiaDemand),
    Truthful A rhs (e.multiSolve A.view rhs solutions demand).1
      (e.multiSolve A.view rhs solutions demand).2

/-- A success with one right-hand side has one solution. -/
theorem ExactOn.solves_one {e : Engine K σ} {A : SymTriplets K} (exact : e.ExactOn A)
    {b x : DenseVector K} {demand : InertiaDemand}
    (success : (e.solve A.view b x demand).1.result = .ok .success) :
    ∃ y, (e.solve A.view b x demand).1.solutions = [y] ∧ A.toDense.Solves b.entries y.entries := by
  obtain ⟨y, rest, solved, none, all⟩ :=
    List.forall₂_cons_left_iff.1 ((exact [b] [x] demand).solves success)
  cases none
  exact ⟨y, all, solved⟩

/-- Only systems of nonsingular matrices are solved. -/
theorem ExactOn.regular_of_success {e : Engine K σ} {A : SymTriplets K} (exact : e.ExactOn A)
    (named : e.solverId ≠ "") {rhs solutions : List (DenseVector K)} {demand : InertiaDemand}
    (success : (e.multiSolve A.view rhs solutions demand).1.result = .ok .success) :
    A.toDense.toMatrix.det ≠ 0 :=
  (exact rhs solutions demand).regular _ success
    ((accounts_of_ok named success).factorized (.inl rfl))

/-- **The right inertia is found**: where a caller demands the inertia that a nonsingular matrix must
have, the engine has nothing to say against it. -/
theorem ExactOn.ne_wrongInertia {e : Engine K σ} {A : SymTriplets K} (exact : e.ExactOn A)
    (named : e.solverId ≠ "") (consistent : Consistent e) {rhs solutions : List (DenseVector K)}
    {demand : InertiaDemand}
    (right : ∀ expected, demand = some expected → A.toDense.toMatrix.det ≠ 0 →
      ∃ d : Nat, expected = d ∧ IsGreatest {d | NegativeOn A.toDense.toMatrix d} d) :
    (e.multiSolve A.view rhs solutions demand).1.result ≠ .ok .wrongInertia := by
  intro wrong
  have paired : A.view.cols.length = A.view.rows.length := by simp [SymTriplets.view]
  have late := (accounts_of_ok named wrong).factorized (.inr rfl)
  obtain ⟨n, noted⟩ := Option.isSome_iff_exists.1
    ((consistent.multiSolve named paired rhs solutions demand).1.inertia late)
  obtain ⟨expected, demanded, unmet⟩ := (multiSolve_ended named wrong).unmet rfl
  have provides : (e.multiSolve A.view rhs solutions demand).2.providesInertia := by
    rw [(made_multiSolve named A.view rhs solutions demand).1.providesInertia]
    exact (usageFault?_eq_none.1 (accepted_of_ok wrong)).offered (demanded ▸ rfl)
  -- two numbers count the same: the one that is demanded, and the one that is told
  have truthful := exact rhs solutions demand
  obtain ⟨d, rfl, demandedGreatest⟩ :=
    right expected demanded (truthful.regular _ wrong late)
  obtain ⟨d', rfl, toldGreatest⟩ :=
    truthful.inertia _ n wrong (negativeEigenvalues_eq_ok.2 ⟨provides, late, noted⟩)
  exact unmet (noted.trans (congrArg (fun d : Nat => some (d : Int))
    (toldGreatest.unique demandedGreatest)))

end Exact

end Engine

/-! ## The reference kernel -/

variable {K : Type} [Field K] [LinearOrder K] [IsStrictOrderedRing K] [FloorRing K]

/-- An engine that is left with factors has noted the inertia of the matrix. -/
theorem World.InOrder.signs_of_factorized {w : World K Unit} (h : w.InOrder referenceSpec)
    {A : SymTriplets K} (hA : A ∈ w.matrices)
    (own : w.engine.phase = .uninitialized ∨ w.engine.pattern = .ofView A.view)
    {rhs solutions : List (DenseVector K)} {demand : InertiaDemand} {outcome : Outcome}
    (ended : (w.engine.multiSolve A.view rhs solutions demand).1.result = .ok outcome)
    (late : (w.engine.multiSolve A.view rhs solutions demand).2.phase = .factorized) :
    ∃ d : Nat, Signs A.toDense.toMatrix d ∧
      (w.engine.multiSolve A.view rhs solutions demand).2.negative = some (d : Int) := by
  obtain ⟨sound, steady, -⟩ := Engine.multiSolve_sound h.sound
    (Engine.usageFault?_eq_none.1 (Engine.accepted_of_ok ended)) (referenceSpec_met.factorizes _ _)
    referenceSpec_met.backsolves A.length_values (h.knows_iff hA)
  have tag := (Engine.multiSolve_ended h.solver ended).matrixTag late
  obtain ⟨values, negative, knows, noted, words, front, factored⟩ := sound.current late
  rw [tag] at knows
  obtain rfl := (h.knows_iff hA values).1 knows
  rw [steady.pattern, (Engine.pattern_captured_iff A.view w.engine).2 own] at factored
  obtain ⟨d, signs, rfl⟩ := factored.signs
  exact ⟨d, A.matrix_ofView front ▸ signs, noted⟩

/-- **Engines over the reference kernel are exact.** -/
theorem World.InOrder.exactOn {w : World K Unit} (h : w.InOrder referenceSpec) {A : SymTriplets K}
    (hA : A ∈ w.matrices)
    (own : w.engine.phase = .uninitialized ∨ w.engine.pattern = .ofView A.view) :
    w.engine.ExactOn A := by
  intro rhs solutions demand
  refine ⟨fun success => (h.solves_of_success hA own success).1, fun outcome ended late => ?_,
    fun outcome n ended told => ?_⟩
  · obtain ⟨d, signs, -⟩ := h.signs_of_factorized hA own ended late
    exact signs.det_ne_zero
  · obtain ⟨-, late, noted⟩ := Engine.negativeEigenvalues_eq_ok.1 told
    obtain ⟨d, signs, noted'⟩ := h.signs_of_factorized hA own ended late
    exact ⟨d, Option.some.inj (noted.symm.trans noted'), (signs_iff.1 signs).isGreatest⟩

end SymSolve
