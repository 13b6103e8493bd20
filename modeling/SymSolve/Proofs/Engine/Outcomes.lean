import SymSolve.Proofs.Engine.Consistency

/-!
# Outcomes and what is reported of them

**Theorem (`outcomes_are_accounted_for`).** A call that is not rejected never breaks off because of
a report. If it comes to an outcome, then its outcome, the phase it leaves and the code of its error
agree (`Tells`): a success reports no error, and any other outcome reports one, after all warnings.
What the calls before it reported is gone, except for what belongs to no call.
-/

namespace SymSolve

namespace Engine

section Scalar

variable {α σ : Type} [Scalar α] {m : MatrixView α} {e e' : Engine α σ}

/-- A call that takes the engine from `e` to `e'` has come to an outcome, and all that the engine
tells of it agrees. -/
structure Accounts (e : Engine α σ) (outcome : Outcome) (e' : Engine α σ) : Prop where
  reported : ∃ failure, Tells outcome e'.phase failure ∧ Reported e.solveCount failure
    (e.diagnostics.filter fun event => event.solveIndex.isNone) e'.diagnostics
  listed : Listed e.solveCount [] e'.trace
  counted : e'.solveCount = e.solveCount + 1

/-- What the engine tells of earlier calls when the structure is captured. -/
theorem history_captured (m : MatrixView α) (e : Engine α σ) :
    (e.captured m).diagnostics = e.diagnostics.filter (fun event => event.solveIndex.isNone) ∧
      (e.captured m).trace = [] ∧ (e.captured m).solveCount = e.solveCount + 1 := by
  unfold captured captureIfNew
  split <;> exact ⟨rfl, rfl, rfl⟩

theorem Closes.accounts {outcome : Outcome}
    (h : Closes e.solveCount m (e.captured m) (.ok outcome) e') : Accounts e outcome e' := by
  obtain ⟨⟨failure, tells, during⟩, -⟩ := h
  obtain ⟨diagnostics, trace, count⟩ := history_captured m e
  exact ⟨⟨failure, tells, diagnostics ▸ during.reported⟩, trace ▸ during.listed,
    during.steady.solveCount.trans count⟩

theorem accounts_of_ok (named : e.solverId ≠ "") {rhs solutions : List (DenseVector α)}
    {demand : InertiaDemand} {outcome : Outcome}
    (ended : (e.multiSolve m rhs solutions demand).1.result = .ok outcome) :
    Accounts e outcome (e.multiSolve m rhs solutions demand).2 := by
  have closes := multiSolve_closes named (accepted_of_ok ended)
  rw [ended] at closes
  exact closes.accounts

/-- A success leaves factors, and so does a call that finds a wrong inertia. -/
theorem Accounts.factorized {outcome : Outcome} (h : Accounts e outcome e')
    (checked : outcome = .success ∨ outcome = .wrongInertia) : e'.phase = .factorized := by
  obtain ⟨⟨failure, tells, -⟩, -, -⟩ := h
  generalize e'.phase = phase at tells ⊢
  cases tells <;> simp at checked ⊢

theorem Accounts.exists_error {outcome : Outcome} (h : Accounts e outcome e')
    (failed : outcome ≠ .success) : ∃ event ∈ e'.diagnostics, event.severity = .error := by
  obtain ⟨⟨failure, tells, warnings, error, added, -, graded, code⟩, -, -⟩ := h
  generalize e'.phase = phase at tells
  obtain ⟨event, rfl⟩ : ∃ event, error = some event := by
    cases tells with
    | success => exact absurd rfl failed
    | _ => exact (Option.map_eq_some_iff.1 code).imp fun _ found => found.1
  exact ⟨event, by simp [added], (graded event rfl).severity⟩

end Scalar

end Engine

variable {α σ : Type} [RealScalar α] [Printable α]

/-- **Outcomes, phases, reports and attempts agree.** -/
theorem outcomes_are_accounted_for {k : Kernel α σ} {w : World α σ} (arises : w.Arises k)
    {m : MatrixView α} {rhs solutions : List (DenseVector α)} {demand : InertiaDemand}
    (accepted : w.engine.usageFault? m rhs solutions demand = none) :
    let called := w.engine.multiSolve m rhs solutions demand
    (∀ cause, called.1.result ≠ .error (.event cause)) ∧
      ∀ outcome, called.1.result = .ok outcome → w.engine.Accounts outcome called.2 := by
  intro called
  have closes := Engine.multiSolve_closes arises.regular.named accepted
  refine ⟨fun cause broken => ?_, fun outcome ended => ?_⟩
  · rw [show _ = Except.error (Fault.event cause) from broken] at closes
    exact closes.2.1
  · rw [show _ = Except.ok outcome from ended] at closes
    exact closes.accounts

theorem outcomes_are_accounted_for_solved :
    let called := solvedWorld.engine.multiSolve ⟨1, [0], [0], [3], 2⟩ [⟨[1]⟩] [⟨[0]⟩] none
    called.1.result = .ok .success ∧ solvedWorld.engine.Accounts .success called.2 := by
  have success : (solvedWorld.engine.multiSolve ⟨1, [0], [0], [3], 2⟩ [⟨[1]⟩] [⟨[0]⟩] none).1.result =
      .ok .success := by decide +kernel
  have arises : solvedWorld.Arises scripted.recorded :=
    ⟨_, _, ⟨⟨[], [], []⟩, []⟩, _, _, scriptedEngine _, ⟨0⟩, _, create_exactEngine .., rfl⟩
  exact ⟨success, (outcomes_are_accounted_for arises (by decide +kernel)).2 _ success⟩

end SymSolve
