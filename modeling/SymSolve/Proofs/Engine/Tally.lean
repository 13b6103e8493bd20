import SymSolve.Proofs.Engine.Calls
import SymSolve.Proofs.Engine.Unmoved

/-!
# What an engine counts of its factorizations

A `Tally` is all that an engine and the record of its kernel list about factorizations: the calls,
the attempts with their number, and the reports of retries. It also holds what the attempts read
and do not change.

Most steps are `Quiet`: however they end, the tally is what it was. Only the attempts at a
factorization change it, so what is counted in a whole call is what its attempts count
(`Carries.multiSolve`).
-/

namespace SymSolve

variable {α σ : Type}

/-- The event reports that a workspace was made longer for another attempt. -/
def Event.isRetry (event : Event α) : Bool :=
  event.code == "W_LIN_WORKSPACE_REALLOCATED" && event.solveIndex.isSome &&
    event.attemptIndex.isSome

variable [Scalar α]

/-- What is counted of factorizations. -/
structure Tally (α σ : Type) [Scalar α] where
  kernel : Kernel α (Recorded α σ)
  memory : Memory
  options : Options α
  solverId : String
  tolerance : α
  factorizations : List (FactorizeCall α)
  trace : List (AttemptRecord α)
  count : Nat
  retries : List (Event α)

namespace Engine

/-- What the engine has counted. -/
def tally (e : Engine α (Recorded α σ)) : Tally α σ where
  kernel := e.session.kernel
  memory := e.memory
  options := e.options
  solverId := e.solverId
  tolerance := e.tolerance
  factorizations := e.session.state.calls.filterMap KernelCall.factorization?
  trace := e.trace
  count := e.factorizationCount
  retries := e.diagnostics.filter Event.isRetry

theorem retries_beginCall (e : Engine α (Recorded α σ)) : e.beginCall.tally.retries = [] := by
  simp only [tally, beginCall, List.filter_filter, List.filter_eq_nil_iff, Event.isRetry]
  intro event _
  cases event.solveIndex <;> simp

variable {β : Type} {t : Tally α σ} {e : Engine α (Recorded α σ)}

/-- The step counts nothing. -/
def Quiet (t : Tally α σ) (step : EngineM α (Recorded α σ) β) : Prop :=
  ∀ e, e.tally = t → Ends step e (fun _ e' => e'.tally = t) (fun _ e' => e'.tally = t)

/-! ## What leaves the tally as it is -/

/-- Reports of which no retry is made. -/
def NoRetry (code : String) (attemptIndex : Option Nat) : Prop :=
  code ≠ "W_LIN_WORKSPACE_REALLOCATED" ∨ attemptIndex = none

theorem unmoved_tally (t : Tally α σ) :
    Unmoved NoRetry fun e : Engine α (Recorded α σ) => e.tally = t where
  notes _ _ _ he := he
  report event other he := by
    subst he
    have : event.isRetry = false := by
      rcases other with other | other <;> simp [Event.isRetry, other]
    simp [tally, this]

theorem unplanned_tally (t : Tally α σ) :
    Unplanned fun e : Engine α (Recorded α σ) => e.tally = t where
  sizes _ he := he
  plans _ _ _ he := he

theorem quiet_applyPendingGrowth (solveIndex : Nat) : Quiet t (applyPendingGrowth solveIndex) :=
  (unplanned_tally t).applyPendingGrowth (unmoved_tally t) (.inr rfl) solveIndex

theorem quiet_conclude (result : FactorizationResult) (solveIndex i : Nat) :
    Quiet t (conclude result solveIndex i) :=
  (unplanned_tally t).conclude (unmoved_tally t) (.inl (by decide)) (.inl (by decide))
    (.inl (by decide)) result solveIndex

section Recorded

variable {k : Kernel α σ} {m : MatrixView α}

theorem untouched_tally (recorded : t.kernel = k.recorded) :
    Untouched NoRetry fun e : Engine α (Recorded α σ) => e.tally = t where
  toUnmoved := unmoved_tally t
  analysed {e} he := by
    subst he
    obtain ⟨_, -, record⟩ := Session.record_analyse recorded e.pattern
      e.workspace.integers.words e.workspace.keep.words
    simp only [tally, afterAnalysis, record, List.filterMap_append]
    simp [KernelCall.factorization?, Session.analyse]
  solved {e} rhs he := by
    subst he
    have same : (e.session.backsolve e.dim rhs.entries e.workspace.reals.words
        e.workspace.integers.words).session.kernel = e.session.kernel := Session.kernel_backsolve ..
    rcases Session.record_backsolve recorded e.dim rhs.entries e.workspace.reals.words
      e.workspace.integers.words with record | ⟨_, _, record⟩
    · simp only [tally, afterBacksolve, record, same]
    · simp only [tally, afterBacksolve, record, same, List.filterMap_append]
      simp [KernelCall.factorization?]

/-! ## Whole calls -/

/-- `P` is about the factorizations of a call that starts with the tally `t`: it holds of a call
without any, and what comes after them does not matter. -/
structure Carries (t : Tally α σ)
    (P : Except Fault (Option Outcome) → Engine α (Recorded α σ) → Prop) : Prop where
  quiet : ∀ {r e}, e.tally = t → P r e
  goes_on : ∀ {r e e'}, P (.ok none) e → e'.tally = e.tally → P r e'
  kernel : ∀ {r e}, P r e → e.tally.kernel = t.kernel

variable {P : Except Fault (Option Outcome) → Engine α (Recorded α σ) → Prop}

theorem Carries.prepare (carries : Carries t P) (recorded : t.kernel = k.recorded)
    (solveIndex : Nat) (factorizes : ∀ e, e.tally = t → Ends (factorize m solveIndex) e
      (fun outcome => P (.ok outcome)) (fun fault => P (.error fault)))
    (he : e.tally = t) (demand : InertiaDemand) :
    Ends (prepare m demand solveIndex) e (fun outcome => P (.ok outcome))
      (fun fault => P (.error fault)) := by
  have untouched := untouched_tally recorded
  have analysed := preserves_ite (c := (captureIfNew m e).phase = .structureKnown)
    (untouched.analyse (unplanned_tally t).toUnsized untouched.analysed (.inr rfl) solveIndex)
    (preserves_pure none)
  refine ends_prepare_of (fun e' => e'.tally = t) ?_ (fun e₁ he₁ => ?_) fun e₂ made => ?_
  · refine (analysed _ ((unplanned_tally t).captureIfNew untouched.toUnmoved he)).mono ?_
      fun _ _ => carries.quiet
    rintro (_ | outcome) e₁ he₁
    · exact untouched.noteValues he₁
    · exact carries.quiet he₁
  · split
    · exact carries.quiet he₁
    · exact factorizes e₁ he₁
  · exact ((unmoved_tally e₂.tally).checkInertia (.inr rfl) demand solveIndex e₂ rfl).mono
      (fun _ _ => carries.goes_on made) fun _ _ => carries.goes_on made

/-- **A whole call counts what its attempts count.** -/
theorem Carries.multiSolve (carries : Carries e.beginCall.tally P)
    (recorded : e.session.kernel = k.recorded) {rhs solutions : List (DenseVector α)}
    {demand : InertiaDemand} (accepted : e.usageFault? m rhs solutions demand = none)
    (factorizes : ∀ e', e'.tally = e.beginCall.tally → Ends (factorize m e.solveCount) e'
      (fun outcome => P (.ok outcome)) (fun fault => P (.error fault))) :
    P ((e.multiSolve m rhs solutions demand).1.result.map some)
      (e.multiSolve m rhs solutions demand).2 := by
  refine multiSolve_of_prepare (P (.ok none)) (fun answer => P (answer.result.map some)) accepted
    ?_ fun e₁ made => ?_
  · refine (carries.prepare recorded e.solveCount factorizes rfl demand).mono ?_ fun _ _ h => h
    rintro (_ | outcome) e₁ h <;> exact h
  · have recorded' : e₁.tally.kernel = k.recorded := (carries.kernel made).trans recorded
    exact carries.goes_on made
      ((untouched_tally recorded').backsolve (.inr rfl) e.solveCount 0 rhs solutions rfl)

end Recorded

end Engine

end SymSolve
