import SymSolve.Proofs.Engine.Outcomes
import SymSolve.Proofs.Engine.Reached

/-!
# Rejected calls

A caller may ask an engine for what it cannot do: solve with vectors of the wrong dimension, check
an inertia that it does not provide, tell an inertia before there are factors.

**Theorem (`rejected_calls_are_invisible`).** All that a call can be rejected for is found before
anything happens. So a rejected call leaves the engine, its kernel, the matrices and the vectors as
they were. If the rejected calls are left out of a run, all other replies are the same, and so is
the world at the end. The number of solves counts the calls that were not rejected.
-/

namespace SymSolve

namespace Engine

section Scalar

variable {α σ : Type} [Scalar α] {e : Engine α σ} {m : MatrixView α}
variable {rhs solutions : List (DenseVector α)} {demand : InertiaDemand}

/-- Wrong use is found before a call begins, or not at all. -/
theorem usageFault?_of_usage (named : e.solverId ≠ "") {cause : UsageError}
    (ended : (e.multiSolve m rhs solutions demand).1.result = .error (.usage cause)) :
    e.usageFault? m rhs solutions demand = some cause := by
  cases used : e.usageFault? m rhs solutions demand with
  | some found =>
    rw [multiSolve_of_rejected used] at ended
    cases ended
    rfl
  | none =>
    have closes := multiSolve_closes named used
    rw [ended] at closes
    exact closes.2.1.elim

/-- **A call is rejected for what it was checked for**, and then nothing has happened. -/
theorem multiSolve_rejected (named : e.solverId ≠ "") :
    ((∃ cause, (e.multiSolve m rhs solutions demand).1.result = .error (.usage cause)) ↔
      ¬ Accepted e m rhs solutions demand) ∧
    ∀ cause, (e.multiSolve m rhs solutions demand).1.result = .error (.usage cause) →
      e.multiSolve m rhs solutions demand = (⟨.error (.usage cause), solutions⟩, e) := by
  refine ⟨⟨?_, fun unchecked => ?_⟩, fun cause ended =>
    multiSolve_of_rejected (usageFault?_of_usage named ended)⟩
  · rintro ⟨cause, ended⟩ accepted
    have used := usageFault?_of_usage named ended
    rw [usageFault?_eq_none.2 accepted] at used
    cases used
  · obtain ⟨cause, used⟩ := Option.ne_none_iff_exists'.1 (mt usageFault?_eq_none.1 unchecked)
    exact ⟨cause, by rw [multiSolve_of_rejected used]⟩

/-- A call that is not rejected takes the next number, however it ends. -/
theorem solveCount_multiSolve (named : e.solverId ≠ "")
    (accepted : e.usageFault? m rhs solutions demand = none) :
    (e.multiSolve m rhs solutions demand).2.solveCount = e.solveCount + 1 := by
  obtain ⟨failure, during⟩ := (multiSolve_closes named accepted).during
  exact during.steady.solveCount.trans (history_captured m e).2.2

/-- An inertia is told where it is provided and there are factors. -/
theorem Consistent.negativeEigenvalues_rejected (h : Consistent e) :
    (∃ cause, e.negativeEigenvalues = .error cause) ↔
      ¬ (e.providesInertia ∧ e.phase = .factorized) := by
  constructor
  · rintro ⟨cause, rejected⟩ ⟨provided, late⟩
    obtain ⟨n, noted⟩ := Option.isSome_iff_exists.1 (h.inertia late)
    rw [negativeEigenvalues_eq_ok.2 ⟨provided, late, noted⟩] at rejected
    cases rejected
  · intro missing
    cases told : e.negativeEigenvalues with
    | error cause => exact ⟨cause, rfl⟩
    | ok n =>
      obtain ⟨provided, late, -⟩ := negativeEigenvalues_eq_ok.1 told
      exact absurd ⟨provided, late⟩ missing

end Scalar

end Engine

namespace World

/-! ## Operations and replies -/

/-- What a caller can do, the calls for one right-hand side and for the inertia among it. -/
inductive Operation (α : Type) where
  | act (action : Action α)
  | solve (place : Nat) (rhs solution : DenseVector α) (demand : InertiaDemand)
  | negativeEigenvalues

/-- What the engine replies; what is no business of the engine has no reply. -/
inductive Reply (α : Type) where
  | silent
  | solved (answer : SolveAnswer α)
  | raised (result : Except Fault Bool)
  | inertia (answer : Except UsageError Int)

/-- The engine was used wrongly. -/
def Reply.rejects {α : Type} : Reply α → Bool
  | solved answer => match answer.result with
    | .error (.usage _) => true
    | _ => false
  | inertia answer => !answer.isOk
  | _ => false

/-- A solve was asked for, and it was not rejected. -/
def Reply.counts {α : Type} : Reply α → Bool
  | solved answer => !(solved answer).rejects
  | _ => false

section Real

variable {α σ : Type} [RealScalar α] [Printable α] {k : Kernel α σ} {w : World α σ}

/-- What the engine replies to an action. -/
def reply (w : World α σ) : Action α → Reply α
  | .multiSolve place rhs solutions demand =>
    match w.matrices[place]? with
    | none => .silent
    | some A => .solved (w.engine.multiSolve A.view rhs solutions demand).1
  | .increaseQuality => .raised (w.engine.exec Engine.increaseQuality).1
  | _ => .silent

/-- What comes of an operation: a reply, and a world. -/
def perform (w : World α σ) : Operation α → Reply α × World α σ
  | .act action => (w.reply action, w.step action)
  | .solve place rhs solution demand =>
    match w.matrices[place]? with
    | none => (.silent, w)
    | some A =>
      let called := w.engine.solve A.view rhs solution demand
      (.solved called.1, { w with engine := called.2 })
  | .negativeEigenvalues => (.inertia w.engine.negativeEigenvalues, w)

/-- What comes of several operations, one after the other. -/
def performAll (w : World α σ) : List (Operation α) → List (Reply α) × World α σ
  | [] => ([], w)
  | operation :: later =>
    let first := w.perform operation
    let rest := first.2.performAll later
    (first.1 :: rest.1, rest.2)

/-- The operations without those that are rejected. -/
def heard (w : World α σ) : List (Operation α) → List (Operation α)
  | [] => []
  | operation :: later =>
    let first := w.perform operation
    if first.1.rejects then first.2.heard later else operation :: first.2.heard later

/-- One right-hand side is a list of one. -/
theorem perform_solve (w : World α σ) (place : Nat) (rhs solution : DenseVector α)
    (demand : InertiaDemand) : w.perform (.solve place rhs solution demand) =
      w.perform (.act (.multiSolve place [rhs] [solution] demand)) := by
  simp only [perform, reply, step, multiSolve]
  cases w.matrices[place]? <;> rfl

theorem Regular.perform (h : w.Regular k) (operation : Operation α) :
    (w.perform operation).2.Regular k := by
  cases operation with
  | act action => exact (h.step action).1
  | solve place rhs solution demand =>
    rw [perform_solve]
    exact (h.step (.multiSolve place [rhs] [solution] demand)).1
  | negativeEigenvalues => exact h

theorem Regular.performAll (h : w.Regular k) (operations : List (Operation α)) :
    (w.performAll operations).2.Regular k := by
  induction operations generalizing w with
  | nil => exact h
  | cons operation later ih => exact ih (h.perform operation)

/-! ## What is rejected -/

theorem Regular.step_rejected (h : w.Regular k) {action : Action α}
    (rejected : (w.reply action).rejects) : w.step action = w := by
  cases action with
  | multiSolve place rhs solutions demand =>
    show w.multiSolve place rhs solutions demand = w
    unfold multiSolve
    split
    · rfl
    · next A found =>
      simp only [reply, found, Reply.rejects] at rejected
      split at rejected
      · next cause ended =>
        rw [(Engine.multiSolve_rejected h.named).2 cause ended]
      · cases rejected
  | _ => cases rejected

/-- **A rejected operation changes nothing.** -/
theorem Regular.perform_rejected (h : w.Regular k) {operation : Operation α}
    (rejected : (w.perform operation).1.rejects) : (w.perform operation).2 = w := by
  cases operation with
  | act action => exact h.step_rejected rejected
  | solve place rhs solution demand =>
    rw [perform_solve] at rejected ⊢
    let called : Action α := .multiSolve place [rhs] [solution] demand
    have rejected : (w.reply called).rejects := rejected
    exact h.step_rejected rejected
  | negativeEigenvalues => rfl

/-- **A run without what is rejected**: the other replies are the same, and the world is. -/
theorem Regular.performAll_heard (h : w.Regular k) (operations : List (Operation α)) :
    w.performAll (w.heard operations) =
      ((w.performAll operations).1.filter fun reply => !reply.rejects,
        (w.performAll operations).2) := by
  induction operations generalizing w with
  | nil => rfl
  | cons operation later ih =>
    have rest := ih (h.perform operation)
    cases rejected : (w.perform operation).1.rejects with
    | true =>
      rw [h.perform_rejected rejected] at rest
      simp only [World.performAll, heard, rejected, if_true, Bool.not_true, h.perform_rejected rejected,
        List.filter_cons_of_neg, Bool.false_eq_true, not_false_eq_true]
      exact rest
    | false =>
      simp only [World.performAll, heard, rejected, Bool.false_eq_true, if_false, rest, Bool.not_false,
        List.filter_cons_of_pos]

/-! ## What is counted -/

theorem Regular.solveCount_step (h : w.Regular k) (action : Action α) :
    (w.step action).engine.solveCount =
      w.engine.solveCount + if (w.reply action).counts then 1 else 0 := by
  cases action with
  | multiSolve place rhs solutions demand =>
    show (w.multiSolve place rhs solutions demand).engine.solveCount = _
    cases found : w.matrices[place]? with
    | none => simp [multiSolve, reply, found, Reply.counts]
    | some A =>
      simp only [multiSolve, reply, found]
      cases used : w.engine.usageFault? A.view rhs solutions demand with
      | some cause =>
        rw [Engine.multiSolve_of_rejected used]
        rfl
      | none =>
        have unrejected : (Reply.solved (w.engine.multiSolve A.view rhs solutions demand).1).rejects =
            false := by
          simp only [Reply.rejects]
          split
          · next cause ended =>
            have other := Engine.usageFault?_of_usage h.named ended
            rw [used] at other
            cases other
          · rfl
        rw [Engine.solveCount_multiSolve h.named used, Reply.counts, unrejected]
        rfl
  | increaseQuality =>
    show (w.engine.exec Engine.increaseQuality).2.solveCount = w.engine.solveCount
    rcases w.engine.exec_increaseQuality_cases with same | ⟨tolerance, diagnostics, raised⟩
    · rw [same]
    · rw [raised]
  | setValues place values => exact congrArg Engine.solveCount (w.engine_revise place values)
  | ofTriplets dim rows cols values => exact congrArg Engine.solveCount (w.engine_adopt _)
  | ofSparse A => exact congrArg Engine.solveCount (w.engine_adopt _)
  | ofTable table => exact congrArg Engine.solveCount (w.engine_adopt _)
  | drawTag => rfl
  | resetStructure => rfl

theorem Regular.solveCount_perform (h : w.Regular k) (operation : Operation α) :
    (w.perform operation).2.engine.solveCount =
      w.engine.solveCount + if (w.perform operation).1.counts then 1 else 0 := by
  cases operation with
  | act action => exact h.solveCount_step action
  | solve place rhs solution demand =>
    rw [perform_solve]
    exact h.solveCount_step _
  | negativeEigenvalues => rfl

theorem Regular.solveCount_performAll (h : w.Regular k) (operations : List (Operation α)) :
    (w.performAll operations).2.engine.solveCount =
      w.engine.solveCount + (w.performAll operations).1.countP Reply.counts := by
  induction operations generalizing w with
  | nil => rfl
  | cons operation later ih =>
    simp only [World.performAll, ih (h.perform operation), h.solveCount_perform operation,
      List.countP_cons]
    omega

end Real

end World

section Real

variable {α σ : Type} [RealScalar α] [Printable α]

/-- **Rejected calls are invisible.** -/
theorem rejected_calls_are_invisible {memory : Memory} {options : Options α} {k : Kernel α σ}
    {state : σ} {solverId : String} {providesInertia : Bool} {e : Engine α σ}
    (created : Engine.create memory options k state solverId providesInertia = .ok e)
    (tags : TagSource) (before : List (World.Operation α)) :
    let performed := (World.start e tags).performAll before
    let w := performed.2
    (∀ (m : MatrixView α) (rhs solutions : List (DenseVector α)) (demand : InertiaDemand),
      let called := w.engine.multiSolve m rhs solutions demand
      ((∃ cause, called.1.result = .error (.usage cause)) ↔
        ¬ Engine.Accepted w.engine m rhs solutions demand) ∧
      ∀ cause, called.1.result = .error (.usage cause) →
        called = (⟨.error (.usage cause), solutions⟩, w.engine)) ∧
    ((∃ cause, w.engine.negativeEigenvalues = .error cause) ↔
      ¬ (w.engine.providesInertia ∧ w.engine.phase = .factorized)) ∧
    (∀ operation, (w.perform operation).1.rejects → (w.perform operation).2 = w) ∧
    (∀ later, w.performAll (w.heard later) =
      ((w.performAll later).1.filter fun reply => !reply.rejects, (w.performAll later).2)) ∧
    w.engine.solveCount = performed.1.countP World.Reply.counts := by
  intro performed w
  have start := World.regular_start created tags
  have regular : w.Regular k := start.performAll before
  refine ⟨fun m rhs solutions demand => Engine.multiSolve_rejected regular.named,
    regular.consistent.negativeEigenvalues_rejected, fun operation => regular.perform_rejected,
    regular.performAll_heard, ?_⟩
  have none : (World.start e tags).engine.solveCount = 0 := by
    unfold Engine.create at created
    split at created
    · cases created
    · cases created
      rfl
  exact (start.solveCount_performAll before).trans (by rw [none, Nat.zero_add])

end Real

/-- A caller tries what does not work, solves once, and tries again. -/
def clumsyOperations : List (World.Operation ℚ) := [
  .act (.ofTriplets 1 [0] [0] (some [2])), .solve 0 ⟨[1, 2]⟩ ⟨[0]⟩ none,
  .act (.multiSolve 0 [⟨[1]⟩] [] none), .negativeEigenvalues, .solve 0 ⟨[1]⟩ ⟨[0]⟩ (some 0),
  .act (.multiSolve 0 [⟨[1]⟩, ⟨[2]⟩] [⟨[0]⟩, ⟨[0, 0]⟩] none), .negativeEigenvalues]

theorem rejected_calls_are_invisible_clumsy :
    let start := World.start (scriptedEngine ⟨[], [], []⟩) ⟨0⟩
    let performed := start.performAll clumsyOperations
    performed.1.map World.Reply.rejects = [false, true, true, true, false, true, false] ∧
      performed.2.engine.solveCount = 1 ∧
      (performed.2.perform (.solve 0 ⟨[1, 2]⟩ ⟨[0]⟩ none)).2 = performed.2 := by
  intro start performed
  obtain ⟨-, -, unchanged, -, counted⟩ := rejected_calls_are_invisible
    (create_exactEngine scripted.recorded ⟨⟨[], [], []⟩, []⟩) ⟨0⟩ clumsyOperations
  refine ⟨by decide +kernel, counted.trans ?_, unchanged _ ?_⟩
  · decide +kernel
  · decide +kernel

end SymSolve
