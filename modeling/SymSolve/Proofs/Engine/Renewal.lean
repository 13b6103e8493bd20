import SymSolve.Kernel.Reference
import SymSolve.Proofs.Engine.Outcomes
import SymSolve.Proofs.Engine.Pasts
import SymSolve.Proofs.Engine.Record

/-!
# Resets

A reset forgets the structure and all that was made of it. The tolerance stays, and so do the
numbers of calls and factorizations and what was reported.

**Theorem (`reset_as_good_as_new`).** Over a kernel that keeps nothing in mind, an engine after a
reset does what a new engine with the present tolerance does, whatever the caller does with either:
the answers are the same, and so is everything that the engines hold, up to what came before the
reset. Of that, what was reported of calls and the record of attempts stay until the next call
begins.
-/

namespace SymSolve

namespace Past

variable {α : Type} (past : Past α) (calls : Nat)

/-- What is left of the past after some calls. -/
def since : Past α :=
  { past with
    diagnostics := if calls = 0 then past.diagnostics
      else past.diagnostics.filter fun event => event.solveIndex.isNone
    trace := if calls = 0 then past.trace else [] }

theorem since_zero : past.since 0 = past := rfl

theorem since_succ : past.since (calls + 1) = past.begun := rfl

theorem begun_since : (past.since calls).begun = past.begun := by
  cases calls with
  | zero => rfl
  | succ calls => simp only [since_succ, begun, List.filter_filter, Bool.and_self]

end Past

namespace Engine

section Scalar

variable {α σ : Type} [Scalar α]

/-- What an engine has behind it at a reset. -/
def past (e : Engine α (Recorded α σ)) : Past α where
  tolerance := e.options.tolerance
  source := e.options.source
  calls := e.calls
  solves := e.solveCount
  factorizations := e.factorizationCount
  diagnostics := e.diagnostics
  trace := e.trace

/-- The engine `e`, which was reset when it was `old`, goes on as the engine `n` that was new then.
What was reported of earlier calls, and their attempts, are kept until `n` has had a call. -/
structure Continues (old e n : Engine α (Recorded α σ)) : Prop where
  phase : e.phase = n.phase
  tolerance : e.tolerance = n.tolerance
  controls : e.session.controls = n.session.controls
  matrixTag : e.matrixTag = n.matrixTag
  pattern : e.pattern = n.pattern
  nonzeros : e.nonzeros = n.nonzeros
  workspace : e.workspace = n.workspace
  pending : e.pending = n.pending
  negative : e.negative = n.negative
  calls : e.calls = old.calls ++ n.calls
  solveCount : e.solveCount = old.solveCount + n.solveCount
  factorizationCount : e.factorizationCount = old.factorizationCount + n.factorizationCount
  diagnostics : e.diagnostics =
    (if n.solveCount = 0 then old.diagnostics
      else old.diagnostics.filter fun event => event.solveIndex.isNone) ++
      n.diagnostics.map (Event.later old.solveCount)
  trace : e.trace =
    (if n.solveCount = 0 then old.trace else []) ++
      n.trace.map (AttemptRecord.later old.solveCount)

variable {k : Kernel α σ}

/-- At the reset the engine differs from a new one by its past alone. -/
theorem alike_resetStructure {e new : Engine α (Recorded α σ)} (named : e.solverId ≠ "")
    (kernel : e.session.kernel = k.recorded)
    (controls : e.session.controls = k.recorded.defaultControls.withTolerance e.tolerance)
    {options : Options α} {state : σ}
    (same : options.toSettings = { e.options.toSettings with tolerance := e.tolerance })
    (created : create e.memory options k.recorded ⟨state, []⟩ e.solverId e.providesInertia =
      .ok new) :
    Alike k e.past e.resetStructure new ∧ new.solveCount = 0 := by
  unfold create at created
  rw [if_neg named] at created
  cases created
  have settings : { options.toSettings with tolerance := e.options.tolerance } =
      e.options.toSettings := by rw [same]
  have tolerance : options.tolerance = e.tolerance := by rw [same]
  have valid : { options.toSettings with tolerance := e.past.tolerance }.fault? = none :=
    settings ▸ e.options.valid
  refine ⟨⟨⟨e.session.state.state, valid, ?_⟩, rfl, named⟩, rfl⟩
  have options' : e.options = ⟨_, e.past.source, valid⟩ := by
    simp only [settings, past]
  have session : e.session = ((Session.start k.recorded ⟨state, []⟩).withTolerance
      options.tolerance).withPast e.past.calls e.session.state.state := by
    simp only [Session.withPast, Session.withTolerance, Session.start, past, calls, tolerance,
      ← controls, List.append_nil]
    rw [← kernel]
  simp only [withPast, resetStructure, mk.injEq, List.map_nil, List.append_nil, true_and]
  exact ⟨options', session, tolerance.symm, rfl, rfl, rfl, rfl⟩

theorem Alike.continues {old e n : Engine α (Recorded α σ)}
    (h : e.Alike k (old.past.since n.solveCount) n) : Continues old e n := by
  obtain ⟨⟨state, valid, rfl⟩, -, -⟩ := h
  exact ⟨rfl, rfl, rfl, rfl, rfl, rfl, rfl, rfl, rfl, rfl, rfl, rfl, rfl, rfl⟩

end Scalar

end Engine

/-! ## Callers of both engines -/

namespace World

section Scalar

variable {α σ : Type} [Scalar α] {k : Kernel α σ} {past : Past α} {v w : World α (Recorded α σ)}

/-- The worlds differ by the past of the engine in `v` alone, of which a part is gone once the
engine in `w` had a call. -/
structure Alike (k : Kernel α σ) (past : Past α) (v w : World α (Recorded α σ)) : Prop where
  engine : Engine.Alike k (past.since w.engine.solveCount) v.engine w.engine
  tags : v.tags = w.tags
  matrices : v.matrices = w.matrices

theorem Alike.adopt (h : v.Alike k past w) (make : Tagged ViewError (SymTriplets α)) :
    (v.adopt make).Alike k past (w.adopt make) := by
  unfold World.adopt
  rw [h.tags]
  split
  · exact ⟨h.engine, rfl, congrArg (· ++ _) h.matrices⟩
  · exact ⟨h.engine, rfl, h.matrices⟩

theorem Alike.revise (h : v.Alike k past w) (place : Nat) (values : List α) :
    (v.revise place values).Alike k past (w.revise place values) := by
  unfold World.revise
  rw [h.tags, h.matrices]
  split
  · exact h
  · split <;> exact ⟨h.engine, rfl, rfl⟩

/-- A call, with the answer that both callers get. -/
theorem alike_call (stateless : k.Stateless) {e n : Engine α (Recorded α σ)}
    (h : e.Alike k (past.since n.solveCount) n) (m : MatrixView α)
    (rhs solutions : List (DenseVector α)) (demand : InertiaDemand) :
    (e.multiSolve m rhs solutions demand).1 = (n.multiSolve m rhs solutions demand).1 ∧
      (e.multiSolve m rhs solutions demand).2.Alike k
        (past.since (n.multiSolve m rhs solutions demand).2.solveCount)
        (n.multiSolve m rhs solutions demand).2 := by
  cases used : n.usageFault? m rhs solutions demand with
  | some cause =>
    rw [Engine.multiSolve_of_rejected used,
      Engine.multiSolve_of_rejected ((h.usageFault? m rhs solutions demand).trans used)]
    exact ⟨rfl, h⟩
  | none =>
    obtain ⟨same, alike⟩ := Engine.agree_multiSolve stateless h used
    obtain ⟨failure, during⟩ := (Engine.multiSolve_closes h.named used).during
    have counted := during.steady.solveCount.trans (Engine.history_captured m n).2.2
    rw [Past.begun_since] at alike
    rw [counted, Past.since_succ]
    exact ⟨same, alike⟩

theorem Alike.multiSolve (h : v.Alike k past w) (stateless : k.Stateless) (place : Nat)
    (rhs solutions : List (DenseVector α)) (demand : InertiaDemand) :
    (v.multiSolve place rhs solutions demand).Alike k past
      (w.multiSolve place rhs solutions demand) := by
  unfold World.multiSolve
  rw [h.matrices]
  split
  · exact h
  · next A _ =>
    exact ⟨(alike_call stateless h.engine A.view rhs solutions demand).2, h.tags, rfl⟩

end Scalar

variable {α σ : Type} [RealScalar α] [Printable α] {k : Kernel α σ} {past : Past α}
variable {v w : World α (Recorded α σ)}

theorem Alike.step (h : v.Alike k past w) (stateless : k.Stateless) (action : Action α) :
    (v.step action).Alike k past (w.step action) := by
  cases action with
  | ofTriplets dim rows cols values => exact h.adopt _
  | ofSparse A => exact h.adopt _
  | ofTable table => exact h.adopt _
  | drawTag => exact ⟨h.engine, by simp only [World.step, h.tags], h.matrices⟩
  | setValues place values => exact h.revise place values
  | multiSolve place rhs solutions demand => exact h.multiSolve stateless place rhs solutions demand
  | increaseQuality =>
    refine ⟨?_, h.tags, h.matrices⟩
    have counted : (w.engine.exec Engine.increaseQuality).2.solveCount = w.engine.solveCount := by
      rcases w.engine.exec_increaseQuality_cases with same | ⟨tolerance, diagnostics, raised⟩
      · rw [same]
      · rw [raised]
    show Engine.Alike k (past.since (w.engine.exec Engine.increaseQuality).2.solveCount) _ _
    rw [counted]
    exact (Engine.agree_increaseQuality h.engine).2
  | resetStructure => exact ⟨h.engine.resetStructure, h.tags, h.matrices⟩

theorem Alike.run (h : v.Alike k past w) (stateless : k.Stateless) (actions : List (Action α)) :
    (v.run actions).Alike k past (w.run actions) := by
  induction actions generalizing v w with
  | nil => exact h
  | cons action actions ih => exact ih (h.step stateless action)

end World

variable {α σ : Type} [RealScalar α] [Printable α]

/-- **A reset is as good as a new engine**: from then on both go the same way. -/
theorem reset_as_good_as_new {k : Kernel α σ} (stateless : k.Stateless)
    {w : World α (Recorded α σ)} (reached : w.Reached k) {options : Options α}
    (same : options.toSettings =
      { w.engine.options.toSettings with tolerance := w.engine.tolerance })
    {state : σ} {new : Engine α (Recorded α σ)}
    (created : Engine.create w.engine.memory options k.recorded ⟨state, []⟩ w.engine.solverId
      w.engine.providesInertia = .ok new) (actions : List (Action α)) :
    let reset := World.run { w with engine := w.engine.resetStructure } actions
    let fresh := World.run { w with engine := new } actions
    reset.tags = fresh.tags ∧ reset.matrices = fresh.matrices ∧
      w.engine.Continues reset.engine fresh.engine ∧
      (∀ (m : MatrixView α) (rhs solutions : List (DenseVector α)) (demand : InertiaDemand),
        (reset.engine.multiSolve m rhs solutions demand).1 =
          (fresh.engine.multiSolve m rhs solutions demand).1) ∧
      (reset.engine.exec Engine.increaseQuality).1 = (fresh.engine.exec Engine.increaseQuality).1 ∧
      reset.engine.negativeEigenvalues = fresh.engine.negativeEigenvalues := by
  intro reset fresh
  have regular := reached.arises.regular
  obtain ⟨begun, unused⟩ := Engine.alike_resetStructure regular.named regular.kernel
    (regular.kernel ▸ regular.controls) same created
  have first : World.Alike k w.engine.past { w with engine := w.engine.resetStructure }
      { w with engine := new } := ⟨by rwa [unused, Past.since_zero], rfl, rfl⟩
  have alike : reset.Alike k w.engine.past fresh := first.run stateless actions
  refine ⟨alike.tags, alike.matrices, alike.engine.continues, fun m rhs solutions demand => ?_,
    (Engine.agree_increaseQuality alike.engine).1, alike.engine.negativeEigenvalues⟩
  exact (World.alike_call stateless alike.engine m rhs solutions demand).1

/-- A new engine over the reference kernel. -/
def referenceEngine : Engine ℚ (Recorded ℚ Unit) := exactEngine Reference.kernel.recorded ⟨(), []⟩

/-- A caller who solved with the reference kernel and the matrix with the entry 2. -/
def referenceWorld : World ℚ (Recorded ℚ Unit) :=
  (World.start referenceEngine ⟨0⟩).run [
    .ofTriplets 1 [0] [0] (some [2]), .multiSolve 0 [⟨[1]⟩] [⟨[0]⟩] none]

theorem reached_referenceWorld : referenceWorld.Reached Reference.kernel :=
  ⟨_, _, (), _, _, referenceEngine, ⟨0⟩, _, create_exactEngine .., rfl⟩

theorem made_referenceWorld : referenceEngine.SameMake referenceWorld.engine :=
  ((World.regular_start (create_exactEngine Reference.kernel.recorded ⟨(), []⟩) ⟨0⟩).run _).2.1

theorem create_referenceWorld :
    Engine.create referenceWorld.engine.memory exactOptions Reference.kernel.recorded ⟨(), []⟩
      referenceWorld.engine.solverId referenceWorld.engine.providesInertia =
        .ok referenceEngine := by
  rw [made_referenceWorld.memory, made_referenceWorld.solverId, made_referenceWorld.providesInertia]
  exact create_exactEngine ..

theorem reset_as_good_as_new_solved :
    let actions : List (Action ℚ) := [.setValues 0 [4], .multiSolve 0 [⟨[1]⟩] [⟨[0]⟩] none]
    let reset := World.run { referenceWorld with engine := referenceWorld.engine.resetStructure } actions
    let fresh := World.run { referenceWorld with engine := referenceEngine } actions
    fresh.engine.phase = .factorized ∧ fresh.engine.solveCount = 1 ∧
      referenceWorld.engine.Continues reset.engine fresh.engine := by
  intro actions reset fresh
  have tolerance : exactOptions.tolerance = referenceWorld.engine.tolerance := by decide +kernel
  have same : exactOptions.toSettings =
      { referenceWorld.engine.options.toSettings with
        tolerance := referenceWorld.engine.tolerance } := by
    rw [made_referenceWorld.options, ← tolerance]
    rfl
  have renewed := reset_as_good_as_new (.of_subsingleton _) reached_referenceWorld same
    create_referenceWorld actions
  exact ⟨by decide +kernel, by decide +kernel, renewed.2.2.1⟩

/-- **The record of attempts outlives a reset**: a new engine has none. -/
theorem reset_keeps_attempts :
    (Reference.kernel : Kernel ℚ Unit).Stateless ∧ referenceWorld.Reached Reference.kernel ∧
      Engine.create referenceWorld.engine.memory exactOptions Reference.kernel.recorded ⟨(), []⟩
        referenceWorld.engine.solverId referenceWorld.engine.providesInertia =
          .ok referenceEngine ∧
      referenceWorld.engine.resetStructure.trace.map AttemptRecord.status = ["success"] ∧
      referenceEngine.trace = [] :=
  ⟨.of_subsingleton _, reached_referenceWorld, create_referenceWorld,
    by decide +kernel, rfl⟩

end SymSolve
