import SymSolve.Proofs.Engine.Concur
import SymSolve.Proofs.Engine.Reached
import SymSolve.Proofs.Engine.Record

/-!
# Shortages are invisible

A caller who works with two engines over a kernel with fixed needs cannot tell them apart by their
answers if they differ in what decides the lengths of workspaces only: the twins stay twins, action
after action (`World.Twin.run`).

**Theorem (`shortage_is_invisible`).** As long as neither engine is refused a length, the answers
and the stored inertia are the same. Each call makes at most three attempts at a factorization, and a
shortage ends it only where a length is refused. Where no length is too large, none is refused.
-/

namespace SymSolve

/-- What two options say of the pivot tolerance is the same. -/
structure Options.SamePivots {α : Type} [Scalar α] (o o' : Options α) : Prop where
  tolerance : o.tolerance = o'.tolerance
  toleranceMax : o.toleranceMax = o'.toleranceMax
  qualityExponent : o.qualityExponent = o'.qualityExponent

section Actions

variable {α σ : Type} [RealScalar α] [Printable α] {k : Kernel α σ} {needs : k.FixedNeeds}
variable {memory : Memory} {o o' : Options α}

theorem Engine.concur_increaseQuality {e n : Engine α σ} (pivots : o.SamePivots o')
    (h : Twin needs memory o o' e n) :
    Concur needs memory o o' increaseQuality e increaseQuality n := by
  have tolerance : e.tolerance = n.tolerance := congrArg Core.tolerance h.core
  obtain ⟨c, left, right⟩ := h
  have limit : e.options.toleranceMax = n.options.toleranceMax := by
    rw [left.options, right.options, pivots.toleranceMax]
  have exponent : e.options.qualityExponent = n.options.qualityExponent := by
    rw [left.options, right.options, pivots.qualityExponent]
  unfold increaseQuality
  refine concur_get ?_
  dsimp only
  rw [limit, exponent, tolerance]
  refine concur_ite (fun _ => concur_pure ⟨c, left, right⟩ _) fun _ => concur_set ?_
  refine (concur_emit_aside _ _ _ ?_).bind_twins fun _ _ _ h => concur_pure h _
  exact ⟨_, left.raised _, right.raised _⟩

omit needs in
theorem Engine.increaseQuality_affords (e : Engine α σ) :
    ∀ cause, (exec increaseQuality e).1 ≠ .error (.length cause) := by
  suffices Ends increaseQuality e (fun _ _ => True)
      fun fault _ => ∀ cause, fault ≠ .length cause from this.affords
  unfold increaseQuality
  rw [ends_get]
  dsimp only
  split
  · trivial
  · rw [ends_set]
    exact (ends_emit_affords ..).bind (fun _ _ _ => trivial) fun _ _ other => other

/-- The call was refused no length. -/
def SolveAnswer.Afforded {α : Type} (answer : SolveAnswer α) : Prop :=
  ∀ cause, answer.result ≠ .error (.length cause)

namespace World

/-- The engines are twins, and the caller holds the same matrices. -/
structure Twin (needs : k.FixedNeeds) (memory : Memory) (o o' : Options α) (v w : World α σ) :
    Prop where
  engine : Engine.Twin needs memory o o' v.engine w.engine
  tags : v.tags = w.tags
  matrices : v.matrices = w.matrices

/-- The action is refused no length. -/
def Affords (w : World α σ) : Action α → Prop
  | .multiSolve place rhs solutions demand => ∀ A, w.matrices[place]? = some A →
    (w.engine.multiSolve A.view rhs solutions demand).1.Afforded
  | _ => True

/-- No action of a run is refused a length. -/
def AffordsAll (w : World α σ) : List (Action α) → Prop
  | [] => True
  | action :: actions => w.Affords action ∧ (w.step action).AffordsAll actions

variable {v w : World α σ}

theorem Twin.step (h : v.Twin needs memory o o' w) (pivots : o.SamePivots o') (action : Action α)
    (afforded : v.Affords action) (afforded' : w.Affords action) :
    (v.step action).Twin needs memory o o' (w.step action) := by
  obtain ⟨e, tags, matrices⟩ := v
  obtain ⟨n, _, _⟩ := w
  obtain ⟨engine, rfl, rfl⟩ := h
  have adopt (make : Tagged ViewError (SymTriplets α)) :
      Twin needs memory o o' (adopt ⟨e, tags, matrices⟩ make) (adopt ⟨n, tags, matrices⟩ make) := by
    unfold World.adopt
    dsimp only
    split <;> exact ⟨engine, rfl, rfl⟩
  cases action with
  | ofTriplets dim rows cols values => exact adopt _
  | ofSparse A => exact adopt _
  | ofTable table => exact adopt _
  | drawTag => exact ⟨engine, rfl, rfl⟩
  | setValues place values =>
    simp only [World.step, World.revise]
    split
    · exact ⟨engine, rfl, rfl⟩
    · split <;> exact ⟨engine, rfl, rfl⟩
  | multiSolve place rhs solutions demand =>
    simp only [World.step, World.multiSolve]
    cases found : matrices[place]? with
    | none => exact ⟨engine, rfl, rfl⟩
    | some A =>
      have concurs := Engine.concur_multiSolve engine A rhs solutions demand
      exact ⟨(concurs.of_afforded (afforded A found) (afforded' A found)).2, rfl, rfl⟩
  | increaseQuality =>
    have concurs := Engine.concur_increaseQuality pivots engine
    exact ⟨(concurs.of_afforded (Engine.increaseQuality_affords e)
      (Engine.increaseQuality_affords n)).2, rfl, rfl⟩
  | resetStructure => exact ⟨engine.resetStructure, rfl, rfl⟩

theorem Twin.run (h : v.Twin needs memory o o' w) (pivots : o.SamePivots o')
    (actions : List (Action α)) (afforded : v.AffordsAll actions)
    (afforded' : w.AffordsAll actions) :
    (v.run actions).Twin needs memory o o' (w.run actions) := by
  induction actions generalizing v w with
  | nil => exact h
  | cons action actions ih =>
    exact ih (h.step pivots action afforded.1 afforded'.1) afforded.2 afforded'.2

omit [Printable α] in
theorem Twin.affords (h : w.Twin needs memory o o w) (free : Boundless memory o)
    (action : Action α) : w.Affords action := by
  cases action with
  | multiSolve place rhs solutions demand =>
    intro A found
    exact (Engine.concur_multiSolve h.engine A rhs solutions demand).of_boundless free free
  | _ => trivial

/-- **Where no length is too large, none is refused.** -/
theorem Twin.affordsAll (h : w.Twin needs memory o o w) (free : Boundless memory o)
    (actions : List (Action α)) : w.AffordsAll actions := by
  induction actions generalizing w with
  | nil => trivial
  | cons action actions ih =>
    have afforded := h.affords free action
    exact ⟨afforded, ih (h.step ⟨rfl, rfl, rfl⟩ action afforded afforded)⟩

/-- A caller cannot tell the engines of the two worlds apart, as long as no length is refused. -/
structure Indistinct (v w : World α σ) : Prop where
  tags : v.tags = w.tags
  matrices : v.matrices = w.matrices
  phase : v.engine.phase = w.engine.phase
  negative : v.engine.negative = w.engine.negative
  negativeEigenvalues : v.engine.negativeEigenvalues = w.engine.negativeEigenvalues
  solves : ∀ (A : SymTriplets α) (rhs solutions : List (DenseVector α)) (demand : InertiaDemand),
    let answer := (v.engine.multiSolve A.view rhs solutions demand).1
    let answer' := (w.engine.multiSolve A.view rhs solutions demand).1
    answer.Afforded → answer'.Afforded → answer = answer'
  raises : (v.engine.exec Engine.increaseQuality).1 = (w.engine.exec Engine.increaseQuality).1

theorem Twin.indistinct (h : v.Twin needs memory o o' w) (pivots : o.SamePivots o') :
    v.Indistinct w where
  tags := h.tags
  matrices := h.matrices
  phase := h.engine.phase
  negative := h.engine.negative
  negativeEigenvalues := h.engine.negativeEigenvalues
  solves A rhs solutions demand := fun afforded afforded' =>
    ((Engine.concur_multiSolve h.engine A rhs solutions demand).of_afforded afforded afforded').1
  raises := ((Engine.concur_increaseQuality pivots h.engine).of_afforded
    (Engine.increaseQuality_affords _) (Engine.increaseQuality_affords _)).1

end World

end Actions

/-! ## Recorded calls -/

section Recorded

variable {α σ : Type} [RealScalar α] [Printable α] {k : Kernel α σ}

/-- The factorizations that the kernel was called for in a call: at most three, and a shortage at
their end only if the call was refused a length. -/
structure AttemptsFew (e e' : Engine α (Recorded α σ)) (answer : SolveAnswer α)
    (fs : List (FactorizeCall α)) : Prop where
  calls : e'.calls.filterMap KernelCall.factorization? =
    e.calls.filterMap KernelCall.factorization? ++ fs
  few : fs.length ≤ 3
  last : ∀ f ∈ fs.getLast?, (Engine.shortage? f.verdict).isSome → ¬ answer.Afforded

/-- **Shortages are invisible**: over a kernel with fixed needs, the options that decide the lengths
of workspaces have no part in what a caller is told. Where no length is too large, none is refused. -/
theorem shortage_is_invisible (needs : k.FixedNeeds) {memory : Memory} {o o' : Options α}
    (pivots : o.SamePivots o') {state : σ} {solverId : String} {providesInertia : Bool}
    {e e' : Engine α (Recorded α σ)}
    (created : Engine.create memory o k.recorded ⟨state, []⟩ solverId providesInertia = .ok e)
    (created' : Engine.create memory o' k.recorded ⟨state, []⟩ solverId providesInertia = .ok e')
    (tags : TagSource) (actions : List (Action α)) :
    let w := (World.start e tags).run actions
    let w' := (World.start e' tags).run actions
    (∀ A ∈ w.matrices, ∀ (rhs solutions : List (DenseVector α)) (demand : InertiaDemand),
      let called := w.engine.multiSolve A.view rhs solutions demand
      ∃ fs, AttemptsFew w.engine called.2 called.1 fs) ∧
    ((World.start e tags).AffordsAll actions → (World.start e' tags).AffordsAll actions →
      w.Indistinct w') ∧
    (Boundless memory o → (World.start e tags).AffordsAll actions) := by
  intro w w'
  have left := Engine.stands_create needs.recorded created
  have right := Engine.stands_create needs.recorded created'
  have same : e.core needs.recorded = e'.core needs.recorded := by
    unfold Engine.create at created created'
    split at created
    · cases created
    · next named =>
      rw [if_neg named] at created'
      cases created
      cases created'
      simp only [Engine.core, pivots.tolerance]
      rfl
  have twins : (World.start e tags).Twin needs.recorded memory o o' (World.start e' tags) :=
    ⟨⟨_, left, same ▸ right⟩, rfl, rfl⟩
  refine ⟨fun A hA rhs solutions demand => ?_, fun afforded afforded' => ?_, fun free => ?_⟩
  · have order : w.InOrder _ := World.Reached.inOrder
      ⟨memory, o, state, solverId, providesInertia, e, tags, actions, created, rfl⟩
    cases used : w.engine.usageFault? A.view rhs solutions demand with
    | some cause =>
      rw [Engine.multiSolve_of_rejected used]
      exact ⟨[], (List.append_nil _).symm, Nat.zero_le 3, fun _ last => by cases last⟩
    | none =>
      obtain ⟨-, fs, called, few, told⟩ :=
        Engine.few_multiSolve needs.recorded order.sound.admits.1 order.solver used
      refine ⟨fs, called, few, fun f hf short afforded => ?_⟩
      obtain ⟨cause, told⟩ := told f hf short
      cases result : (w.engine.multiSolve A.view rhs solutions demand).1.result with
      | error fault =>
        rw [result] at told
        exact afforded cause (by rw [result, Except.error.inj told])
      | ok outcome =>
        rw [result] at told
        cases told
  · exact (twins.run pivots actions afforded afforded').indistinct pivots
  · exact World.Twin.affordsAll (o := o) ⟨⟨_, left, left⟩, rfl, rfl⟩ free actions

end Recorded

/-! ## Engines over the kernel `measured` -/

/-- Options under which the first workspaces have enough words. -/
def ampleOptions : Options ℚ :=
  { exactOptions.toSettings with
    integerInitFactor := 40
    realInitFactor := 30
    source := .constructed
    valid := by decide +kernel }

/-- Options under which a workspace outgrows a machine. -/
def excessiveOptions : Options ℚ :=
  { exactOptions.toSettings with
    growthFactor := 1099511627776
    source := .constructed
    valid := by decide +kernel }

/-- A new engine over the kernel `measured`. -/
def measuredEngine (memory : Memory) (options : Options ℚ) : Engine ℚ (Recorded ℚ Unit) :=
  { exactEngine measured.recorded ⟨(), []⟩ with
    memory, options
    session := (Session.start measured.recorded ⟨(), []⟩).withTolerance options.tolerance
    tolerance := options.tolerance }

theorem create_measuredEngine (memory : Memory) (options : Options ℚ) :
    Engine.create memory options measured.recorded ⟨(), []⟩ "exact" true =
      .ok (measuredEngine memory options) := rfl

/-- A caller solves with the matrix with the entry 2 and then makes the entry 4. -/
def revisions : List (Action ℚ) :=
  [.ofTriplets 1 [0] [0] (some [2]), .multiSolve 0 [⟨[1]⟩] [⟨[0]⟩] none, .setValues 0 [4]]

/-- The world of that caller. -/
def measuredWorld (options : Options ℚ) : World ℚ (Recorded ℚ Unit) :=
  (World.start (measuredEngine .unlimited options) ⟨0⟩).run revisions

theorem measuredWorld_matrices : 0 < (measuredWorld exactOptions).matrices.length := by
  decide +kernel

/-- The matrix with the new entry. -/
def measuredMatrix : SymTriplets ℚ :=
  (measuredWorld exactOptions).matrices.get ⟨0, measuredWorld_matrices⟩

/-- An engine whose workspaces are too short gives the answer of one that has enough words. -/
theorem shortage_is_invisible_measured :
    let w := measuredWorld exactOptions
    let called := w.engine.multiSolve measuredMatrix.view [⟨[1]⟩] [⟨[0]⟩] none
    (((measuredEngine .unlimited exactOptions).captureStructure measuredMatrix.view).exec
        (Engine.analyse 0)).2.lacking? measured_fixedNeeds.recorded = some .integer ∧
      called.1.result = .ok .success ∧ called.1.solutions.map DenseVector.entries = [[1 / 4]] ∧
      ∃ fs, AttemptsFew w.engine called.2 called.1 fs := by
  intro w called
  have hidden (o o' : Options ℚ) (pivots : o.SamePivots o') (actions : List (Action ℚ)) :=
    shortage_is_invisible measured_fixedNeeds pivots (create_measuredEngine .unlimited o)
      (create_measuredEngine .unlimited o') ⟨0⟩ actions
  have afforded (o : Options ℚ) (actions : List (Action ℚ)) :=
    (hidden o o ⟨rfl, rfl, rfl⟩ actions).2.2 (boundless_of_unlimited o)
  obtain ⟨few, hides, -⟩ := hidden exactOptions ampleOptions ⟨rfl, rfl, rfl⟩ revisions
  have indistinct : w.Indistinct (measuredWorld ampleOptions) :=
    hides (afforded _ _) (afforded _ _)
  have here : w.matrices[0]? = some measuredMatrix :=
    List.getElem?_eq_getElem measuredWorld_matrices
  have there : (measuredWorld ampleOptions).matrices[0]? = some measuredMatrix :=
    indistinct.matrices ▸ here
  have same : called.1 = ((measuredWorld ampleOptions).engine.multiSolve measuredMatrix.view
      [⟨[1]⟩] [⟨[0]⟩] none).1 := by
    have left := afforded exactOptions (revisions ++ [.multiSolve 0 [⟨[1]⟩] [⟨[0]⟩] none])
    have right := afforded ampleOptions (revisions ++ [.multiSolve 0 [⟨[1]⟩] [⟨[0]⟩] none])
    exact indistinct.solves _ _ _ _ (left.2.2.2.1 _ here) (right.2.2.2.1 _ there)
  refine ⟨by decide +kernel, ?_, ?_, few measuredMatrix (List.get_mem ..) _ _ _⟩
  · rw [same]
    decide +kernel
  · rw [same]
    decide +kernel

/-- **A refused length shows**: a machine has no room for the workspace that the second options
come to. -/
theorem refused_length_shows :
    let call (options : Options ℚ) := (measuredEngine .machine options).multiSolve
      (SymTriplets.view ⟨1, [⟨0, 0, 2⟩], 1⟩) [⟨[1]⟩] [⟨[0]⟩] none
    Nonempty measured.FixedNeeds ∧ ampleOptions.SamePivots excessiveOptions ∧
      (∀ o, Engine.create .machine o measured.recorded ⟨(), []⟩ "exact" true =
        .ok (measuredEngine .machine o)) ∧
      (call ampleOptions).1.result = .ok .success ∧
      (call excessiveOptions).1.result = .error (.length (.refused .unavailable)) :=
  ⟨⟨measured_fixedNeeds⟩, ⟨rfl, rfl, rfl⟩, create_measuredEngine .machine, by decide +kernel,
    by decide +kernel⟩

end SymSolve
