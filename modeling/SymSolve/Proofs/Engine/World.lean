import SymSolve.Proofs.Engine.Upkeep

/-!
# An engine and its caller

A caller makes matrices, changes their values, and uses one engine. A `World` is all of this at
one moment, an `Action` is one thing that a caller can do, and a run is a list of actions.
Actions may fail or be rejected; the world goes on from whatever they leave.

**Theorem (`World.keeps_run`).** For every kernel that meets its specification, every world that
a run leads to satisfies `Keeps`: the engine's notes are true (`Engine.Sound`), where a tag stands
for the values of the matrix that carries it now. The reason is that no tag is ever drawn twice.
-/

namespace SymSolve

/-! ## Worlds -/

/-- An engine, the matrices of its caller, and the tags drawn so far. -/
structure World (α σ : Type) [Scalar α] where
  engine : Engine α σ
  tags : TagSource
  matrices : List (SymTriplets α)

/-- What a caller can do. Matrices are told by their places in the caller's list. -/
inductive Action (α : Type) where
  | ofTriplets (dim : Int) (rows cols : List Int) (values : Option (List α))
  | ofSparse (A : Sparse α)
  | ofTable (table : Grid α)
  /-- A tag is drawn for something that this engine does not see. -/
  | drawTag
  | setValues (place : Nat) (values : List α)
  | multiSolve (place : Nat) (rhs solutions : List (DenseVector α)) (demand : InertiaDemand)
  | increaseQuality
  | resetStructure

namespace World

section Scalar

variable {α σ : Type} [Scalar α]

/-- A caller with a new engine and no matrices. -/
def start (e : Engine α σ) (tags : TagSource) : World α σ := ⟨e, tags, []⟩

/-- Adds a matrix, if it can be made. -/
def adopt (w : World α σ) (make : Tagged ViewError (SymTriplets α)) : World α σ :=
  match make.exec w.tags with
  | (.ok A, tags) => { w with tags, matrices := w.matrices ++ [A] }
  | (.error _, tags) => { w with tags }

/-- Replaces the values of a matrix, if they are accepted. -/
def revise (w : World α σ) (place : Nat) (values : List α) : World α σ :=
  match w.matrices[place]? with
  | none => w
  | some A =>
    match (A.setValues values).exec w.tags with
    | (.ok A, tags) => { w with tags, matrices := w.matrices.set place A }
    | (.error _, tags) => { w with tags }

theorem engine_adopt (w : World α σ) (make : Tagged ViewError (SymTriplets α)) :
    (w.adopt make).engine = w.engine := by
  unfold adopt
  split <;> rfl

theorem engine_revise (w : World α σ) (place : Nat) (values : List α) :
    (w.revise place values).engine = w.engine := by
  unfold revise
  split
  · rfl
  · split <;> rfl

/-- Solves with a matrix. -/
def multiSolve (w : World α σ) (place : Nat) (rhs solutions : List (DenseVector α))
    (demand : InertiaDemand) : World α σ :=
  match w.matrices[place]? with
  | none => w
  | some A => { w with engine := (w.engine.multiSolve A.view rhs solutions demand).2 }

end Scalar

variable {α σ : Type} [RealScalar α] [Printable α]

/-- What comes of an action. -/
def step (w : World α σ) : Action α → World α σ
  | .ofTriplets dim rows cols values => w.adopt (SymTriplets.ofTriplets dim rows cols values)
  | .ofSparse A => w.adopt (SymTriplets.ofSparse A)
  | .ofTable table => w.adopt (SymTriplets.ofTable table)
  | .drawTag => { w with tags := ⟨w.tags.last + 1⟩ }
  | .setValues place values => w.revise place values
  | .multiSolve place rhs solutions demand => w.multiSolve place rhs solutions demand
  | .increaseQuality => { w with engine := (w.engine.exec Engine.increaseQuality).2 }
  | .resetStructure => { w with engine := w.engine.resetStructure }

/-- What comes of several actions, one after the other. -/
def run (w : World α σ) (actions : List (Action α)) : World α σ := actions.foldl step w

theorem run_concat (w : World α σ) (actions : List (Action α)) (action : Action α) :
    w.run (actions ++ [action]) = (w.run actions).step action :=
  List.foldl_concat ..

/-- What an action may make of the engine: nothing, what a call with an accepted matrix leaves, an
engine with another tolerance, or one without a structure. -/
inductive Turns (w : World α σ) : Action α → Engine α σ → Prop
  | idle {action : Action α} : Turns w action w.engine
  | solve {place : Nat} {A : SymTriplets α} {rhs solutions : List (DenseVector α)}
      {demand : InertiaDemand} (found : w.matrices[place]? = some A)
      (accepted : w.engine.usageFault? A.view rhs solutions demand = none) :
      Turns w (.multiSolve place rhs solutions demand)
        (w.engine.multiSolve A.view rhs solutions demand).2
  | raise (tolerance : α) (diagnostics : List (Event α)) :
      Turns w .increaseQuality { w.engine with
        tolerance
        session := w.engine.session.withTolerance tolerance
        phase := w.engine.phase.stale
        diagnostics }
  | reset : Turns w .resetStructure w.engine.resetStructure

theorem step_turns (w : World α σ) (action : Action α) : w.Turns action (w.step action).engine := by
  cases action with
  | ofTriplets dim rows cols values => exact w.engine_adopt _ ▸ .idle
  | ofSparse A => exact w.engine_adopt _ ▸ .idle
  | ofTable table => exact w.engine_adopt _ ▸ .idle
  | drawTag => exact .idle
  | setValues place values => exact w.engine_revise .. ▸ .idle
  | multiSolve place rhs solutions demand =>
    show w.Turns _ (w.multiSolve place rhs solutions demand).engine
    unfold multiSolve
    split
    · exact .idle
    · next A found =>
      cases used : w.engine.usageFault? A.view rhs solutions demand with
      | some cause =>
        rw [Engine.multiSolve_of_rejected used]
        exact .idle
      | none => exact .solve found used
  | increaseQuality =>
    show w.Turns _ (w.engine.exec Engine.increaseQuality).2
    rcases w.engine.exec_increaseQuality_cases with same | ⟨tolerance, diagnostics, raised⟩
    · rw [same]
      exact .idle
    · rw [raised]
      exact .raise tolerance diagnostics
  | resetStructure => exact .reset

/-- A caller with a new engine over the kernel `k` has got here. -/
def Arises (k : Kernel α σ) (w : World α σ) : Prop :=
  ∃ memory options state solverId providesInertia e tags actions,
    Engine.create memory options k state solverId providesInertia = .ok e ∧
      w = (World.start e tags).run actions

end World

/-! ## What holds in every world -/

namespace World

section Scalar

variable {α σ : Type} [Scalar α] {spec : KernelSpec α σ} {w w' : World α σ}

/-- The matrix that carries a tag has those values. -/
def Knows (w : World α σ) (tag : Nat) (values : List α) : Prop :=
  tag ≤ w.tags.last ∧ ∀ A ∈ w.matrices, A.tag = tag → A.values = values

/-- The engine's notes are true, and a tag tells values from one another. -/
structure InOrder (spec : KernelSpec α σ) (w : World α σ) : Prop where
  sound : Engine.Sound spec w.Knows w.engine
  drawn : ∀ A ∈ w.matrices, A.tag ≤ w.tags.last
  apart : ∀ A ∈ w.matrices, ∀ B ∈ w.matrices, A.tag = B.tag → A.values = B.values
  tolerance : w.engine.session.tolerance = w.engine.tolerance
  solver : w.engine.solverId ≠ ""

theorem InOrder.knows_iff (h : w.InOrder spec) {A : SymTriplets α} (hA : A ∈ w.matrices)
    (values : List α) : w.Knows A.tag values ↔ values = A.values := by
  constructor
  · rintro ⟨-, known⟩
    exact (known A hA rfl).symm
  · rintro rfl
    exact ⟨h.drawn A hA, fun B hB same => h.apart B hB A hA same⟩

/-- Tags may be drawn without any matrix getting one. -/
theorem InOrder.draw (h : w.InOrder spec) {tags : TagSource} (later : w.tags.last ≤ tags.last) :
    InOrder spec { w with tags } where
  sound := h.sound.mono fun _ _ known => ⟨Nat.le_trans known.1 later, known.2⟩
  drawn := fun A hA => Nat.le_trans (h.drawn A hA) later
  apart := h.apart
  tolerance := h.tolerance
  solver := h.solver

/-- A matrix with a new tag may come in. -/
theorem InOrder.insert (h : w.InOrder spec) {A : SymTriplets α} {tags : TagSource}
    {matrices : List (SymTriplets α)} (new : w.tags.last < A.tag) (drawn : A.tag ≤ tags.last)
    (old : ∀ B ∈ matrices, B = A ∨ B ∈ w.matrices) :
    InOrder spec { w with tags, matrices } where
  sound := h.sound.mono fun tag values known => by
    refine ⟨by have := known.1; show tag ≤ tags.last; omega, fun B hB same => ?_⟩
    rcases old B hB with rfl | hB
    · have := known.1
      omega
    · exact known.2 B hB same
  drawn := fun B hB => by
    rcases old B hB with rfl | hB
    · exact drawn
    · have := h.drawn B hB
      show B.tag ≤ tags.last
      omega
  apart := fun B hB C hC same => by
    rcases old B hB with rfl | hB <;> rcases old C hC with rfl | hC
    · rfl
    · have := h.drawn C hC
      omega
    · have := h.drawn B hB
      omega
    · exact h.apart B hB C hC same
  tolerance := h.tolerance
  solver := h.solver

theorem InOrder.adopt (h : w.InOrder spec) {make : Tagged ViewError (SymTriplets α)}
    (fresh : make.Fresh) : (w.adopt make).InOrder spec := by
  obtain ⟨later, new⟩ := fresh w.tags
  unfold World.adopt
  split
  · next A tags made =>
    rw [made] at new
    obtain ⟨new, drawn⟩ := new A rfl
    refine h.insert new drawn fun B hB => ?_
    simpa [or_comm] using hB
  · next cause tags made =>
    rw [made] at later
    exact h.draw later

theorem InOrder.revise (h : w.InOrder spec) (place : Nat) (values : List α) :
    (w.revise place values).InOrder spec := by
  unfold World.revise
  split
  · exact h
  · next A _ =>
    obtain ⟨later, new⟩ := A.fresh_setValues values w.tags
    split
    · next B tags made =>
      rw [made] at new
      obtain ⟨new, drawn⟩ := new B rfl
      exact h.insert new drawn fun C hC => (List.mem_or_eq_of_mem_set hC).symm
    · next cause tags made =>
      rw [made] at later
      exact h.draw later

theorem InOrder.multiSolve (h : w.InOrder spec) (met : spec.Met) (place : Nat)
    (rhs solutions : List (DenseVector α)) (demand : InertiaDemand) :
    (w.multiSolve place rhs solutions demand).InOrder spec := by
  unfold World.multiSolve
  split
  · exact h
  · next A found =>
    cases used : w.engine.usageFault? A.view rhs solutions demand with
    | some cause =>
      rw [Engine.multiSolve_of_rejected used]
      exact h
    | none =>
      obtain ⟨sound, steady, -⟩ := Engine.multiSolve_sound h.sound
        (Engine.usageFault?_eq_none.1 used) (met.factorizes _ _) met.backsolves A.length_values
        (h.knows_iff (List.mem_of_getElem? found))
      exact {
        sound
        drawn := h.drawn
        apart := h.apart
        tolerance := by
          rw [steady.tolerance, Engine.tolerance_captured, ← h.tolerance]
          simp only [Session.tolerance, steady.controls, Engine.session_captured]
        solver := by
          rw [steady.solverId, Engine.solverId_captured]
          exact h.solver }

theorem InOrder.resetStructure (h : w.InOrder spec) :
    InOrder spec { w with engine := w.engine.resetStructure } :=
  { h with sound := ⟨h.sound.admits, False.elim, False.elim, nofun⟩ }

end Scalar

variable {α σ : Type} [RealScalar α] [Printable α] {spec : KernelSpec α σ} {w : World α σ}

theorem InOrder.increaseQuality (h : w.InOrder spec) (met : spec.Met) :
    InOrder spec { w with engine := (w.engine.exec Engine.increaseQuality).2 } := by
  have raised (tolerance : α) : InOrder spec { w with engine := { w.engine with
      tolerance
      session := w.engine.session.withTolerance tolerance
      phase := w.engine.phase.stale } } := {
    sound := {
      admits := met.admits_withTolerance tolerance h.sound.admits
      capacity := fun analysed => h.sound.capacity (Phase.analysed_stale.1 analysed)
      ready := fun analysed => met.ready_withTolerance tolerance
        (h.sound.ready (Phase.analysed_stale.1 analysed))
      current := fun factorized => absurd factorized (Phase.stale_ne_factorized _) }
    drawn := h.drawn
    apart := h.apart
    tolerance := Vector.getElem_set_self ..
    solver := h.solver }
  rcases w.engine.exec_increaseQuality_cases with same | ⟨tolerance, diagnostics, changed⟩
  · rw [same]
    exact h
  · rw [changed]
    exact { raised tolerance with sound := { (raised tolerance).sound with } }

theorem InOrder.step (h : w.InOrder spec) (met : spec.Met) (action : Action α) :
    (w.step action).InOrder spec := by
  cases action with
  | ofTriplets dim rows cols values =>
    exact h.adopt (SymTriplets.construction_ofTriplets dim rows cols values).fresh
  | ofSparse A => exact h.adopt (SymTriplets.construction_ofSparse A).fresh
  | ofTable table => exact h.adopt (SymTriplets.construction_ofTable table).fresh
  | drawTag => exact h.draw (Nat.le_succ _)
  | setValues place values => exact h.revise place values
  | multiSolve place rhs solutions demand => exact h.multiSolve met ..
  | increaseQuality => exact h.increaseQuality met
  | resetStructure => exact h.resetStructure

/-- **Every world is in order**, if the kernel meets its specification. -/
theorem InOrder.run (h : w.InOrder spec) (met : spec.Met) (actions : List (Action α)) :
    (w.run actions).InOrder spec := by
  induction actions generalizing w with
  | nil => exact h
  | cons action actions ih => exact ih (h.step met action)

omit [Printable α] in
theorem new_of_create {memory : Memory} {options : Options α} {kernel : Kernel α σ} {state : σ}
    {solverId : String} {providesInertia : Bool} {e : Engine α σ}
    (created : Engine.create memory options kernel state solverId providesInertia = .ok e) :
    e.session.kernel = kernel ∧ e.phase = .uninitialized := by
  unfold Engine.create at created
  split at created <;> cases created
  exact ⟨rfl, rfl⟩

omit [Printable α] in
theorem inOrder_start {memory : Memory} {options : Options α} {kernel : Kernel α σ} {state : σ}
    {solverId : String} {providesInertia : Bool} {e : Engine α σ}
    (created : Engine.create memory options kernel state solverId providesInertia = .ok e)
    (tags : TagSource) (admits : spec.Admits e.session) : (start e tags).InOrder spec := by
  unfold Engine.create at created
  split at created
  · cases created
  · next named =>
    cases created
    exact ⟨⟨admits, False.elim, False.elim, nofun⟩, nofun, nofun, Vector.getElem_set_self ..,
      named⟩

end World

end SymSolve
