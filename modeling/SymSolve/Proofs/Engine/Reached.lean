import SymSolve.Kernel.Scripted
import SymSolve.Proofs.Engine.Calls
import SymSolve.Proofs.Engine.World
import SymSolve.Proofs.Exact

/-!
# Worlds in which the kernel keeps a record

`World.Reached k w` says that a caller with a new engine over the kernel `k` has got to `w`. In such
a world the notes of the engine are true of the record (`Reached.inOrder`).

A kernel that follows a script serves for runs on given inputs: over exact scalars they can be
computed.
-/

namespace SymSolve

section Reached

variable {α σ : Type} [RealScalar α] [Printable α] {k : Kernel α σ}

namespace World

/-- A caller with a new engine, whose kernel keeps a record, has got here. -/
def Reached (k : Kernel α σ) (w : World α (Recorded α σ)) : Prop :=
  ∃ memory options state solverId providesInertia e tags actions,
    Engine.create memory options k.recorded ⟨state, []⟩ solverId providesInertia = .ok e ∧
      w = (World.start e tags).run actions

theorem Reached.arises {w : World α (Recorded α σ)} (h : w.Reached k) : w.Arises k.recorded := by
  obtain ⟨memory, options, state, solverId, providesInertia, e, tags, actions, created, rfl⟩ := h
  exact ⟨memory, options, ⟨state, []⟩, solverId, providesInertia, e, tags, actions, created, rfl⟩

theorem Reached.run {w : World α (Recorded α σ)} (h : w.Reached k) (actions : List (Action α)) :
    (w.run actions).Reached k := by
  obtain ⟨memory, options, state, solverId, providesInertia, e, tags, before, created, rfl⟩ := h
  exact ⟨memory, options, state, solverId, providesInertia, e, tags, before ++ actions, created,
    List.foldl_append.symm⟩

theorem Reached.step {w : World α (Recorded α σ)} (h : w.Reached k) (action : Action α) :
    (w.step action).Reached k := h.run [action]

theorem Reached.inOrder {w : World α (Recorded α σ)} (h : w.Reached k) :
    w.InOrder (recordSpec k fun _ _ => True) := by
  obtain ⟨memory, options, state, solverId, providesInertia, e, tags, actions, created, rfl⟩ := h
  have admits : (recordSpec k fun _ _ => True).Admits e.session :=
    ⟨(new_of_create created).1, trivial⟩
  exact (inOrder_start created tags admits).run (recordSpec_met) actions

end World

end Reached

/-! ## Engines over exact scalars -/

/-- The options that are used where nothing else is said. -/
def exactOptions : Options ℚ :=
  { Settings.standard with source := .constructed, valid := by decide +kernel }

/-- A new engine over exact scalars. -/
def exactEngine {σ : Type} (kernel : Kernel ℚ σ) (state : σ) : Engine ℚ σ where
  memory := .unlimited
  options := exactOptions
  solverId := "exact"
  providesInertia := true
  session := (Session.start kernel state).withTolerance exactOptions.tolerance
  tolerance := exactOptions.tolerance
  phase := .uninitialized
  matrixTag := 0
  pattern := .empty
  nonzeros := 0
  workspace := .empty
  pending := .none
  negative := none
  solveCount := 0
  factorizationCount := 0
  diagnostics := []
  trace := []

theorem create_exactEngine {σ : Type} (kernel : Kernel ℚ σ) (state : σ) :
    Engine.create .unlimited exactOptions kernel state "exact" true = .ok (exactEngine kernel state) :=
  rfl

/-! ## A kernel with a script -/

/-- A kernel that follows a script. -/
def scripted : Kernel ℚ (Script ℚ) := Script.kernel "scripted" ⟨1, 1, 0⟩

theorem scripted_leavesFactors : scripted.LeavesFactors := by
  intro _ _ _ script dim a iw rhs
  simp only [scripted, Script.kernel]
  split <;> exact ⟨rfl, rfl⟩

/-- A new engine over a kernel that follows a script. -/
def scriptedEngine (script : Script ℚ) : Engine ℚ (Recorded ℚ (Script ℚ)) :=
  exactEngine scripted.recorded ⟨script, []⟩

theorem reached_scripted (script : Script ℚ) (actions : List (Action ℚ)) :
    ((World.start (scriptedEngine script) ⟨0⟩).run actions).Reached scripted :=
  ⟨_, _, script, _, _, scriptedEngine script, ⟨0⟩, actions, create_exactEngine .., rfl⟩

end SymSolve
