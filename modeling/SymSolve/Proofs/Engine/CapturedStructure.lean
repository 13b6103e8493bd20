import SymSolve.Proofs.Engine.Reached
import SymSolve.Proofs.Engine.Record

/-!
# The structure a matrix is solved with

The positions of the entries are captured from the first matrix after a reset; of later matrices
the engine looks at the dimension and the number of entries, and takes only the values.

**Theorem (`kernel_gets_own_pattern_iff`).** A call that is not rejected makes the kernel work with
the positions of its own matrix exactly if no structure was captured before, or the captured
positions are those of the matrix, or the kernel is not called at all. A matrix whose dimension or
number of entries differs from the captured one is rejected, and the engine stays as it is.

**Theorem (`kernel_gets_foreign_pattern`).** Two matrices with equally many entries are not told
apart: the second one is factorized with the positions of the first.
-/

namespace SymSolve

open Engine

variable {α σ : Type} [RealScalar α] [Printable α] {k : Kernel α σ}

/-- All calls in `new` work with a pattern: they are given it, or they solve with factors that were
made for it. -/
def UsesPattern (p : Pattern) (before new : List (KernelCall α)) : Prop :=
  (∀ c ∈ new, ∀ q, c.pattern? = some q → q = p) ∧
    ∀ earlier c later s, new = earlier ++ c :: later → c.solve? = some s →
      ∃ f, latest? KernelCall.factorization? (before ++ earlier) = some f ∧ f.pattern = p

omit [RealScalar α] [Printable α] in
/-- Calls that are made determine the pattern they use. -/
theorem UsesPattern.unique {p q : Pattern} {before new : List (KernelCall α)}
    (hp : UsesPattern p before new) (hq : UsesPattern q before new) (called : new ≠ []) :
    p = q := by
  obtain ⟨c, rest, rfl⟩ := List.exists_cons_of_ne_nil called
  cases pattern : c.pattern? with
  | some r =>
    exact (hp.1 c List.mem_cons_self r pattern).symm.trans (hq.1 c List.mem_cons_self r pattern)
  | none =>
    obtain ⟨s, hs⟩ : ∃ s, c.solve? = some s := by
      cases c with
      | solve => exact ⟨_, rfl⟩
      | analyse => cases pattern
      | factorize => cases pattern
    obtain ⟨f, latest, rfl⟩ := hp.2 [] c rest s rfl hs
    obtain ⟨g, latest', rfl⟩ := hq.2 [] c rest s rfl hs
    rw [Option.some.inj (latest.symm.trans latest')]

omit [Printable α] in
theorem Engine.Records.usesPattern {e e' : Engine α (Recorded α σ)} {m : MatrixView α}
    {prepares solves : List (KernelCall α)} (h : Records k e e' m prepares solves) :
    UsesPattern (e.captured m).pattern e.calls (prepares ++ solves) := by
  refine ⟨fun c hc q hq => ?_, fun earlier c later s split hs => ?_⟩
  · rcases List.mem_append.1 hc with hc | hc
    · obtain ⟨earlier, later, split⟩ := List.append_of_mem hc
      rw [KernelCall.pattern?_of_serves (h.serves _ _ _ split)] at hq
      exact (Option.some.inj hq).symm
    · obtain ⟨s, -, -, hs, -⟩ := h.rests c hc
      rw [KernelCall.pattern?_of_solve? hs] at hq
      cases hq
  · obtain ⟨hc, latest⟩ := h.of_solve split hs
    obtain ⟨_, f, _, _, found, made, -⟩ := h.rests c hc
    exact ⟨f, latest.trans found, made.pattern⟩

/-- The matrix has another dimension, or another number of entries, than the captured one. -/
def Engine.OtherCounts (e : Engine α σ) (m : MatrixView α) : Prop :=
  e.phase ≠ .uninitialized ∧ ((m.dim : Int) ≠ e.dim ∨ m.nonzeros ≠ e.nonzeros)

/-- **When the kernel gets the positions of the matrix.** -/
theorem kernel_gets_own_pattern_iff {w : World α (Recorded α σ)} (reached : w.Reached k)
    {A : SymTriplets α} (hA : A ∈ w.matrices) (rhs solutions : List (DenseVector α))
    (demand : InertiaDemand) :
    (w.engine.usageFault? A.view rhs solutions demand = none →
      ∃ new, (w.engine.multiSolve A.view rhs solutions demand).2.calls = w.engine.calls ++ new ∧
        (UsesPattern (.ofView A.view) w.engine.calls new ↔
          new = [] ∨ w.engine.phase = .uninitialized ∨ w.engine.pattern = .ofView A.view)) ∧
    (w.engine.OtherCounts A.view → ∃ cause,
      w.engine.multiSolve A.view rhs solutions demand =
        (⟨.error (.usage cause), solutions⟩, w.engine)) := by
  have order := reached.inOrder
  constructor
  · intro accepted
    obtain ⟨prepares, solves, records⟩ := record_multiSolve order.sound
      (usageFault?_eq_none.1 accepted) A.length_values (order.knows_iff hA)
    refine ⟨_, records.added, ?_, ?_⟩
    · intro uses
      by_cases none : prepares ++ solves = []
      · exact .inl none
      · exact .inr ((pattern_captured_iff ..).1 (records.usesPattern.unique uses none))
    · rintro (none | own)
      · rw [none]
        exact ⟨nofun, fun earlier c later s split => by simp at split⟩
      · rw [← (pattern_captured_iff ..).2 own]
        exact records.usesPattern
  · rintro ⟨captured, other⟩
    cases used : w.engine.usageFault? A.view rhs solutions demand with
    | some cause => exact ⟨cause, multiSolve_of_rejected used⟩
    | none =>
      have accepted := usageFault?_eq_none.1 used
      rcases other with other | other
      · exact absurd (accepted.sameDim captured) other
      · exact absurd (accepted.sameCount captured) other

/-! ## Two matrices with equally many entries -/

/-- A caller who solved with a matrix that has entries at `(0, 0)` and `(1, 0)`, and also has one
with entries at `(0, 0)` and `(1, 1)`. -/
def twoStructures : World ℚ (Recorded ℚ (Script ℚ)) :=
  (World.start (scriptedEngine ⟨[], [], []⟩) ⟨0⟩).run [
    .ofTriplets 2 [0, 1] [0, 0] (some [2, 1]), .ofTriplets 2 [0, 1] [0, 1] (some [2, 1]),
    .multiSolve 0 [⟨[1, 1]⟩] [⟨[0, 0]⟩] none]

theorem twoStructures_matrices : 1 < twoStructures.matrices.length := by decide +kernel

/-- The second matrix. -/
def diagonal : SymTriplets ℚ := twoStructures.matrices.get ⟨1, twoStructures_matrices⟩

theorem kernel_gets_own_pattern_iff_diagonal :
    ∃ new, (twoStructures.engine.multiSolve diagonal.view [⟨[1, 1]⟩] [⟨[0, 0]⟩] none).2.calls =
        twoStructures.engine.calls ++ new ∧
      (UsesPattern (.ofView diagonal.view) twoStructures.engine.calls new ↔ new = []) := by
  obtain ⟨new, added, uses⟩ := (kernel_gets_own_pattern_iff (w := twoStructures)
    (reached_scripted _ _) (List.get_mem _ ⟨1, twoStructures_matrices⟩) [⟨[1, 1]⟩] [⟨[0, 0]⟩]
    none).1 (by decide +kernel)
  refine ⟨new, added, uses.trans (or_iff_left ?_)⟩
  decide +kernel

/-- **The second structure is taken for the first.** -/
theorem kernel_gets_foreign_pattern :
    twoStructures.Reached scripted ∧ diagonal ∈ twoStructures.matrices ∧
      let (answer, e) := twoStructures.engine.multiSolve diagonal.view [⟨[1, 1]⟩] [⟨[0, 0]⟩] none
      answer.result = .ok .success ∧
        (e.calls.drop twoStructures.engine.calls.length).filterMap KernelCall.pattern? =
          [⟨2, [1, 2], [1, 1]⟩] ∧
        Pattern.ofView diagonal.view = ⟨2, [1, 2], [1, 2]⟩ :=
  ⟨reached_scripted _ _, List.get_mem _ ⟨1, twoStructures_matrices⟩, by decide +kernel⟩

end SymSolve
