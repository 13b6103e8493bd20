import Mathlib.Data.List.FinRange
import Mathlib.Data.List.Induction
import SymSolve.Multipliers
import SymSolve.Proofs.Engine.CapturedStructure
import SymSolve.Proofs.Engine.Consistency

/-!
# The multiplier calculator and its engine

A calculator keeps the augmented matrix of the last Jacobian it could use and the pattern it was
made for; its engine keeps the captured structure. The three are updated at different points of a
call, and a call may end in between.

**Theorem (`calculator_stays_in_step`).** A calculator that has an engine for itself never gets a
usage error from it. All calls of the kernel work on the augmented matrix of the Jacobian at hand,
and the analysis is not repeated as long as the pattern is the one of the last matrix that was
made.

**Proof.** A call of the calculator is a few actions of a caller (`World.step`), so what is known of
reached worlds holds of it. The invariant (`InStep`) says that the engine has no structure, or has
the structure of the calculator's matrix.
-/

namespace SymSolve

/-! ## The augmented matrix -/

section Augmented

variable {α : Type}

/-- The places of the augmented matrix that have entries: the diagonal of the identity, the entries
of the Jacobian below it, and the diagonal of the zero block. -/
def augmentedPlaces (J : Sparse α) :
    List (Fin (J.width + J.height) × Fin (J.width + J.height)) :=
  (List.finRange J.width).map (fun i => (i.castAdd J.height, i.castAdd J.height)) ++
    J.entries.map (fun e => (e.row.natAdd J.width, e.col.castAdd J.height)) ++
    (List.finRange J.height).map fun r => (r.natAdd J.width, r.natAdd J.width)

/-- The structure of the augmented matrix, counted from one. -/
def augmentedPattern (J : Sparse α) : Pattern where
  dim := J.width + J.height
  rows := (augmentedPlaces J).map fun p => (p.1.val : Int) + 1
  cols := (augmentedPlaces J).map fun p => (p.2.val : Int) + 1

variable [Scalar α]

/-- The values at a place of `[[I, Jᵀ], [J, 0]]`, on and below the diagonal. -/
def augmentedBlocks (J : Sparse α) (i j : Fin (J.width + J.height)) : List α :=
  Fin.addCases (fun i => j.addCases (fun j => if i = j then [1] else []) fun _ => [])
    (fun r => j.addCases (fun c => J.valuesAt r c) fun s => if r = s then [0] else []) i

omit [Scalar α] in
theorem augmented_eq (J : Sparse α) :
    (JacobianPattern.ofSparse J).augmented =
      (augmentedPlaces J).map fun p => ((p.1.val : Int), (p.2.val : Int)) := by
  have ones : (List.range J.width).map (fun (i : Nat) => ((i : Int), (i : Int))) =
      (List.finRange J.width).map fun i => ((i.val : Int), (i.val : Int)) := by
    rw [← List.map_coe_finRange_eq_range, List.map_map]
    rfl
  have zeros : (List.range' J.width J.height).map (fun (i : Nat) => ((i : Int), (i : Int))) =
      (List.finRange J.height).map fun r => (((J.width + r.val : Nat) : Int),
        ((J.width + r.val : Nat) : Int)) := by
    rw [List.range'_eq_map_range, ← List.map_coe_finRange_eq_range, List.map_map, List.map_map]
    rfl
  have entries : ((JacobianPattern.ofSparse J).positions.map fun p =>
      ((p.1 : Int) + J.width, (p.2 : Int))) =
      J.entries.map fun e => (((J.width + e.row.val : Nat) : Int), (e.col.val : Int)) := by
    rw [JacobianPattern.ofSparse, List.map_map]
    refine List.map_congr_left fun e _ => ?_
    simp only [Function.comp_apply, Nat.cast_add, Int.add_comm]
  unfold JacobianPattern.augmented augmentedPlaces
  rw [List.map_append, List.map_append, List.map_map, List.map_map, List.map_map]
  exact congrArg₂ _ (congrArg₂ _ ones entries) zeros

/-- The structure of the augmented matrix of a pattern, counted from one. -/
def JacobianPattern.oneBased (p : JacobianPattern) : Pattern where
  dim := p.dim
  rows := p.augmented.map fun place => place.1 + 1
  cols := p.augmented.map fun place => place.2 + 1

omit [Scalar α] in
theorem oneBased_ofSparse (J : Sparse α) :
    (JacobianPattern.ofSparse J).oneBased = augmentedPattern J := by
  unfold JacobianPattern.oneBased augmentedPattern
  rw [augmented_eq, List.map_map, List.map_map]
  rfl

theorem length_augmentedValues (J : Sparse α) :
    (augmentedValues J).length = (augmentedPlaces J).length := by
  simp [augmentedValues, augmentedPlaces]

/-- Values for the places of a matrix with the structure of the augmented one. -/
theorem length_augmentedValues_of {A : SymTriplets α} {J : Sparse α}
    (placed : Pattern.ofView A.view = augmentedPattern J) :
    (augmentedValues J).length = A.nonzeros := by
  have rows := congrArg (fun p : Pattern => p.rows.length) placed
  simp only [Pattern.ofView, augmentedPattern, SymTriplets.view, List.length_map] at rows
  rw [length_augmentedValues]
  exact rows.symm

/-- The places of the augmented matrix, each with its value. -/
theorem zip_augmented (J : Sparse α) :
    (augmentedPlaces J).zip (augmentedValues J) =
      (List.finRange J.width).map (fun i => ((i.castAdd J.height, i.castAdd J.height), 1)) ++
        J.entries.map (fun e => ((e.row.natAdd J.width, e.col.castAdd J.height), e.value)) ++
        (List.finRange J.height).map fun r => ((r.natAdd J.width, r.natAdd J.width), 0) := by
  have repeated (n : Nat) (v : α) : List.replicate n v = (List.finRange n).map fun _ => v := by
    rw [List.map_const', List.length_finRange]
  unfold augmentedPlaces augmentedValues
  rw [List.zip_append (by simp), List.zip_append (by simp), repeated, repeated, List.zip_map',
    List.zip_map', List.zip_map']

theorem castAdd_ne_natAdd {m n : Nat} (i : Fin m) (r : Fin n) : i.castAdd n ≠ r.natAdd m := by
  have i_lt := i.isLt
  simp only [ne_eq, Fin.ext_iff, Fin.val_castAdd, Fin.val_natAdd]
  omega

/-- A diagonal has each of its places once. -/
theorem filter_diagonal {n : Nat} (i j : Fin n) :
    (List.finRange n).filter (fun k => k = i && k = j) = if i = j then [i] else [] := by
  split
  · next same =>
    simp only [same, Bool.and_self]
    rw [List.filter_eq, List.count_eq_one_of_mem (List.nodup_finRange n) (List.mem_finRange j)]
    rfl
  · next apart =>
    rw [List.filter_eq_nil_iff]
    rintro k - both
    simp only [Bool.and_eq_true, decide_eq_true_eq] at both
    exact apart (both.1.symm.trans both.2)

/-- **The blocks of the augmented matrix**: what is placed where. -/
theorem augmented_blocks (J : Sparse α) (i j : Fin (J.width + J.height)) :
    (((augmentedPlaces J).zip (augmentedValues J)).filter fun w => w.1 = (i, j)).map Prod.snd =
      augmentedBlocks J i j := by
  have below {m n : Nat} (r : Fin n) (i : Fin m) : r.natAdd m ≠ i.castAdd n :=
    (castAdd_ne_natAdd i r).symm
  simp only [zip_augmented, List.filter_append, List.filter_map, List.map_append, List.map_map,
    Function.comp_def, Prod.mk.injEq, Bool.decide_and]
  cases i using Fin.addCases with
  | left i =>
    cases j using Fin.addCases with
    | left j =>
      simp [augmentedBlocks, below, filter_diagonal]
      split <;> rfl
    | right s => simp [augmentedBlocks, below, castAdd_ne_natAdd]
  | right r =>
    cases j using Fin.addCases with
    | left c => simp [augmentedBlocks, below, castAdd_ne_natAdd, Sparse.valuesAt, Fin.val_inj]
    | right s =>
      simp [augmentedBlocks, castAdd_ne_natAdd, filter_diagonal]
      split <;> rfl

end Augmented

/-! ## The matrix of a Jacobian -/

section Matrix

variable {α : Type} [Scalar α]

/-- The augmented matrix of a Jacobian. -/
def augmentedMatrix (J : Sparse α) (tag : Nat) : SymTriplets α :=
  (SymTriplets.zeroAt (augmentedPlaces J) 0).withValues (augmentedValues J) tag

theorem view_augmentedMatrix (J : Sparse α) (tag : Nat) :
    (augmentedMatrix J tag).view =
      { (SymTriplets.zeroAt (augmentedPlaces J) 0 : SymTriplets α).view with
        values := augmentedValues J, tag } := by
  refine SymTriplets.view_withValues tag ?_
  rw [length_augmentedValues]
  simp [SymTriplets.nonzeros, SymTriplets.zeroAt]

theorem pattern_augmentedMatrix (J : Sparse α) (tag : Nat) :
    Pattern.ofView (augmentedMatrix J tag).view = augmentedPattern J := by
  rw [view_augmentedMatrix, SymTriplets.view_zeroAt]
  simp only [Pattern.ofView, augmentedPattern, List.map_map]
  rfl

/-- Makes the augmented matrix of a Jacobian. -/
def makeAugmented (J : Sparse α) : Tagged ViewError (SymTriplets α) :=
  let positions := (JacobianPattern.ofSparse J).augmented
  SymTriplets.ofTriplets (JacobianPattern.ofSparse J).dim (positions.map Prod.fst)
    (positions.map Prod.snd) (some (augmentedValues J))

/-- It is made unless a value is not finite. -/
theorem exec_makeAugmented (J : Sparse α) (source : TagSource) :
    (makeAugmented J).exec source =
      if (augmentedValues J).all Scalar.isFinite then
        (.ok (augmentedMatrix J (source.last + 2)), ⟨source.last + 2⟩)
      else (.error .notFinite, ⟨source.last + 1⟩) := by
  unfold makeAugmented
  dsimp only
  rw [augmented_eq, List.map_map, List.map_map]
  refine (SymTriplets.exec_ofTriplets (augmentedPlaces J) (augmentedValues J) source).trans ?_
  have fits : (augmentedValues J).length =
      (SymTriplets.zeroAt (augmentedPlaces J) (source.last + 1) : SymTriplets α).nonzeros := by
    rw [length_augmentedValues]
    simp [SymTriplets.nonzeros, SymTriplets.zeroAt]
  rw [SymTriplets.exec_setValues, SymTriplets.refusal?, if_neg (not_not_intro fits)]
  cases (augmentedValues J).all Scalar.isFinite <;> rfl

end Matrix

/-! ## Requests -/

/-- There are as many entries as the shape says. -/
def Grid.Full {α : Type} (g : Grid α) : Prop := g.entries.length = g.shape.prod

/-- What happens to a calculator and to the source of its tags. -/
inductive Request (α : Type) where
  | multipliers (jacobian : SparseArgument α) (gradient : Grid α) (full : gradient.Full)
  /-- A tag is drawn for something that the calculator does not see. -/
  | drawTag

namespace Request

variable {α : Type} [Scalar α]

/-- The pattern of the matrix that a request makes, if it makes one: the gradient must have the
right length, there must be a constraint, and all values must be finite. -/
def made? : Request α → Option JacobianPattern
  | multipliers (.sparse J) gradient _ =>
    if gradient.shape = [J.merged.width] ∧ J.merged.height ≠ 0 ∧
        (augmentedValues J.merged).all Scalar.isFinite then some (.ofSparse J.merged)
    else none
  | _ => none

/-- The pattern of the last matrix that was made. -/
def lastMade? (requests : List (Request α)) : Option JacobianPattern :=
  requests.reverse.findSome? made?

theorem lastMade?_concat (requests : List (Request α)) (r : Request α) :
    lastMade? (requests ++ [r]) = r.made?.or (lastMade? requests) := by
  simp only [lastMade?, List.reverse_append, List.reverse_singleton, List.singleton_append,
    List.findSome?_cons]
  cases r.made? <;> rfl

end Request

namespace LeastSquares

variable {α σ : Type} [Scalar α]

/-- What a request makes of a calculator and of the source of tags. -/
def serve (now : LeastSquares α σ × TagSource) : Request α → LeastSquares α σ × TagSource
  | .multipliers jacobian gradient _ => (now.1.multipliers jacobian gradient now.2).2
  | .drawTag => (now.1, ⟨now.2.last + 1⟩)

/-- What several requests make of them, one after the other. -/
def serveAll (now : LeastSquares α σ × TagSource) (requests : List (Request α)) :
    LeastSquares α σ × TagSource := requests.foldl serve now

theorem serveAll_concat (now : LeastSquares α σ × TagSource) (requests : List (Request α))
    (r : Request α) : serveAll now (requests ++ [r]) = serve (serveAll now requests) r :=
  List.foldl_concat ..

/-- Keeps a matrix that was made, with its pattern. -/
def keep (c : LeastSquares α σ) (p : JacobianPattern) :
    Except ViewError (SymTriplets α) × TagSource →
      Except ViewError (SymTriplets α) × LeastSquares α σ × TagSource
  | (.ok A, source) => (.ok A, { c with matrix := some (p, A) }, source)
  | (.error cause, source) => (.error cause, c, source)

theorem keep_run (c : LeastSquares α σ) (pattern : JacobianPattern)
    (make : Tagged ViewError (SymTriplets α)) (source : TagSource) :
    (match make.run.run source with
      | (.ok A, after) => (.ok A, { c with matrix := some (pattern, A) }, after)
      | (.error cause, after) => (.error cause, c, after)) =
    c.keep pattern (make.exec source) := by
  rw [Tagged.exec]
  rcases make.run.run source with ⟨_ | _, _⟩ <;> rfl

theorem update_eq (c : LeastSquares α σ) (J : Sparse α) (source : TagSource) :
    c.update J source = match c.matrix with
      | none => c.keep (.ofSparse J) ((makeAugmented J).exec source)
      | some (old, A) =>
        if .ofSparse J = old then
          c.keep (.ofSparse J) ((A.setValues (augmentedValues J)).exec source)
        else { c with engine := c.engine.resetStructure }.keep (.ofSparse J)
          ((makeAugmented J).exec source) := by
  obtain ⟨e, matrix⟩ := c
  unfold update
  rcases matrix with _ | ⟨old, A⟩
  · exact keep_run ⟨e, none⟩ _ (makeAugmented J) source
  · by_cases same : .ofSparse J = old
    · simp only [if_pos same]
      exact keep_run ⟨e, some (old, A)⟩ _ (A.setValues (augmentedValues J)) source
    · simp only [if_neg same]
      exact keep_run ⟨e.resetStructure, some (old, A)⟩ _ (makeAugmented J) source

end LeastSquares

/-! ## In step -/

/-- All calls in `new` work on a matrix: they get its pattern and its values, or they solve with
factors for which these were given. -/
structure WorksOn {α : Type} (p : Pattern) (values : List α) (before new : List (KernelCall α)) :
    Prop where
  placed : ∀ c ∈ new, ∀ q, c.pattern? = some q → q = p
  filled : ∀ c ∈ new, ∀ f, c.factorization? = some f → values <+: f.a.toList
  solves : ∀ earlier c later s, new = earlier ++ c :: later → c.solve? = some s →
    ∃ f, latest? KernelCall.factorization? (before ++ earlier) = some f ∧ f.pattern = p ∧
      values <+: f.a.toList

theorem worksOn_nil {α : Type} (p : Pattern) (values : List α) (before : List (KernelCall α)) :
    WorksOn p values before [] := ⟨nofun, nofun, by simp⟩

section

open Engine

variable {α σ : Type} [RealScalar α] [Printable α] {k : Kernel α σ}

omit [Printable α] in
theorem Engine.Records.worksOn {e e' : Engine α (Recorded α σ)} {m : MatrixView α}
    {prepares solves : List (KernelCall α)} (h : Records k e e' m prepares solves) :
    WorksOn (e.captured m).pattern m.values e.calls (prepares ++ solves) := by
  refine ⟨h.usesPattern.1, fun c hc f hf => ?_, fun earlier c later s split hs => ?_⟩
  · obtain ⟨earlier, later, split⟩ := List.append_of_mem hc
    obtain ⟨rest, prepared⟩ := h.of_factorization split hf
    exact (KernelCall.serves_of_factorization hf (h.serves _ _ _ prepared)).2.1
  · obtain ⟨hc, latest⟩ := h.of_solve split hs
    obtain ⟨_, f, _, _, found, made, -⟩ := h.rests c hc
    exact ⟨f, latest.trans found, made.pattern, made.values⟩

/-- The engine has no structure, or that of the matrix. -/
def Engine.Fits (m : MatrixView α) (e : Engine α σ) : Prop :=
  e.phase = .uninitialized ∨ e.pattern = .ofView m ∧ e.nonzeros = m.nonzeros

/-- A calculator in a world of its own: its engine is the one of the world, its matrix is one of
those in the world and has the places of its pattern, and the engine fits the matrix. -/
structure InStep (k : Kernel α σ) (c : LeastSquares α (Recorded α σ))
    (w : World α (Recorded α σ)) : Prop where
  reached : w.Reached k
  engine : c.engine = w.engine
  idle : c.matrix = none → w.engine.phase = .uninitialized
  kept : ∀ p A, c.matrix = some (p, A) → A ∈ w.matrices ∧ Pattern.ofView A.view = p.oneBased ∧
    w.engine.Fits A.view

/-- What comes of an update: the calculator is in step with some world. If a value is not finite
then the matrix stays, and otherwise it is that of the Jacobian. The engine is left alone, but
forgets its structure if the pattern is another one. -/
structure Updated (k : Kernel α σ) (c : LeastSquares α (Recorded α σ)) (J : Sparse α)
    (result : Except ViewError (SymTriplets α)) (c' : LeastSquares α (Recorded α σ))
    (w' : World α (Recorded α σ)) : Prop where
  inStep : InStep k c' w'
  calls : c'.engine.calls = c.engine.calls
  same : c.matrix.map Prod.fst = some (.ofSparse J) → c'.engine = c.engine
  made : ∀ A, result = .ok A → c'.matrix = some (.ofSparse J, A) ∧ A.values = augmentedValues J ∧
    (augmentedValues J).all Scalar.isFinite
  refused : ∀ cause, result = .error cause → c'.matrix.map Prod.fst = c.matrix.map Prod.fst ∧
    ¬ (augmentedValues J).all Scalar.isFinite

variable {c : LeastSquares α (Recorded α σ)} {w : World α (Recorded α σ)}

/-- A new matrix, for an engine without a structure. -/
theorem updated_new (c₁ : LeastSquares α (Recorded α σ)) (reached : w.Reached k)
    (engine : c₁.engine = w.engine) (new : w.engine.phase = .uninitialized)
    (calls : c₁.engine.calls = c.engine.calls) (matrix : c₁.matrix = c.matrix) (J : Sparse α)
    (other : c.matrix.map Prod.fst ≠ some (.ofSparse J))
    (kept : ∀ p A, c.matrix = some (p, A) →
      A ∈ w.matrices ∧ Pattern.ofView A.view = p.oneBased) :
    let done := c₁.keep (.ofSparse J) ((makeAugmented J).exec w.tags)
    ∃ w', w'.tags = done.2.2 ∧ Updated k c J done.1 done.2.1 w' := by
  intro done
  let w' := w.adopt (makeAugmented J)
  have reached' : w'.Reached k :=
    let positions := (JacobianPattern.ofSparse J).augmented
    reached.step (.ofTriplets (JacobianPattern.ofSparse J).dim (positions.map Prod.fst)
      (positions.map Prod.snd) (some (augmentedValues J)))
  have made := exec_makeAugmented J w.tags
  by_cases finite : (augmentedValues J).all Scalar.isFinite
  · rw [if_pos finite] at made
    have adopted : w' = { w with
        tags := ⟨w.tags.last + 2⟩
        matrices := w.matrices ++ [augmentedMatrix J (w.tags.last + 2)] } := by
      simp only [w', World.adopt, made]
    have stored : done = (.ok (augmentedMatrix J (w.tags.last + 2)),
        { c₁ with matrix := some (.ofSparse J, augmentedMatrix J (w.tags.last + 2)) },
        ⟨w.tags.last + 2⟩) := by
      simp only [done, made, LeastSquares.keep]
    rw [stored]
    refine ⟨w', by rw [adopted], ?_⟩
    exact {
      inStep := {
        reached := reached'
        engine := by rw [adopted]; exact engine
        idle := by rintro ⟨⟩
        kept := by
          rintro _ _ ⟨⟩
          rw [adopted]
          refine ⟨by simp, ?_, .inl new⟩
          rw [pattern_augmentedMatrix, oneBased_ofSparse] }
      calls
      same := fun same => absurd same other
      made := by
        rintro _ ⟨⟩
        exact ⟨rfl, congrArg MatrixView.values (view_augmentedMatrix J _), finite⟩
      refused := by rintro _ ⟨⟩ }
  · rw [if_neg finite] at made
    have adopted : w' = { w with tags := ⟨w.tags.last + 1⟩ } := by
      simp only [w', World.adopt, made]
    have stored : done = (.error .notFinite, c₁, ⟨w.tags.last + 1⟩) := by
      simp only [done, made, LeastSquares.keep]
    rw [stored]
    refine ⟨w', by rw [adopted], ?_⟩
    exact {
      inStep := {
        reached := reached'
        engine := by rw [adopted]; exact engine
        idle := fun _ => by rw [adopted]; exact new
        kept := by
          rw [adopted, matrix]
          exact fun p A h => ⟨(kept p A h).1, (kept p A h).2, .inl new⟩ }
      calls
      same := fun same => absurd same other
      made := nofun
      refused := fun _ _ => ⟨by rw [matrix], finite⟩ }

/-- Other values, at the places of the old ones. -/
theorem InStep.updated_values (h : InStep k c w) {A : SymTriplets α} (J : Sparse α)
    (matrix : c.matrix = some (.ofSparse J, A)) :
    let done := c.keep (.ofSparse J) ((A.setValues (augmentedValues J)).exec w.tags)
    ∃ w', w'.tags = done.2.2 ∧ Updated k c J done.1 done.2.1 w' := by
  intro done
  obtain ⟨hA, placed, fits⟩ := h.kept _ A matrix
  obtain ⟨place, found⟩ := List.mem_iff_getElem?.1 hA
  have within : place < w.matrices.length := (List.getElem?_eq_some_iff.1 found).1
  let w' := w.revise place (augmentedValues J)
  have reached' : w'.Reached k := h.reached.step (.setValues place (augmentedValues J))
  have counted := length_augmentedValues_of (placed.trans (oneBased_ofSparse J))
  have made := SymTriplets.exec_setValues A (augmentedValues J) w.tags
  rw [SymTriplets.refusal?, if_neg (not_not_intro counted)] at made
  by_cases finite : (augmentedValues J).all Scalar.isFinite
  · rw [if_neg (by simp [finite])] at made
    have revised : w' = { w with
        tags := ⟨w.tags.last + 1⟩
        matrices := w.matrices.set place (A.withValues (augmentedValues J) (w.tags.last + 1)) } := by
      simp only [w', World.revise, found, made]
    have stored : done = (.ok (A.withValues (augmentedValues J) (w.tags.last + 1)),
        { c with matrix := some (.ofSparse J, A.withValues (augmentedValues J) (w.tags.last + 1)) },
        ⟨w.tags.last + 1⟩) := by
      simp only [done, made, LeastSquares.keep]
    have view := SymTriplets.view_withValues (w.tags.last + 1) counted
    rw [stored]
    refine ⟨w', by rw [revised], ?_⟩
    exact {
      inStep := {
        reached := reached'
        engine := by rw [revised]; exact h.engine
        idle := by rintro ⟨⟩
        kept := by
          rintro _ _ ⟨⟩
          rw [revised, view]
          exact ⟨List.mem_set within _, placed, fits⟩ }
      calls := rfl
      same := fun _ => rfl
      made := by
        rintro _ ⟨⟩
        exact ⟨rfl, congrArg MatrixView.values view, finite⟩
      refused := by rintro _ ⟨⟩ }
  · rw [if_pos (by simpa using finite)] at made
    have revised : w' = w := by
      simp only [w', World.revise, found, made]
    have stored : done = (.error .notFinite, c, w.tags) := by
      simp only [done, made, LeastSquares.keep]
    rw [stored]
    exact ⟨w, rfl, {
      inStep := h
      calls := rfl
      same := fun _ => rfl
      made := by rintro _ ⟨⟩
      refused := fun _ _ => ⟨rfl, finite⟩ }⟩

theorem InStep.update (h : InStep k c w) (J : Sparse α) :
    let done := c.update J w.tags
    ∃ w', w'.tags = done.2.2 ∧ Updated k c J done.1 done.2.1 w' := by
  -- The engine is reset before the values are checked: if they are refused, the old matrix meets an
  -- engine without a structure, which fits every matrix.
  rw [LeastSquares.update_eq]
  rcases matrix : c.matrix with _ | ⟨old, A⟩
  · refine updated_new _ h.reached h.engine (h.idle matrix) rfl rfl J ?_ ?_
    · simp [matrix]
    · simp [matrix]
  · dsimp only
    split
    · next same =>
      subst same
      exact h.updated_values J matrix
    · next other =>
      have reached : (w.step .resetStructure).Reached k := h.reached.step _
      let emptied : LeastSquares α (Recorded α σ) := ⟨c.engine.resetStructure, some (old, A)⟩
      refine updated_new (c := c) emptied reached ?_ rfl rfl matrix.symm J ?_ ?_
      · exact congrArg Engine.resetStructure h.engine
      · simpa [matrix] using fun same => other same.symm
      · exact fun p A kept => ⟨(h.kept p A kept).1, (h.kept p A kept).2.1⟩

omit [Printable α] in
/-- The engine that a call starts to work with has the structure of a matrix that it fits. -/
theorem Engine.Fits.captured {e : Engine α σ} {m : MatrixView α} (h : e.Fits m) :
    (e.captured m).pattern = .ofView m ∧ (e.captured m).nonzeros = m.nonzeros := by
  by_cases new : e.phase = .uninitialized
  · rw [captured_of_new new]
    exact ⟨rfl, rfl⟩
  · rw [captured_of_known new]
    exact h.resolve_left new

omit [Printable α] in
theorem Engine.Fits.accepted {e : Engine α σ} {m : MatrixView α} (h : e.Fits m)
    {b x : DenseVector α}
    (rhs : b.dim = m.dim) (solution : x.dim = m.dim) {demand : InertiaDemand}
    (offered : demand.isSome → e.providesInertia) : Accepted e m [b] [x] demand where
  paired := rfl
  offered := offered
  sameDim known := by
    rw [Engine.dim, (h.resolve_left known).1]
    rfl
  sameCount known := (h.resolve_left known).2.symm
  rhsDims := by simpa using rhs
  solutionDims := by simpa using solution

/-- What a solve of a calculator in step comes to. -/
structure SolvedInStep (c : LeastSquares α (Recorded α σ)) (p : JacobianPattern)
    (values : List α) (result : Except Fault (Option (List α)))
    (c' : LeastSquares α (Recorded α σ)) : Prop where
  matrix : c'.matrix = c.matrix
  used : ∀ cause, result ≠ .error (.usage cause)
  calls : ∃ new, c'.engine.calls = c.engine.calls ++ new ∧ c'.engine.pattern = p.oneBased ∧
    WorksOn p.oneBased values c.engine.calls new ∧
    (c.engine.phase.Analysed → ∀ d ∈ new, d.analysis? = none)

omit [Printable α] in
/-- A solve of a calculator is one call of its engine, with vectors of the dimension of the
matrix. -/
theorem LeastSquares.solve_calls (c : LeastSquares α σ) (A : SymTriplets α)
    (unknowns constraints : Nat) (gradient : List α) :
    ∃ rhs solution : DenseVector α, ∃ demand : InertiaDemand,
      rhs.dim = gradient.length + constraints ∧ solution.dim = unknowns + constraints ∧
      (demand.isSome → c.engine.providesInertia) ∧
      let called := c.engine.multiSolve A.view [rhs] [solution] demand
      (c.solve A unknowns constraints gradient).2 = { c with engine := called.2 } ∧
        ∀ fault, (c.solve A unknowns constraints gradient).1 = .error fault →
          called.1.result = .error fault := by
  refine ⟨⟨gradient.map (- ·) ++ List.replicate constraints 0⟩,
    ⟨List.replicate (unknowns + constraints) 0⟩,
    if c.engine.providesInertia then some (constraints : Int) else none, ?_, ?_, ?_, ?_⟩
  · simp [DenseVector.dim]
  · simp [DenseVector.dim]
  · cases c.engine.providesInertia <;> simp
  · unfold LeastSquares.solve Engine.solve
    dsimp only
    split
    · next cause _ failed =>
      refine ⟨rfl, ?_⟩
      rintro _ ⟨⟩
      exact failed
    · exact ⟨rfl, by rintro _ ⟨⟩⟩
    · exact ⟨rfl, by rintro _ ⟨⟩⟩

theorem InStep.solve (h : InStep k c w) {p : JacobianPattern} {A : SymTriplets α}
    (matrix : c.matrix = some (p, A)) {gradient : List α} (fits : gradient.length = p.unknowns) :
    let done := c.solve A p.unknowns p.constraints gradient
    ∃ w', w'.tags = w.tags ∧ InStep k done.2 w' ∧ SolvedInStep c p A.values done.1 done.2 := by
  intro done
  obtain ⟨hA, placed, fit⟩ := h.kept p A matrix
  obtain ⟨place, found⟩ := List.mem_iff_getElem?.1 hA
  have dim : A.dim = p.dim := by
    have := congrArg Pattern.dim placed
    exact Int.ofNat_inj.1 this
  obtain ⟨rhs, solution, demand, rhs_dim, solution_dim, offered, same, broken⟩ :=
    c.solve_calls A p.unknowns p.constraints gradient
  rw [h.engine] at offered same broken
  have accepted : Accepted w.engine A.view [rhs] [solution] demand := by
    refine fit.accepted ?_ ?_ offered
    · rw [rhs_dim, fits]
      exact dim.symm
    · rw [solution_dim]
      exact dim.symm
  have order := h.reached.inOrder
  have known := order.knows_iff hA
  obtain ⟨-, steady, -⟩ := Engine.multiSolve_sound order.sound accepted
    (recordSpec_met.factorizes _ _) recordSpec_met.backsolves A.length_values known
  obtain ⟨prepares, solves, records⟩ :=
    record_multiSolve order.sound accepted A.length_values known
  have pattern : (w.engine.captured A.view).pattern = p.oneBased := fit.captured.1.trans placed
  have counted : (w.engine.captured A.view).nonzeros = A.view.nonzeros := fit.captured.2
  have stepped : w.step (.multiSolve place [rhs] [solution] demand) =
      { w with engine := (w.engine.multiSolve A.view [rhs] [solution] demand).2 } := by
    show w.multiSolve place [rhs] [solution] demand = _
    simp only [World.multiSolve, found]
  refine ⟨w.step (.multiSolve place [rhs] [solution] demand), by rw [stepped], ?_, ?_⟩
  · exact {
      reached := h.reached.step _
      engine := by rw [stepped, same]
      idle := fun none => by rw [same, matrix] at none; cases none
      kept := fun q B hB => by
        rw [same, matrix] at hB
        cases hB
        rw [stepped]
        have pattern := steady.pattern.trans fit.captured.1
        exact ⟨hA, placed, .inr ⟨pattern, steady.nonzeros.trans counted⟩⟩ }
  · refine {
      matrix := by rw [same]
      used := fun cause failed => ?_
      calls := ⟨prepares ++ solves, ?_, ?_, ?_, fun analysed d hd => ?_⟩ }
    · have closes := multiSolve_closes order.solver (usageFault?_eq_none.2 accepted)
      rw [broken _ failed] at closes
      exact closes.2.1
    · rw [same, h.engine]
      exact records.added
    · rw [same]
      exact steady.pattern.trans pattern
    · rw [h.engine, ← pattern]
      exact records.worksOn
    · rw [h.engine] at analysed
      obtain ⟨new, added, unanalysed⟩ :=
        no_analysis_of_analysed order.sound accepted A.length_values known analysed
      rw [List.append_cancel_left (records.added.symm.trans added)] at hd
      exact unanalysed d hd

/-! ## Whole calls -/

/-- What a call of a calculator comes to: its engine is not used wrongly, all kernel calls work on
the augmented matrix of the Jacobian, and the analysis is not repeated if the pattern is the one of
the matrix that was made last. -/
structure StaysInStep (c : LeastSquares α (Recorded α σ)) (last : Option JacobianPattern)
    (J : Sparse α) (result : Except MultiplierError (Option (List α)))
    (c' : LeastSquares α (Recorded α σ)) : Prop where
  used : ∀ cause, result ≠ .error (.solve (.usage cause))
  calls : ∃ new, c'.engine.calls = c.engine.calls ++ new ∧
    (new ≠ [] → c'.engine.pattern = augmentedPattern J) ∧
    WorksOn (augmentedPattern J) (augmentedValues J) c.engine.calls new ∧
    (last = some (.ofSparse J) → c.engine.phase.Analysed → ∀ d ∈ new, d.analysis? = none)

omit [Printable α] in
/-- The kernel is not called. -/
theorem StaysInStep.of_idle {c c' : LeastSquares α (Recorded α σ)} {last : Option JacobianPattern}
    {J : Sparse α} {result : Except MultiplierError (Option (List α))}
    (used : ∀ cause, result ≠ .error (.solve (.usage cause)))
    (calls : c'.engine.calls = c.engine.calls) : StaysInStep c last J result c' :=
  ⟨used, [], calls.trans (List.append_nil _).symm, nofun, worksOn_nil .., nofun⟩

theorem mapError_eq_error {ε ε' β : Type} {f : ε → ε'} {cause : ε} {r : Except ε β}
    (apart : ∀ a b, f a = f b → a = b) (h : r.mapError f = .error (f cause)) :
    r = .error cause := by
  cases r with
  | error other => exact congrArg Except.error (apart _ _ (Except.error.inj h))
  | ok b => cases h

theorem InStep.multipliers (h : InStep k c w) (J : Sparse α) {gradient : Grid α}
    (full : gradient.Full) :
    let done := c.multipliers (.sparse J) gradient w.tags
    ∃ w', w'.tags = done.2.2 ∧ InStep k done.2.1 w' ∧
      done.2.1.matrix.map Prod.fst =
        (Request.multipliers (.sparse J) gradient full).made?.or (c.matrix.map Prod.fst) ∧
      StaysInStep c (c.matrix.map Prod.fst) J.merged done.1 done.2.1 := by
  unfold LeastSquares.multipliers Request.made?
  dsimp only
  by_cases wide : gradient.shape = [J.merged.width]
  · rw [if_neg (not_not_intro wide)]
    by_cases free : J.merged.height = 0
    · rw [if_pos free, if_neg fun made => made.2.1 free]
      exact ⟨w, rfl, h, rfl, .of_idle nofun rfl⟩
    · rw [if_neg free]
      obtain ⟨w₁, tags, updated⟩ := h.update J.merged
      rcases run : c.update J.merged w.tags with ⟨_ | A, c₁, source⟩ <;> rw [run] at tags updated
      · next cause =>
        obtain ⟨kept, infinite⟩ := updated.refused cause rfl
        rw [if_neg fun made => infinite made.2.2]
        exact ⟨w₁, tags, updated.inStep, kept, .of_idle nofun updated.calls⟩
      · obtain ⟨matrix, values, finite⟩ := updated.made A rfl
        rw [if_pos ⟨wide, free, finite⟩]
        have fits : gradient.entries.length = (JacobianPattern.ofSparse J.merged).unknowns := by
          rw [full, wide]
          exact Nat.mul_one _
        obtain ⟨w₂, tags', inStep, solved⟩ := updated.inStep.solve matrix fits
        obtain ⟨new, added, pattern, works, unanalysed⟩ := solved.calls
        rw [oneBased_ofSparse] at pattern works
        rw [values, updated.calls] at works
        refine ⟨w₂, tags'.trans tags, inStep, ?_, ?_, new, ?_, fun _ => pattern, works, ?_⟩
        · exact congrArg (Option.map Prod.fst) (solved.matrix.trans matrix)
        · intro cause failed
          refine solved.used cause (mapError_eq_error ?_ failed)
          exact fun _ _ => MultiplierError.solve.inj
        · exact added.trans (congrArg (· ++ new) updated.calls)
        · intro same analysed
          exact unanalysed (updated.same same ▸ analysed)
  · rw [if_pos wide, if_neg fun made => wide made.1]
    exact ⟨w, rfl, h, rfl, .of_idle nofun rfl⟩

theorem InStep.serve (h : InStep k c w) (r : Request α) :
    let next := LeastSquares.serve (c, w.tags) r
    ∃ w', w'.tags = next.2 ∧ InStep k next.1 w' ∧
      next.1.matrix.map Prod.fst = r.made?.or (c.matrix.map Prod.fst) := by
  cases r with
  | multipliers jacobian gradient full =>
    cases jacobian with
    | sparse J =>
      obtain ⟨w', tags, inStep, last, -⟩ := h.multipliers J full
      exact ⟨w', tags, inStep, last⟩
    | other => exact ⟨w, rfl, h, rfl⟩
  | drawTag =>
    exact ⟨w.step .drawTag, rfl, ⟨h.reached.step _, h.engine, h.idle, h.kept⟩, rfl⟩

/-- **A calculator stays in step**, whatever it is asked. -/
theorem inStep_serveAll (reached : w.Reached k) (new : w.engine.phase = .uninitialized)
    (requests : List (Request α)) :
    let now := LeastSquares.serveAll (.start w.engine, w.tags) requests
    ∃ w', w'.tags = now.2 ∧ InStep k now.1 w' ∧
      now.1.matrix.map Prod.fst = Request.lastMade? requests := by
  induction requests using List.reverseRecOn with
  | nil => exact ⟨w, rfl, ⟨reached, rfl, fun _ => new, nofun⟩, rfl⟩
  | append_singleton requests r ih =>
    obtain ⟨w₁, tags, inStep, last⟩ := ih
    obtain ⟨w₂, tags', inStep', last'⟩ := inStep.serve r
    rw [tags] at tags' inStep' last'
    rw [LeastSquares.serveAll_concat, Request.lastMade?_concat, ← last]
    exact ⟨w₂, tags', inStep', last'⟩

/-- **The calculator and its engine stay in step.** -/
theorem calculator_stays_in_step (reached : w.Reached k) (new : w.engine.phase = .uninitialized)
    (requests : List (Request α)) (J : Sparse α) {gradient : Grid α} (full : gradient.Full) :
    let now := LeastSquares.serveAll (.start w.engine, w.tags) requests
    let done := now.1.multipliers (.sparse J) gradient now.2
    StaysInStep now.1 (Request.lastMade? requests) J.merged done.1 done.2.1 ∧
      ∀ i j, (((augmentedPlaces J.merged).zip (augmentedValues J.merged)).filter fun w =>
        w.1 = (i, j)).map Prod.snd = augmentedBlocks J.merged i j := by
  intro now done
  obtain ⟨w', tags, inStep, last⟩ := inStep_serveAll reached new requests
  obtain ⟨-, -, -, -, stays⟩ := inStep.multipliers J full
  rw [tags, last] at stays
  exact ⟨stays, augmented_blocks J.merged⟩

/-- One constraint on two unknowns. -/
def oneConstraint (a b : ℚ) : Sparse ℚ where
  height := 1
  width := 2
  entries := [⟨⟨0, Nat.one_pos⟩, ⟨0, Nat.two_pos⟩, a⟩, ⟨⟨0, Nat.one_pos⟩, ⟨1, Nat.one_lt_two⟩, b⟩]

/-- The answers of a kernel that finds one negative eigenvalue in three, twice. -/
def twoFactorizations : Script ℚ :=
  let one : KernelInfo := { rank := 3, negative := 1 }
  ⟨[], [one.toRaw, one.toRaw], []⟩

/-- A calculator that was asked for multipliers once. -/
def askedOnce : LeastSquares ℚ (Recorded ℚ (Script ℚ)) × TagSource :=
  LeastSquares.serveAll (.start (scriptedEngine twoFactorizations), ⟨0⟩)
    [.multipliers (.sparse (oneConstraint 1 2)) (.ofList [3, 4]) rfl]

theorem calculator_stays_in_step_again :
    let called := askedOnce.1.multipliers (.sparse (oneConstraint 5 6)) (.ofList [7, 8]) askedOnce.2
    askedOnce.1.engine.phase = .factorized ∧
      ∃ new, called.2.1.engine.calls = askedOnce.1.engine.calls ++ new ∧ new ≠ [] ∧
        called.2.1.engine.pattern = ⟨3, [1, 2, 3, 3, 3], [1, 2, 1, 2, 3]⟩ ∧
        WorksOn ⟨3, [1, 2, 3, 3, 3], [1, 2, 1, 2, 3]⟩ [1, 1, 5, 6, 0] askedOnce.1.engine.calls new ∧
        ∀ d ∈ new, d.analysis? = none := by
  have late : askedOnce.1.engine.phase = .factorized := by decide +kernel
  have full : (Grid.ofList [(7 : ℚ), 8]).Full := rfl
  obtain ⟨⟨-, new, added, pattern, works, unanalysed⟩, -⟩ :=
    calculator_stays_in_step (reached_scripted twoFactorizations []) rfl
      [.multipliers (.sparse (oneConstraint 1 2)) (.ofList [3, 4]) rfl] (oneConstraint 5 6) full
  have called : askedOnce.1.engine.calls.length <
      (askedOnce.1.multipliers (.sparse (oneConstraint 5 6)) (.ofList [7, 8])
        askedOnce.2).2.1.engine.calls.length := by decide +kernel
  have some_new : new ≠ [] := by
    rintro rfl
    exact Nat.ne_of_lt called (congrArg List.length (added.trans (List.append_nil _))).symm
  have structure_eq : augmentedPattern (oneConstraint 5 6).merged =
      ⟨3, [1, 2, 3, 3, 3], [1, 2, 1, 2, 3]⟩ := by decide +kernel
  have values_eq : augmentedValues (oneConstraint 5 6).merged = [1, 1, 5, 6, 0] := by
    decide +kernel
  rw [structure_eq, values_eq] at works
  rw [structure_eq] at pattern
  refine ⟨late, new, added, some_new, pattern some_new, works, unanalysed ?_ ?_⟩
  · decide +kernel
  · exact Phase.analysed_of_late (.inl late)

end

end SymSolve
