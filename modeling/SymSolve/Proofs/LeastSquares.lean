import SymSolve.Proofs.Engine.Exactness
import SymSolve.Proofs.Matrices.Merging
import SymSolve.Proofs.Multipliers
import SymSolve.Proofs.SaddlePoint

/-!
# Least-squares multipliers are the minimum

**Theorem (`multipliers_minimize`).** Let the engine of a calculator be exact on the augmented matrix
of a Jacobian with at least one row. If there are multipliers, then the rows of the Jacobian are
independent, and the multipliers are the only place where `|g + Jᵀ y|` is least. A wrong inertia is
never found, so there are no multipliers only if the matrix is singular or the kernel has failed.

The engine gets the saddle point of the Jacobian (`saddle_augmented`), also if it is made by new values
for an older matrix (`Kept`). The rest is what is known of saddle points: the solution is the minimum,
and the number of negative eigenvalues is the number of constraints.
-/

namespace SymSolve

open Matrix

/-! ## The augmented matrix -/

section Denotation

variable {K : Type} [Field K] [LinearOrder K] [FloorRing K]

/-- The entries of the augmented matrix: those of the identity, those of the Jacobian, and zeros. -/
def augmentedEntries (J : Sparse K) : List (Entry (J.width + J.height) (J.width + J.height) K) :=
  (List.finRange J.width).map (fun i => ⟨i.castAdd J.height, i.castAdd J.height, 1⟩) ++
    J.entries.map (fun e => ⟨e.row.natAdd J.width, e.col.castAdd J.height, e.value⟩) ++
    (List.finRange J.height).map fun r => ⟨r.natAdd J.width, r.natAdd J.width, 0⟩

theorem entries_augmentedMatrix (J : Sparse K) (tag : Nat) :
    (augmentedMatrix J tag).entries = augmentedEntries J := by
  have zipped : (augmentedMatrix J tag).entries =
      ((augmentedPlaces J).zip (augmentedValues J)).map fun w => ⟨w.1.1, w.1.2, w.2⟩ := by
    simp only [augmentedMatrix, SymTriplets.withValues, SymTriplets.zeroAt, List.zipWith_map_left]
    exact (List.map_uncurry_zip_eq_zipWith ..).symm
  rw [zipped, zip_augmented, List.map_append, List.map_append, List.map_map, List.map_map,
    List.map_map]
  rfl

theorem sum_share_augmented (J : Sparse K) (i j : Fin J.width ⊕ Fin J.height) :
    ((augmentedEntries J).map fun e => e.share (finSumFinEquiv i) (finSumFinEquiv j)).sum =
      saddle J.toMatrix i j := by
  have below {m n : Nat} (r : Fin n) (i : Fin m) : r.natAdd m ≠ i.castAdd n :=
    (castAdd_ne_natAdd i r).symm
  simp only [augmentedEntries, List.map_append, List.sum_append, List.map_map, Function.comp_def,
    Entry.share]
  rcases i with i | r <;> rcases j with j | s
  · have met (k : Fin J.width) : (k = i ∧ k = j ∨ k = j ∧ k = i) ↔ k = i ∧ i = j := by
      grind
    by_cases diagonal : i = j <;> simp [saddle, below, met, diagonal, ← Fin.sum_univ_def]
  · simp [saddle, below, castAdd_ne_natAdd, J.toMatrix_apply, sumWhere]
  · simp [saddle, below, castAdd_ne_natAdd, J.toMatrix_apply, sumWhere]
  · simp [saddle, castAdd_ne_natAdd]

/-- **The augmented matrix** is the saddle point of the Jacobian. -/
theorem saddle_augmented (J : Sparse K) (tag : Nat) :
    (augmentedMatrix J tag).toDense.toMatrix.submatrix finSumFinEquiv finSumFinEquiv =
      saddle J.toMatrix := by
  funext i j
  refine (SymTriplets.toDense_get (augmentedMatrix J tag) _ _).trans ?_
  rw [entries_augmentedMatrix]
  exact sum_share_augmented J i j

end Denotation

/-! ## The matrix of a calculator -/

/-- Triplets are told by their positions, their values and their tag. -/
theorem SymTriplets.ext_pattern {α : Type} {A B : SymTriplets α}
    (pattern : Pattern.ofView A.view = .ofView B.view) (values : A.values = B.values)
    (tag : A.tag = B.tag) : A = B := by
  obtain ⟨n, es, t⟩ := A
  obtain ⟨m, fs, u⟩ := B
  simp only [Pattern.ofView, view, Pattern.mk.injEq, Int.ofNat_inj] at pattern
  obtain ⟨rfl, rows, cols⟩ := pattern
  obtain rfl : t = u := tag
  change es.map Entry.value = fs.map Entry.value at values
  congr 1
  have counted : Function.Injective fun i : Nat => (i : Int) + 1 := by
    intro i j same
    dsimp only at same
    omega
  have triples : es.map (fun e => (e.row.val, e.col.val, e.value)) =
      fs.map fun e => (e.row.val, e.col.val, e.value) := by
    rw [← List.zip_map', ← List.zip_map', List.map_injective_iff.2 counted rows,
      List.map_injective_iff.2 counted cols, values, List.zip_map', List.zip_map']
  refine List.map_injective_iff.2 ?_ triples
  rintro ⟨i, j, v⟩ ⟨i', j', v'⟩ same
  simpa [Fin.val_inj] using same

section Scalar

variable {α σ : Type} [Scalar α]

/-- New values at the places of the augmented matrix make the augmented matrix. -/
theorem SymTriplets.withValues_augmented {A : SymTriplets α} {J : Sparse α}
    (placed : Pattern.ofView A.view = augmentedPattern J) (tag : Nat) :
    A.withValues (augmentedValues J) tag = augmentedMatrix J tag := by
  have view := view_withValues tag (length_augmentedValues_of placed)
  refine ext_pattern ?_ ?_ rfl
  · rw [view, pattern_augmentedMatrix]
    exact placed
  · have values := congrArg MatrixView.values (view_augmentedMatrix J tag)
    exact (congrArg MatrixView.values view).trans values.symm

theorem Engine.named_of_create {memory : Memory} {options : Options α} {kernel : Kernel α σ}
    {state : σ} {solverId : String} {providesInertia : Bool} {e : Engine α σ}
    (created : create memory options kernel state solverId providesInertia = .ok e) :
    e.solverId ≠ "" := by
  unfold create at created
  split at created
  · cases created
  · next named =>
    cases created
    exact named

namespace LeastSquares

/-- What a calculator keeps from one call to the next: its matrix has the places of its pattern, and
its engine is consistent. -/
structure Kept (c : LeastSquares α σ) : Prop where
  named : c.engine.solverId ≠ ""
  consistent : c.engine.Consistent
  placed : ∀ p A, c.matrix = some (p, A) → Pattern.ofView A.view = p.oneBased

variable {c : LeastSquares α σ}

/-- An update has kept what there was to keep, and if there is a matrix, it is the augmented one. -/
structure Renewed (J : Sparse α) (result : Except ViewError (SymTriplets α)) (c : LeastSquares α σ) :
    Prop where
  kept : Kept c
  made : ∀ A, result = .ok A → ∃ tag, A = augmentedMatrix J tag

theorem Kept.keep (h : Kept c) (J : Sparse α) {made : Except ViewError (SymTriplets α) × TagSource}
    (right : ∀ A, made.1 = .ok A → ∃ tag, A = augmentedMatrix J tag) :
    Renewed J (c.keep (.ofSparse J) made).1 (c.keep (.ofSparse J) made).2.1 := by
  obtain ⟨cause | A, source⟩ := made
  · exact ⟨h, right⟩
  · refine ⟨⟨h.named, h.consistent, ?_⟩, right⟩
    rintro _ _ ⟨⟩
    obtain ⟨tag, rfl⟩ := right A rfl
    rw [pattern_augmentedMatrix, oneBased_ofSparse]

theorem augmented_of_make {J : Sparse α} {source : TagSource} {A : SymTriplets α}
    (made : ((makeAugmented J).exec source).1 = .ok A) : ∃ tag, A = augmentedMatrix J tag := by
  rw [exec_makeAugmented] at made
  split at made
  · exact ⟨_, (Except.ok.inj made).symm⟩
  · cases made

theorem augmented_of_setValues {J : Sparse α} {source : TagSource} {A B : SymTriplets α}
    (placed : Pattern.ofView A.view = augmentedPattern J)
    (made : ((A.setValues (augmentedValues J)).exec source).1 = .ok B) :
    ∃ tag, B = augmentedMatrix J tag := by
  rw [SymTriplets.exec_setValues] at made
  split at made
  · cases made
  · exact ⟨_, (Except.ok.inj made).symm.trans (SymTriplets.withValues_augmented placed _)⟩

theorem Kept.update (h : Kept c) (J : Sparse α) (source : TagSource) :
    Renewed J (c.update J source).1 (c.update J source).2.1 := by
  rw [update_eq]
  rcases matrix : c.matrix with _ | ⟨old, A⟩
  · exact h.keep J fun _ => augmented_of_make
  · dsimp only
    split
    · next same =>
      subst same
      have placed := (h.placed _ A matrix).trans (oneBased_ofSparse J)
      exact h.keep J fun _ => augmented_of_setValues placed
    · have emptied : Kept ⟨c.engine.resetStructure, some (old, A)⟩ :=
        ⟨h.named, Engine.consistent_resetStructure _, fun p B kept => h.placed p B (matrix.trans kept)⟩
      exact emptied.keep J fun _ => augmented_of_make

/-- The call of the engine that a solve makes. -/
def call (c : LeastSquares α σ) (A : SymTriplets α) (unknowns constraints : Nat)
    (gradient : List α) : SolveAnswer α × Engine α σ :=
  c.engine.solve A.view ⟨gradient.map (- ·) ++ List.replicate constraints 0⟩
    ⟨List.replicate (unknowns + constraints) 0⟩
    (if c.engine.providesInertia then some (constraints : Int) else none)

/-- There are multipliers if the call is a success with one solution. -/
theorem solve_eq_some {A : SymTriplets α} {unknowns constraints : Nat} {gradient y : List α}
    (h : (c.solve A unknowns constraints gradient).1 = .ok (some y)) :
    ∃ x : DenseVector α, (c.call A unknowns constraints gradient).1.result = .ok .success ∧
      (c.call A unknowns constraints gradient).1.solutions = [x] ∧ y = x.entries.drop unknowns := by
  unfold solve Engine.solve at h
  dsimp only at h
  split at h
  · cases h
  · next x success solution =>
    cases h
    exact ⟨x, success, solution, rfl⟩
  · cases h

/-- There are none if it comes to an outcome without one. -/
theorem solve_eq_none {A : SymTriplets α} {unknowns constraints : Nat} {gradient : List α}
    (h : (c.solve A unknowns constraints gradient).1 = .ok none) :
    ∃ outcome, (c.call A unknowns constraints gradient).1.result = .ok outcome ∧
      ∀ x, outcome = .success → (c.call A unknowns constraints gradient).1.solutions ≠ [x] := by
  unfold solve Engine.solve at h
  dsimp only at h
  split at h
  · cases h
  · cases h
  · next _ _ outcome ended other =>
    exact ⟨outcome, ended, fun x success single => other x single success⟩

theorem engine_solve (c : LeastSquares α σ) (A : SymTriplets α) (unknowns constraints : Nat)
    (gradient : List α) : (c.solve A unknowns constraints gradient).2 =
      { c with engine := (c.call A unknowns constraints gradient).2 } := by
  unfold solve call Engine.solve
  dsimp only
  split <;> rfl

theorem Kept.solve (h : Kept c) (A : SymTriplets α) (unknowns constraints : Nat)
    (gradient : List α) : Kept (c.solve A unknowns constraints gradient).2 := by
  have paired : A.view.cols.length = A.view.rows.length := by simp [SymTriplets.view]
  obtain ⟨make, -⟩ := Engine.made_multiSolve h.named A.view
    [⟨gradient.map (- ·) ++ List.replicate constraints 0⟩]
    [⟨List.replicate (unknowns + constraints) 0⟩]
    (if c.engine.providesInertia then some (constraints : Int) else none)
  rw [engine_solve]
  exact ⟨make.solverId ▸ h.named, (h.consistent.multiSolve h.named paired ..).1, h.placed⟩

theorem Kept.multipliers (h : Kept c) (jacobian : SparseArgument α) (gradient : Grid α)
    (source : TagSource) : Kept (c.multipliers jacobian gradient source).2.1 := by
  unfold LeastSquares.multipliers
  cases jacobian with
  | other => exact h
  | sparse J =>
    dsimp only
    split
    · exact h
    · split
      · exact h
      · have renewed := h.update J.merged source
        rcases run : c.update J.merged source with ⟨_ | A, c₁, source₁⟩ <;> rw [run] at renewed
        · exact renewed.kept
        · exact renewed.kept.solve A ..

theorem kept_serveAll {memory : Memory} {options : Options α} {kernel : Kernel α σ} {state : σ}
    {solverId : String} {providesInertia : Bool} {e : Engine α σ}
    (created : Engine.create memory options kernel state solverId providesInertia = .ok e)
    (source : TagSource) (requests : List (Request α)) :
    Kept (serveAll (.start e, source) requests).1 := by
  induction requests using List.reverseRecOn with
  | nil =>
    exact ⟨Engine.named_of_create created, Engine.consistent_create created, nofun⟩
  | append_singleton requests r ih =>
    rw [serveAll_concat]
    cases r with
    | multipliers jacobian gradient full => exact ih.multipliers ..
    | drawTag => exact ih

/-- A call with a gradient of the right length, and at least one constraint. -/
theorem multipliers_eq (c : LeastSquares α σ) (J : Sparse α) (constrained : J.height ≠ 0)
    (g : Fin J.width → α) (source : TagSource) :
    c.multipliers (.sparse J) (.ofList (List.ofFn g)) source =
      match c.update J.merged source with
      | (.error cause, c, source) => (.error (.view cause), c, source)
      | (.ok A, c, source) =>
        ((c.solve A J.width J.height (List.ofFn g)).1.mapError .solve,
          (c.solve A J.width J.height (List.ofFn g)).2, source) := by
  have fits : (Grid.ofList (List.ofFn g)).shape = [J.merged.width] :=
    congrArg (fun n => [n]) List.length_ofFn
  unfold LeastSquares.multipliers
  dsimp only
  rw [if_neg (not_not_intro fits), if_neg (show J.merged.height ≠ 0 from constrained)]
  rfl

end LeastSquares

end Scalar

/-! ## Exact engines -/

section Exact

variable {K σ : Type} [Field K] [LinearOrder K] [IsStrictOrderedRing K] [FloorRing K]
variable {J : Sparse K} {tag : Nat}

omit [IsStrictOrderedRing K] in
theorem det_saddle_augmented (J : Sparse K) (tag : Nat) :
    (saddle J.toMatrix).det = (augmentedMatrix J tag).toDense.toMatrix.det := by
  rw [← saddle_augmented J tag]
  exact det_submatrix_equiv_self finSumFinEquiv _

/-- The inertia of the augmented matrix is fixed by the shape of the Jacobian. -/
theorem isGreatest_augmented (regular : (augmentedMatrix J tag).toDense.toMatrix.det ≠ 0) :
    IsGreatest {d | NegativeOn (augmentedMatrix J tag).toDense.toMatrix d} J.height := by
  have greatest := saddle_isGreatest (det_saddle_augmented J tag ▸ regular)
  have same (d : Nat) : NegativeOn (saddle J.toMatrix) d ↔
      NegativeOn (augmentedMatrix J tag).toDense.toMatrix d := by
    rw [← saddle_augmented J tag]
    exact negativeOn_submatrix finSumFinEquiv
  simpa only [same, Fintype.card_fin] using greatest

omit [LinearOrder K] [IsStrictOrderedRing K] [FloorRing K] in
/-- A system in one list of coordinates is the one in two blocks. -/
theorem saddle_of_solved {m n : Nat} {J : Matrix (Fin m) (Fin n) K}
    {M : Matrix (Fin (n + m)) (Fin (n + m)) K}
    (blocks : M.submatrix finSumFinEquiv finSumFinEquiv = saddle J) {g : Fin n → K}
    {b x : Fin (n + m) → K} (rhs : (List.ofFn g).map (- ·) ++ List.replicate m 0 = List.ofFn b)
    (solved : M *ᵥ x = b) :
    ∃ w v, List.ofFn x = List.ofFn w ++ List.ofFn v ∧
      saddle J *ᵥ Sum.elim w v = Sum.elim (-g) 0 := by
  have joined (u : Fin n → K) (v : Fin m → K) : Fin.append u v ∘ finSumFinEquiv = Sum.elim u v := by
    funext i
    cases i <;> simp
  have right : b = Fin.append (-g) 0 := by
    apply List.ofFn_injective
    rw [List.ofFn_fin_append, ← rhs, List.map_ofFn]
    exact congrArg (_ ++ ·) (List.ofFn_const ..).symm
  obtain ⟨w, v, rfl⟩ : ∃ w v, x = Fin.append w v :=
    ⟨fun i => x (i.castAdd m), fun r => x (r.natAdd n), Fin.append_castAdd_natAdd.symm⟩
  refine ⟨w, v, List.ofFn_fin_append .., ?_⟩
  rw [← blocks, ← joined, ← joined, ← right, ← solved, submatrix_mulVec_equiv,
    Function.comp_assoc, Equiv.self_comp_symm, Function.comp_id]

/-- The rows are independent, and the list is the only place where the misfit is least. -/
structure Minimizes {m n : Nat} (J : Matrix (Fin m) (Fin n) K) (g : Fin n → K) (y : List K) : Prop where
  rank : J.rank = m
  least : ∃ v : Fin m → K, y = List.ofFn v ∧ ∀ z, z ≠ v → misfit J g v < misfit J g z

/-- What solves the augmented system is the minimum, behind the unknowns. -/
theorem least_of_solves (regular : (saddle J.toMatrix).det ≠ 0) {g : Fin J.width → K} {x : List K}
    (solves : (augmentedMatrix J tag).toDense.Solves
      ((List.ofFn g).map (- ·) ++ List.replicate J.height 0) x) :
    ∃ v : Fin J.height → K, x.drop J.width = List.ofFn v ∧
      ∀ z, z ≠ v → misfit J.toMatrix g v < misfit J.toMatrix g z := by
  obtain ⟨b, x, rhs, rfl, solved⟩ := solves
  obtain ⟨w, v, parts, system⟩ := saddle_of_solved (saddle_augmented J tag) rhs solved
  refine ⟨v, ?_, fun z other => saddle_solution_least regular system other⟩
  exact (congrArg (List.drop J.width) parts).trans (List.drop_left' List.length_ofFn)

namespace LeastSquares

variable {c : LeastSquares K σ}

/-- An exact engine finds the inertia that a calculator demands. -/
theorem Kept.ne_wrongInertia (h : Kept c) (exact : c.engine.ExactOn (augmentedMatrix J tag))
    (gradient : List K) :
    (c.call (augmentedMatrix J tag) J.width J.height gradient).1.result ≠ .ok .wrongInertia := by
  refine exact.ne_wrongInertia h.named h.consistent fun expected demanded regular => ?_
  split at demanded
  · exact ⟨J.height, (Option.some.inj demanded).symm, isGreatest_augmented regular⟩
  · cases demanded

/-- Multipliers are the minimum. -/
theorem Kept.least (h : Kept c) (exact : c.engine.ExactOn (augmentedMatrix J tag))
    {g : Fin J.width → K} {y : List K}
    (found : (c.solve (augmentedMatrix J tag) J.width J.height (List.ofFn g)).1 = .ok (some y)) :
    Minimizes J.toMatrix g y := by
  obtain ⟨x, success, single, rfl⟩ := solve_eq_some found
  have regular := det_saddle_augmented J tag ▸ exact.regular_of_success h.named success
  obtain ⟨y, single', solved⟩ := exact.solves_one success
  obtain rfl : x = y := (List.cons.inj (single.symm.trans single')).1
  refine ⟨?_, least_of_solves regular solved⟩
  rw [rank_of_saddle regular, Fintype.card_fin]

/-- There are no multipliers only if the matrix is singular or the kernel has failed. -/
theorem Kept.missing (h : Kept c) (exact : c.engine.ExactOn (augmentedMatrix J tag))
    {gradient : List K}
    (missing : (c.solve (augmentedMatrix J tag) J.width J.height gradient).1 = .ok none) :
    ∃ outcome, (outcome = .singular ∨ outcome = .fatalError) ∧
      (c.call (augmentedMatrix J tag) J.width J.height gradient).1.result = .ok outcome ∧
      c.engine.Accounts outcome (c.call (augmentedMatrix J tag) J.width J.height gradient).2 := by
  obtain ⟨outcome, ended, other⟩ := solve_eq_none missing
  refine ⟨outcome, ?_, ended, Engine.accounts_of_ok h.named ended⟩
  cases outcome with
  | success =>
    obtain ⟨y, single, -⟩ := exact.solves_one ended
    exact absurd single (other y rfl)
  | wrongInertia => exact absurd ended (h.ne_wrongInertia exact gradient)
  | singular => exact .inl rfl
  | fatalError => exact .inr rfl

end LeastSquares

/-- A new engine over the reference kernel is exact on the first matrix of its calculator. -/
theorem exactOn_start [Powers K] {memory : Memory} {options : Options K} {solverId : String}
    {providesInertia : Bool} {e : Engine K Unit}
    (created : Engine.create memory options Reference.kernel () solverId providesInertia = .ok e)
    {source after : TagSource} {A : SymTriplets K} {c : LeastSquares K Unit}
    (made : (LeastSquares.start e).update J source = (.ok A, c, after)) : c.engine.ExactOn A := by
  obtain ⟨kernel, new⟩ := World.new_of_create created
  have begun : (World.start e source).InOrder referenceSpec :=
    World.inOrder_start created source kernel
  have order : ((World.start e source).adopt (makeAugmented J)).InOrder referenceSpec :=
    begun.adopt (SymTriplets.construction_ofTriplets ..).fresh
  rw [LeastSquares.update_eq] at made
  change (LeastSquares.start e).keep (.ofSparse J) ((makeAugmented J).exec source) = _ at made
  rcases run : (makeAugmented J).exec source with ⟨cause | B, tags⟩ <;> rw [run] at made <;>
    cases made
  unfold World.adopt at order
  rw [show (World.start e source).tags = source from rfl, run] at order
  exact order.exactOn (List.mem_singleton.2 rfl) (.inl new)

/-- **Least-squares multipliers are the minimum.** -/
theorem multipliers_minimize {memory : Memory} {options : Options K} {kernel : Kernel K σ} {state : σ}
    {solverId : String} {providesInertia : Bool} {e : Engine K σ}
    (created : Engine.create memory options kernel state solverId providesInertia = .ok e)
    (source : TagSource) (requests : List (Request K)) (J : Sparse K) (constrained : J.height ≠ 0)
    (g : Fin J.width → K)
    (exact : let now := LeastSquares.serveAll (.start e, source) requests
      ∀ A c after, now.1.update J.merged now.2 = (.ok A, c, after) → c.engine.ExactOn A) :
    let now := LeastSquares.serveAll (.start e, source) requests
    let done := now.1.multipliers (.sparse J) (.ofList (List.ofFn g)) now.2
    (∀ y, done.1 = .ok (some y) → Minimizes J.toMatrix g y) ∧
    (∀ A c after, now.1.update J.merged now.2 = (.ok A, c, after) →
      (c.call A J.width J.height (List.ofFn g)).1.result ≠ .ok .wrongInertia) ∧
    (done.1 = .ok none → ∃ A c after outcome, now.1.update J.merged now.2 = (.ok A, c, after) ∧
      (outcome = .singular ∨ outcome = .fatalError) ∧
      (c.call A J.width J.height (List.ofFn g)).1.result = .ok outcome ∧
      c.engine.Accounts outcome done.2.1.engine) := by
  intro now done
  have kept := LeastSquares.kept_serveAll created source requests
  have renewed := kept.update J.merged now.2
  have ended : done = _ := now.1.multipliers_eq J constrained g now.2
  change ∀ A c after, now.1.update J.merged now.2 = (.ok A, c, after) → c.engine.ExactOn A at exact
  rcases run : now.1.update J.merged now.2 with ⟨cause | A, c, after⟩ <;> rw [run] at ended renewed
  · have broken : done.1 = .error (.view cause) := congrArg Prod.fst ended
    rw [broken]
    refine ⟨by simp, by simp, by simp⟩
  · obtain ⟨tag, rfl⟩ := renewed.made A rfl
    have right := exact _ c after run
    have kept : c.Kept := renewed.kept
    have answered : done.1 = (c.solve (augmentedMatrix J.merged tag) J.width J.height
        (List.ofFn g)).1.mapError .solve := congrArg Prod.fst ended
    have left : done.2.1.engine = (c.call (augmentedMatrix J.merged tag) J.width J.height
        (List.ofFn g)).2 :=
      (congrArg (fun d => d.2.1.engine) ended).trans
        (congrArg LeastSquares.engine (c.engine_solve ..))
    refine ⟨fun y found => ?_, ?_, fun missing => ?_⟩
    · rw [answered] at found
      exact J.toMatrix_merged ▸ kept.least (J := J.merged) right (eq_ok_of_mapError found)
    · rintro _ _ _ ⟨⟩
      exact kept.ne_wrongInertia (J := J.merged) right _
    · rw [answered] at missing
      obtain ⟨outcome, failed, told, accounts⟩ :=
        kept.missing (J := J.merged) right (eq_ok_of_mapError missing)
      exact ⟨_, c, after, outcome, rfl, failed, told, left ▸ accounts⟩

end Exact

/-! ## One constraint -/

/-- The multiplier of one constraint on two unknowns. -/
theorem multipliers_oneConstraint :
    ((LeastSquares.start (exactEngine Reference.kernel ())).multipliers
      (.sparse (oneConstraint 1 2)) (.ofList [3, 4]) ⟨0⟩).1 = .ok (some [-11 / 5]) := by
  -- merging recurses on the length of a list, which the kernel does not compute with
  delta Reference.kernel Reference.analyse Graph.narrowOrder Graph.breadthFirst Graph.round
    Graph.withSeed
  simp only [Graph.byDegree_eq_insertionSort]
  decide +kernel

theorem multipliers_minimize_oneConstraint :
    ((LeastSquares.start (exactEngine Reference.kernel ())).multipliers
      (.sparse (oneConstraint 1 2)) (.ofList [3, 4]) ⟨0⟩).1 = .ok (some [-11 / 5]) ∧
    Minimizes (oneConstraint 1 2).toMatrix ![3, 4] [-11 / 5] := by
  obtain ⟨least, -, -⟩ := multipliers_minimize (create_exactEngine Reference.kernel ()) ⟨0⟩ []
    (oneConstraint 1 2) (by decide) ![3, 4] fun A c after => exactOn_start (create_exactEngine ..)
  exact ⟨multipliers_oneConstraint, least _ multipliers_oneConstraint⟩

end SymSolve
