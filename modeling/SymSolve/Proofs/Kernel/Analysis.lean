import SymSolve.Proofs.Kernel.Room
import SymSolve.Proofs.Kernel.RoundTrip

/-!
# What an analysis keeps

**Theorem (`analysis_keeps_permutation`).** For every pattern with at least one row, and with room,
the analysis of the reference kernel keeps a permutation of the rows, its inverse, and zeros. The
permutation is decided by the graph in which two rows are joined if an entry inside of the matrix
couples them, in whichever order and however often. The flag is 1 if there are entries outside, and
then their number is given, or else 0.

The vertices are ordered by a traversal that lists each of them once (`Graph.nodup_narrowOrder`,
`Graph.length_narrowOrder`); a list with every vertex once is a permutation (`orderingOf`), and the
place of a vertex in the list is its image under the inverse.
-/

namespace SymSolve

/-! ## A list of all vertices as a permutation -/

section Ordering

variable {n : Nat} {vertices : List (Fin n)}

theorem mem_of_nodup_of_length (nodup : vertices.Nodup) (all : vertices.length = n) (v : Fin n) :
    v ∈ vertices := by
  have full : vertices.toFinset = Finset.univ := by
    rw [← Finset.card_eq_iff_eq_univ, List.toFinset_card_of_nodup nodup, all, Fintype.card_fin]
  rw [← List.mem_toFinset, full]
  exact Finset.mem_univ v

/-- The vertex in each place of a list that has every vertex once. -/
def orderingOf (nodup : vertices.Nodup) (all : vertices.length = n) : Equiv.Perm (Fin n) :=
  (finCongr all.symm).trans
    (nodup.getEquivOfForallMemList vertices (mem_of_nodup_of_length nodup all))

theorem map_orderingOf (nodup : vertices.Nodup) (all : vertices.length = n) :
    (List.finRange n).map (orderingOf nodup all) = vertices := by
  refine List.ext_getElem (by simp [all]) fun i _ _ => ?_
  simp [orderingOf]

/-- The inverse tells at which place a vertex stands. -/
theorem val_orderingOf_symm (nodup : vertices.Nodup) (all : vertices.length = n) (v : Fin n) :
    ((orderingOf nodup all).symm v).val = vertices.idxOf v := rfl

end Ordering

/-! ## The graph of a pattern -/

namespace Graph

variable {n : Nat}

/-- Neither the direction of edges counts, nor how often they occur. -/
theorem ofEdges_congr {edges edges' : List (Fin n × Fin n)}
    (same : ∀ u v, (u, v) ∈ edges ∨ (v, u) ∈ edges ↔ (u, v) ∈ edges' ∨ (v, u) ∈ edges') :
    ofEdges edges = ofEdges edges' := by
  refine congrArg (fun f => Graph.mk (Vector.ofFn f)) (funext fun u => ?_)
  refine List.filter_congr fun v _ => ?_
  rw [Bool.eq_iff_iff]
  simpa using same u v

end Graph

namespace Reference

/-- Two rows, counted from zero, are joined by an entry of the pattern. -/
def Joins (s : Pattern) (u v : Fin s.dim.toNat) : Prop :=
  (place u, place v) ∈ s.rows.zip s.cols ∨ (place v, place u) ∈ s.rows.zip s.cols

/-- How many entries have an index outside of the matrix. -/
def outside (s : Pattern) : Nat :=
  (s.rows.zip s.cols).countP fun p => ¬((1 ≤ p.1 ∧ p.1 ≤ s.dim) ∧ 1 ≤ p.2 ∧ p.2 ≤ s.dim)

section Positions

variable {n : Nat} {s : Pattern}

theorem position?_eq_some_iff {i j : Int} {u v : Fin n} :
    position? n i j = some (u, v) ↔ i = place u ∧ j = place v := by
  have u_lt := u.isLt
  have v_lt := v.isLt
  unfold position? place
  split_ifs with within
  · simp only [Option.some.injEq, Prod.mk.injEq, Fin.ext_iff]
    omega
  · simp only [false_iff]
    omega

theorem positions_eq_map (n : Nat) (s : Pattern) :
    positions n s = (s.rows.zip s.cols).map fun p => position? n p.1 p.2 := by
  rw [positions, ← List.map_uncurry_zip_eq_zipWith]
  rfl

theorem mem_positions_iff {u v : Fin n} :
    (u, v) ∈ (positions n s).filterMap id ↔ (place u, place v) ∈ s.rows.zip s.cols := by
  rw [positions_eq_map, List.filterMap_map, List.mem_filterMap]
  constructor
  · rintro ⟨⟨i, j⟩, member, found⟩
    obtain ⟨rfl, rfl⟩ := position?_eq_some_iff.1 found
    exact member
  · intro member
    exact ⟨_, member, position?_eq_some_iff.2 ⟨rfl, rfl⟩⟩

theorem countP_positions (dim : 0 ≤ s.dim) :
    (positions s.dim.toNat s).countP Option.isNone = outside s := by
  rw [positions_eq_map, List.countP_map, outside]
  refine List.countP_congr fun p _ => ?_
  simp only [Function.comp_apply, position?]
  split_ifs with within <;> simp <;> omega

theorem ofEdges_positions {s' : Pattern} (same : ∀ u v : Fin n,
    (place u, place v) ∈ s.rows.zip s.cols ∨ (place v, place u) ∈ s.rows.zip s.cols ↔
      (place u, place v) ∈ s'.rows.zip s'.cols ∨ (place v, place u) ∈ s'.rows.zip s'.cols) :
    Graph.ofEdges ((positions n s).filterMap id) = Graph.ofEdges ((positions n s').filterMap id) :=
  Graph.ofEdges_congr fun u v => by
    rw [mem_positions_iff, mem_positions_iff, mem_positions_iff, mem_positions_iff, same u v]

end Positions

/-! ## What is kept -/

/-- An analysis has enough room, and the indices pair up. -/
structure AnalysisRoom (s : Pattern) (iwLength keepLength : Nat) : Prop where
  dim : 1 ≤ s.dim
  paired : s.cols.length = s.rows.length
  integers : analysisIntegers s.dim s.rows.length ≤ iwLength
  index : 3 * s.dim ≤ keepLength

/-- The front of the index array is a permutation and its inverse, both counted from one, and
zeros. -/
def KeepsPermutation {n : Nat} (order : Equiv.Perm (Fin n)) (keep : List Int) : Prop :=
  keep.take (3 * n) =
    (List.finRange n).map (fun i => place (order i)) ++
      (List.finRange n).map (fun v => place (order.symm v)) ++ List.replicate n 0

/-- What is kept of a list with every vertex once. -/
theorem keptOrder_eq {n : Nat} {vertices : List (Fin n)} (nodup : vertices.Nodup)
    (all : vertices.length = n) :
    keptOrder vertices = (List.finRange n).map (fun i => place (orderingOf nodup all i)) ++
      (List.finRange n).map (fun v => place ((orderingOf nodup all).symm v)) ++
        List.replicate n 0 := by
  have forth :
      (List.finRange n).map (fun i => place (orderingOf nodup all i)) = vertices.map place := by
    have listed := congrArg (List.map place) (map_orderingOf nodup all)
    rwa [List.map_map] at listed
  rw [forth]
  simp only [place, val_orderingOf_symm]
  rfl

variable {α : Type} [Scalar α]

/-- The index array after an analysis depends on the graph alone. -/
theorem keepsPermutation_analyse {s : Pattern} {iwLength keepLength : Nat}
    (room : AnalysisRoom s iwLength keepLength) (iw : Vector Int iwLength)
    (keep : Vector Int keepLength) {g : Graph s.dim.toNat}
    (graph : Graph.ofEdges ((positions s.dim.toNat s).filterMap id) = g)
    (nodup : g.narrowOrder.Nodup) (all : g.narrowOrder.length = s.dim.toNat) :
    KeepsPermutation (orderingOf nodup all) (analyse s iw keep).keep.toList := by
  have accepted : analysisRefusal? s iwLength keepLength = none :=
    analysisRefusal?_eq_none room.dim room.paired room.integers room.index
  have length := length_keptOrder all
  have fits : (keptOrder g.narrowOrder).length ≤ keepLength :=
    length.trans_le (room_of_analysisRefusal? accepted)
  subst graph
  simp only [analyse, accepted]
  rw [KeepsPermutation, ← keptOrder_eq, toList_overwrite keep fits]
  exact List.take_left' length

/-- **An analysis keeps a permutation and its inverse**, and every pattern with the same graph the
same ones. Entries outside of the matrix are counted. -/
theorem analysis_keeps_permutation {s : Pattern} {iwLength keepLength : Nat}
    (room : AnalysisRoom s iwLength keepLength) (iw : Vector Int iwLength)
    (keep : Vector Int keepLength) (controls : Controls α) :
    ∃ (order : Equiv.Perm (Fin s.dim.toNat)) (info : KernelInfo),
      (kernel.analyse () s iw keep controls).answer = .ok info.toRaw ∧
      KeepsPermutation order (kernel.analyse () s iw keep controls).keep.toList ∧
      info.flag = (if outside s = 0 then 0 else 1) ∧ info.detail = outside s ∧
      ∀ (rows cols : List Int),
        (∀ u v, Joins ⟨s.dim, rows, cols⟩ u v ↔ Joins s u v) →
        ∀ {iwLength' keepLength' : Nat}, AnalysisRoom ⟨s.dim, rows, cols⟩ iwLength' keepLength' →
        ∀ (iw' : Vector Int iwLength') (keep' : Vector Int keepLength') (controls' : Controls α),
          KeepsPermutation order
            (kernel.analyse () ⟨s.dim, rows, cols⟩ iw' keep' controls').keep.toList := by
  have single := Graph.nodup_neighbours_ofEdges ((positions s.dim.toNat s).filterMap id)
  have accepted : analysisRefusal? s iwLength keepLength = none :=
    analysisRefusal?_eq_none room.dim room.paired room.integers room.index
  have counted := countP_positions (s := s) (by have := room.dim; omega)
  refine ⟨orderingOf (Graph.nodup_narrowOrder single) (Graph.length_narrowOrder single),
    analysisInfo s (positions s.dim.toNat s), ?_, keepsPermutation_analyse room iw keep rfl _ _,
    ?_, ?_, fun rows cols same iwLength' keepLength' room' iw' keep' controls' => ?_⟩
  · simp only [kernel, analyse, accepted]
  · simp only [analysisInfo, counted]
  · simp only [analysisInfo, counted]
  · exact keepsPermutation_analyse room' iw' keep' (ofEdges_positions same) _ _

/-- One of the five entries is outside of the matrix, and two of them name the same edge. -/
theorem analysis_keeps_permutation_turned :
    AnalysisRoom turned 20 9 ∧ AnalysisRoom ⟨3, [1, 2, 3], [2, 2, 3]⟩ 16 12 ∧
    ∃ (order : Equiv.Perm (Fin 3)) (info : KernelInfo),
      (kernel.analyse () turned (Vector.replicate 20 7) (Vector.replicate 9 7)
        (defaultControls : Controls ℚ)).answer = .ok info.toRaw ∧
      info.flag = 1 ∧ info.detail = 1 ∧
      KeepsPermutation order (kernel.analyse () ⟨3, [1, 2, 3], [2, 2, 3]⟩ (Vector.replicate 16 0)
        (Vector.replicate 12 0) (defaultControls : Controls ℚ)).keep.toList := by
  have room : AnalysisRoom turned 20 9 := ⟨by decide, rfl, by decide, by decide⟩
  have room' : AnalysisRoom ⟨3, [1, 2, 3], [2, 2, 3]⟩ 16 12 :=
    ⟨by decide, rfl, by decide, by decide⟩
  have same : ∀ u v : Fin turned.dim.toNat,
      Joins ⟨turned.dim, [1, 2, 3], [2, 2, 3]⟩ u v ↔ Joins turned u v := by
    unfold Joins
    decide +kernel
  obtain ⟨order, info, answered, -, flag, detail, others⟩ := analysis_keeps_permutation room
    (Vector.replicate 20 7) (Vector.replicate 9 7) (defaultControls : Controls ℚ)
  have one : outside turned = 1 := by decide +kernel
  rw [one] at flag detail
  exact ⟨room, room', order, info, answered, flag, detail, others _ _ same room' _ _ _⟩

end Reference

end SymSolve
