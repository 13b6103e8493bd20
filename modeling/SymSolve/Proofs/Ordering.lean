import Mathlib.Data.Fintype.Card
import Mathlib.Data.List.Nodup
import Mathlib.Data.List.Sort
import SymSolve.Dense
import SymSolve.Ordering

/-!
# The ordering is a permutation

**Theorem (`narrowOrder_nodup`, `length_narrowOrder`).** Every vertex of a graph is in its reverse
Cuthill–McKee ordering, once. A round adds only vertices that are not in the list yet, and after
`t` rounds the list has at least `t` vertices: where it has no place `t` yet, a seed fills it.

Sorting by degree is stable, so it does not matter how it is done (`byDegree_eq_insertionSort`).
-/

namespace SymSolve.Graph

variable {n : Nat} {g : Graph n}

/-- The vertices so far, after `t` rounds. -/
structure Visits (visited : List (Fin n)) (t : Nat) : Prop where
  nodup : visited.Nodup
  enough : t ≤ visited.length

theorem exists_unvisited {visited : List (Fin n)} (short : visited.length < n) :
    (List.finRange n).filter (fun v => !visited.contains v) ≠ [] := by
  intro none
  have all : List.finRange n ⊆ visited := by
    intro v hv
    simpa using (List.filter_eq_nil_iff.1 none) v hv
  have := ((List.nodup_finRange n).subperm all).length_le
  simp at this
  omega

theorem nodup_append_fresh {visited fresh : List (Fin n)} (h : visited.Nodup) (h' : fresh.Nodup)
    (new : ∀ v ∈ fresh, v ∉ visited) : (visited ++ fresh).Nodup :=
  List.Nodup.append h h' fun v hv hv' => new v hv' hv

theorem mem_byDegree {vertices : List (Fin n)} {v : Fin n} :
    v ∈ g.byDegree vertices ↔ v ∈ vertices := List.mem_mergeSort

theorem nodup_byDegree {vertices : List (Fin n)} (h : vertices.Nodup) :
    (g.byDegree vertices).Nodup := (List.mergeSort_perm _ _).nodup_iff.2 h

/-- A vertex is inserted behind those of smaller degree and before all others. -/
theorem orderedInsert_append {v : Fin n} {front back : List (Fin n)}
    (smaller : ∀ u ∈ front, g.degree u < g.degree v) (larger : ∀ u ∈ back, g.degree v ≤ g.degree u) :
    List.orderedInsert (fun u v => g.degree u ≤ g.degree v) v (front ++ back) =
      front ++ v :: back := by
  induction front with
  | nil =>
    cases back with
    | nil => rfl
    | cons u back => simp [larger u]
  | cons u front ih =>
    have after := smaller u List.mem_cons_self
    rw [List.cons_append, List.orderedInsert_cons, if_neg (Nat.not_le.2 after),
      ih fun u hu => smaller u (List.mem_cons_of_mem _ hu)]
    rfl

/-- Merging sorts as inserting does, since both are stable. -/
theorem byDegree_eq_insertionSort (g : Graph n) (vertices : List (Fin n)) :
    g.byDegree vertices = vertices.insertionSort fun u v => g.degree u ≤ g.degree v := by
  let le (u v : Fin n) : Bool := g.degree u ≤ g.degree v
  have trans (a b c : Fin n) (ab : le a b) (bc : le b c) : le a c := by
    simp only [le, decide_eq_true_eq] at *
    omega
  have total (a b : Fin n) : le a b || le b a := by
    simp only [le, Bool.or_eq_true, decide_eq_true_eq]
    omega
  induction vertices with
  | nil => simp [byDegree]
  | cons v vertices ih =>
    obtain ⟨front, back, whole, rest, smaller⟩ := List.mergeSort_cons trans total v vertices
    have sorted := List.pairwise_mergeSort trans total (v :: vertices)
    rw [whole, List.pairwise_append, List.pairwise_cons] at sorted
    have before : ∀ u ∈ front, g.degree u < g.degree v := by simpa [le] using smaller
    have behind : ∀ u ∈ back, g.degree v ≤ g.degree u := by simpa [le] using sorted.2.1.1
    rw [List.insertionSort_cons, ← ih]
    exact whole.trans ((orderedInsert_append before behind).symm.trans (congrArg _ rest.symm))

/-- The seed is a vertex that was not visited yet. -/
theorem exists_seed (g : Graph n) {visited : List (Fin n)} (short : visited.length < n) :
    ∃ seed, (g.byDegree ((List.finRange n).filter fun v => !visited.contains v)).head? = some seed ∧
      seed ∉ visited := by
  have left := exists_unvisited short
  generalize unvisited : (List.finRange n).filter (fun v => !visited.contains v) = vertices at left
  cases sorted : g.byDegree vertices with
  | nil => exact absurd ((List.mergeSort_perm vertices _).symm.trans (.of_eq sorted)).eq_nil left
  | cons seed others =>
    refine ⟨seed, rfl, ?_⟩
    have : seed ∈ vertices := mem_byDegree.1 (sorted ▸ List.mem_cons_self)
    rw [← unvisited] at this
    simpa using this

theorem Visits.withSeed (g : Graph n) {visited : List (Fin n)} {t : Nat} (h : Visits visited t)
    (ht : t < n) : Visits (g.withSeed visited t) (t + 1) := by
  unfold Graph.withSeed
  split
  · next inside => exact ⟨h.nodup, inside⟩
  · next outside =>
    have length : visited.length = t := by
      have := h.enough
      omega
    obtain ⟨seed, first, unvisited⟩ := exists_seed g (length ▸ ht)
    dsimp only
    rw [first]
    refine ⟨nodup_append_fresh h.nodup (List.nodup_singleton seed) ?_, ?_⟩
    · simpa using unvisited
    · simp [length]

theorem Visits.round (single : ∀ v, (g.neighbours.get v).Nodup) {visited : List (Fin n)} {t : Nat}
    (h : Visits visited t) (ht : t < n) : Visits (g.round visited t) (t + 1) := by
  have seeded := h.withSeed g ht
  unfold Graph.round
  dsimp only
  split
  · exact seeded
  · next v _ =>
    refine ⟨nodup_append_fresh seeded.nodup (nodup_byDegree ((single v).filter _)) ?_, ?_⟩
    · intro w hw
      simpa using (List.mem_filter.1 (mem_byDegree.1 hw)).2
    · have := seeded.enough
      rw [List.length_append]
      omega

theorem visits_rounds (single : ∀ v, (g.neighbours.get v).Nodup) {t : Nat} (ht : t ≤ n) :
    Visits ((List.range t).foldl g.round []) t := by
  induction t with
  | zero => exact ⟨List.nodup_nil, Nat.le_refl 0⟩
  | succ t ih =>
    rw [List.range_succ, List.foldl_append]
    exact (ih (by omega)).round single (by omega)

theorem nodup_neighbours_ofEdges (edges : List (Fin n × Fin n)) (v : Fin n) :
    ((ofEdges edges).neighbours.get v).Nodup := by
  have : (ofEdges edges).neighbours.get v = (List.finRange n).filter fun j =>
      edges.contains (v, j) || edges.contains (j, v) := by
    rw [ofEdges, vector_get_ofFn]
  rw [this]
  exact (List.nodup_finRange n).filter _

variable (single : ∀ v, (g.neighbours.get v).Nodup)

include single in
theorem nodup_narrowOrder : g.narrowOrder.Nodup :=
  List.nodup_reverse.2 (visits_rounds single (Nat.le_refl n)).nodup

include single in
theorem length_narrowOrder : g.narrowOrder.length = n := by
  obtain ⟨nodup, enough⟩ := visits_rounds single (Nat.le_refl n)
  have := nodup.length_le_card
  rw [Fintype.card_fin] at this
  rw [narrowOrder, List.length_reverse]
  exact Nat.le_antisymm this enough

end SymSolve.Graph
