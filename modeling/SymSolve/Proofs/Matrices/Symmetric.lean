import Mathlib.Algebra.Order.Ring.Rat
import SymSolve.Proofs.Matrices.Merging

/-!
# Views of symmetric matrices

**Theorem (`symmetric_views_lose_nothing`).** Triplets that are made from a symmetric matrix, given
as a table or as a coordinate matrix, denote that matrix. They list places on and below the diagonal,
by rows and within a row by columns, so that none occurs twice. From a table they list the whole
diagonal and what is not zero below it; from a coordinate matrix the places that it lists there,
explicit zeros included.

A list of this kind is a `Triangle`. Writing it out adds mirror images above the diagonal, and
reading that in again drops them (`Triangle.lowerPart_written`), so that a view which is written out
and read in is the same view under another tag (`Triangle.exec_ofSparse_full`).
-/

namespace SymSolve

/-! ## Triangles -/

/-- Entries on and below the diagonal, sorted by rows and columns, at most one at each place. -/
structure Triangle {n : Nat} {α : Type} (es : List (Entry n n α)) : Prop where
  below : ∀ e ∈ es, e.col ≤ e.row
  sorted : (es.map Entry.place).Pairwise (· < ·)

/-- An entry stands in row `i` and column `j`. -/
def Occupied {m n : Nat} {α : Type} (es : List (Entry m n α)) (i : Fin m) (j : Fin n) : Prop :=
  ∃ e ∈ es, e.row = i ∧ e.col = j

theorem occupied_iff {m n : Nat} {α : Type} {es : List (Entry m n α)} {i : Fin m} {j : Fin n} :
    Occupied es i j ↔ toLex (i, j) ∈ es.map Entry.place := by
  simp [Occupied, Entry.place]

namespace Entry

variable {m n : Nat} {α : Type}

/-- The entries on and below the diagonal. -/
def lowerPart (es : List (Entry n n α)) : List (Entry n n α) :=
  es.filter fun e => (e.col : Nat) ≤ e.row

theorem occupied_lowerPart {es : List (Entry n n α)} {i j : Fin n} :
    Occupied (lowerPart es) i j ↔ j ≤ i ∧ Occupied es i j := by
  constructor
  · rintro ⟨e, member, rfl, rfl⟩
    obtain ⟨own, below⟩ := List.mem_filter.1 member
    exact ⟨of_decide_eq_true below, e, own, rfl, rfl⟩
  · rintro ⟨below, e, own, rfl, rfl⟩
    exact ⟨e, List.mem_filter.2 ⟨own, decide_eq_true below⟩, rfl, rfl⟩

variable [Add α]

/-- The entries with equal positions summed, sorted by rows and columns. -/
def merge (es : List (Entry m n α)) : List (Entry m n α) :=
  es.foldl (fun sorted e => e.insert sorted) []

/-- An entry behind all others comes last. -/
theorem insert_of_behind (e : Entry m n α) {es : List (Entry m n α)}
    (behind : ∀ f ∈ es, f.place < e.place) : e.insert es = es ++ [e] := by
  induction es with
  | nil => rfl
  | cons f fs ih =>
    rw [List.forall_mem_cons] at behind
    have other : ¬ e.samePlace f = true := fun same =>
      behind.1.ne' ((samePlace_iff e f).1 same)
    have after : ¬ e.before f = true := fun before =>
      lt_asymm behind.1 ((before_iff e f).1 before)
    rw [insert, if_neg other, if_neg after, ih behind.2, List.cons_append]

/-- An entry above the diagonal changes nothing below it. -/
theorem lowerPart_insert_of_above (e : Entry n n α) (above : e.row < e.col)
    (es : List (Entry n n α)) : lowerPart (e.insert es) = lowerPart es := by
  have dropped : (decide ((e.col : Nat) ≤ e.row)) = false := decide_eq_false (not_le.2 above)
  fun_induction Entry.insert e es with
  | case1 => exact List.filter_cons_of_neg (ne_true_of_eq_false dropped)
  | case2 f fs same =>
    obtain ⟨row, col⟩ : e.row = f.row ∧ e.col = f.col := by simpa [samePlace] using same
    rw [row, col] at dropped
    simp only [lowerPart, List.filter_cons, dropped]
    rfl
  | case3 f fs other before => exact List.filter_cons_of_neg (ne_true_of_eq_false dropped)
  | case4 f fs other after ih =>
    unfold lowerPart at ih ⊢
    rw [List.filter_cons, List.filter_cons, ih]

/-- Sorted entries stay as they are. -/
theorem merge_of_sorted {es : List (Entry m n α)}
    (sorted : (es.map place).Pairwise (· < ·)) : merge es = es := by
  have appended (es front : List (Entry m n α))
      (sorted : ((front ++ es).map place).Pairwise (· < ·)) :
      es.foldl (fun sorted e => e.insert sorted) front = front ++ es := by
    induction es generalizing front with
    | nil => exact (List.append_nil front).symm
    | cons e es ih =>
      have behind : ∀ f ∈ front, f.place < e.place := fun f member => by
        rw [List.map_append, List.pairwise_append] at sorted
        exact sorted.2.2 _ (List.mem_map_of_mem member) _ List.mem_cons_self
      rw [List.append_cons] at sorted
      rw [List.foldl_cons, e.insert_of_behind behind, ih _ sorted, ← List.append_cons]
  exact appended es [] sorted

/-- Merging keeps the places. -/
theorem occupied_merge {es : List (Entry m n α)} {i : Fin m} {j : Fin n} :
    Occupied (merge es) i j ↔ Occupied es i j := by
  have kept (es sorted : List (Entry m n α)) (p : Lex (Fin m × Fin n)) :
      p ∈ (es.foldl (fun sorted e => e.insert sorted) sorted).map place ↔
        p ∈ sorted.map place ∨ p ∈ es.map place := by
    induction es generalizing sorted with
    | nil => simp
    | cons e es ih =>
      rw [List.foldl_cons, ih, mem_places_insert, List.map_cons, List.mem_cons]
      tauto
  rw [occupied_iff, occupied_iff]
  exact (kept es [] _).trans (by simp)

/-- The entries of the full matrix, each position once. -/
def written (es : List (Entry n n α)) : List (Entry n n α) :=
  merge (es ++ es.filterMap fun e => if e.row = e.col then none else some e.swap)

theorem triangle_merge_lowerPart (es : List (Entry n n α)) : Triangle (merge (lowerPart es)) where
  below e member := (occupied_lowerPart.1 (occupied_merge.1 ⟨e, member, rfl, rfl⟩)).1
  sorted := Sparse.pairwise_merged ⟨n, n, lowerPart es⟩

end Entry

/-! ## Writing out and reading in -/

open Entry SymTriplets

namespace Triangle

variable {n : Nat} {α : Type} {es : List (Entry n n α)}

/-- What is written out has the triangle itself below the diagonal. -/
theorem lowerPart_written [Add α] (h : Triangle es) : lowerPart (written es) = es := by
  let mirrors : List (Entry n n α) := es.filterMap fun e =>
    if e.row = e.col then none else some e.swap
  have above : ∀ e ∈ mirrors, e.row < e.col := by
    intro e member
    obtain ⟨f, own, mirrored⟩ := List.mem_filterMap.1 member
    by_cases diagonal : f.row = f.col
    · rw [if_pos diagonal] at mirrored
      cases mirrored
    · rw [if_neg diagonal] at mirrored
      cases mirrored
      exact lt_of_le_of_ne (h.below f own) (Ne.symm diagonal)
  have dropped (others front : List (Entry n n α)) (above : ∀ e ∈ others, e.row < e.col) :
      lowerPart (others.foldl (fun sorted e => e.insert sorted) front) = lowerPart front := by
    induction others generalizing front with
    | nil => rfl
    | cons e others ih =>
      rw [List.forall_mem_cons] at above
      rw [List.foldl_cons, ih _ above.2, e.lowerPart_insert_of_above above.1]
  calc lowerPart (written es)
      = lowerPart (merge es) := by
        unfold written merge
        rw [List.foldl_append, dropped mirrors _ above]
    _ = lowerPart es := by rw [merge_of_sorted h.sorted]
    _ = es := List.filter_eq_self.2 fun e member => decide_eq_true (h.below e member)

/-- **A view that is written out and read in** is the same view under another tag. -/
theorem exec_ofSparse_full [Scalar α] (h : Triangle es)
    (finite : ∀ v : α, Scalar.isFinite v = true) (tag : Nat) (source : TagSource) :
    (ofSparse (full ⟨n, es, tag⟩).merged).exec source =
      (.ok ⟨n, es, source.last + 2⟩, ⟨source.last + 2⟩) := by
  have own : merge (lowerPart (written es)) = es := by
    rw [h.lowerPart_written, merge_of_sorted h.sorted]
  calc (ofSparse (full ⟨n, es, tag⟩).merged).exec source
      = (.ok ⟨n, merge (lowerPart (written es)), source.last + 2⟩, ⟨source.last + 2⟩) :=
        exec_ofSparse_square (written es) source finite
    _ = (.ok ⟨n, es, source.last + 2⟩, ⟨source.last + 2⟩) := by rw [own]

end Triangle

/-! ## Views of a matrix -/

open Matrix

theorem apply_max_min {n : Nat} {α : Type} {S : Matrix (Fin n) (Fin n) α} (symmetric : S.IsSymm)
    (i j : Fin n) :
    S (max i j) (min i j) = S i j := by
  rcases le_total i j with le | le
  · rw [max_eq_right le, min_eq_left le, symmetric.apply]
  · rw [max_eq_left le, min_eq_right le]

variable {K : Type} [Field K] {n : Nat} {es : List (Entry n n K)} {S : Matrix (Fin n) (Fin n) K}

/-- Where no place occurs twice, the sum at a place is the value there, and zero if there is none. -/
theorem sumWhere_of_nodup (distinct : (es.map Entry.place).Nodup) {i j : Fin n} {v : K}
    (own : ∀ e ∈ es, e.row = i ∧ e.col = j → e.value = v) (absent : ¬ Occupied es i j → v = 0) :
    sumWhere (fun r c => r = i ∧ c = j) es = v := by
  induction es with
  | nil =>
    refine (absent ?_).symm
    rintro ⟨_, member, -⟩
    cases member
  | cons e es ih =>
    rw [List.map_cons, List.nodup_cons] at distinct
    rw [List.forall_mem_cons] at own
    rw [sumWhere_cons]
    by_cases here : e.row = i ∧ e.col = j
    · have alone : ∀ f ∈ es, ¬ (f.row = i ∧ f.col = j) :=
        here.1 ▸ here.2 ▸ e.alone_of_notMem distinct.1
      rw [if_pos here, sumWhere_eq_zero alone, add_zero, own.1 here]
    · rw [if_neg here, zero_add]
      refine ih distinct.2 own.2 fun missing => absent ?_
      rintro ⟨f, member, same⟩
      cases List.mem_cons.1 member with
      | inl first => exact here (first ▸ same)
      | inr later => exact missing ⟨f, later, same⟩

variable [LinearOrder K] [FloorRing K]

/-- Triplets with these entries are a view of the matrix with certain places. -/
structure IsView (S : Matrix (Fin n) (Fin n) K) (listed : Fin n → Fin n → Prop)
    (es : List (Entry n n K)) : Prop extends Triangle es where
  /-- Written out, they are the matrix. -/
  matrix : ∀ tag, (full ⟨n, es, tag⟩).merged.toMatrix = S
  /-- They stand at the places and nowhere else. -/
  occupied : ∀ i j, Occupied es i j ↔ listed i j
  /-- What is written out can be read in, and is the same view under another tag. -/
  again : ∀ (tag : Nat) (later : TagSource),
    (ofSparse (full ⟨n, es, tag⟩).merged).exec later =
      (.ok ⟨n, es, later.last + 2⟩, ⟨later.last + 2⟩)

/-- A triangle with the values of a symmetric matrix, and all of them that are not zero, is a view
of it. -/
theorem Triangle.isView (h : Triangle es) (symmetric : S.IsSymm)
    (values : ∀ e ∈ es, e.value = S e.row e.col)
    (absent : ∀ i j, j ≤ i → ¬ Occupied es i j → S i j = 0) : IsView S (Occupied es) es where
  toTriangle := h
  matrix tag := by
    refine (Sparse.toMatrix_merged _).trans (toMatrix_full (fun i j => ?_) tag)
    calc (es.map fun e => e.share i j).sum
        = sumWhere (fun r c => r = max i j ∧ c = min i j) es := by
          refine congrArg List.sum (List.map_congr_left fun e member => ?_)
          exact (if_pos (h.below e member)).symm.trans (share_of_lower e i j)
      _ = S (max i j) (min i j) := by
          refine sumWhere_of_nodup (h.sorted.imp ne_of_lt) ?_ (absent _ _ min_le_max)
          rintro e member ⟨row, col⟩
          rw [values e member, row, col]
      _ = S i j := apply_max_min symmetric i j
  occupied _ _ := Iff.rfl
  again := h.exec_ofSparse_full fun _ => rfl

/-! ## From a coordinate matrix -/

/-- The lower triangle of a symmetric coordinate matrix is a view of it. -/
theorem isView_lowerPart (symmetric : S.IsSymm) (sums : Sparse.toMatrix ⟨n, n, es⟩ = S) :
    IsView S (fun i j => j ≤ i ∧ Occupied es i j) (merge (lowerPart es)) where
  toTriangle := triangle_merge_lowerPart es
  matrix tag := by
    have mirrored (i j : Fin n) : (full ⟨n, merge (lowerPart es), tag⟩).value i j = S i j := by
      rw [← apply_max_min symmetric, ← sums]
      exact full_ofLower es tag i j
    refine (Sparse.toMatrix_merged _).trans ?_
    funext i j
    exact mirrored i j
  occupied _ _ := occupied_merge.trans occupied_lowerPart
  again := (triangle_merge_lowerPart es).exec_ofSparse_full fun _ => rfl

/-! ## From a table -/

/-- The table of a matrix, row by row. -/
def Grid.ofMatrix {α : Type} (S : Matrix (Fin n) (Fin n) α) : Grid α :=
  ⟨[n, n], List.ofFn fun place : Fin (n * n) => S place.divNat place.modNat⟩

theorem cell_ofMatrix {α : Type} [Scalar α] (S : Matrix (Fin n) (Fin n) α) (i j : Fin n) :
    Sparse.cell n (Grid.ofMatrix S).entries i j = S i j := by
  have inside : i.val * n + j.val < n * n := by
    calc i.val * n + j.val < i.val * n + n := by omega
      _ = (i.val + 1) * n := (Nat.succ_mul _ _).symm
      _ ≤ n * n := Nat.mul_le_mul_right n i.isLt
  have row : (i.val * n + j.val) / n = i := by
    rw [Nat.mul_comm, Nat.mul_add_div j.pos, Nat.div_eq_of_lt j.isLt, Nat.add_zero]
  have col : (i.val * n + j.val) % n = j := by
    rw [Nat.mul_comm, Nat.mul_add_mod, Nat.mod_eq_of_lt j.isLt]
  have found : (Grid.ofMatrix S).entries[i.val * n + j.val]? = some (S i j) := by
    rw [Grid.ofMatrix, List.getElem?_ofFn, dif_pos inside]
    exact congrArg some (congrArg₂ S (Fin.ext row) (Fin.ext col))
  rw [Sparse.cell, found]
  rfl

section Tables

variable {α : Type} [Scalar α] {entries : List α}

/-- The entry that is taken from a table at a place, if there is one. -/
def tableCell? (entries : List α) (i j : Fin n) : Option (Entry n n α) :=
  if j < i ∧ Scalar.eq (Sparse.cell n entries i j) 0 = false ∨ i = j then
    some ⟨i, j, Sparse.cell n entries i j⟩
  else none

/-- The entries that are taken from a table: the diagonal, and below it what is not zero. -/
def tableTriangle (n : Nat) (entries : List α) : List (Entry n n α) :=
  (List.finRange n).flatMap fun i => (List.finRange n).filterMap (tableCell? entries i)

theorem tableCell?_eq_some {i j : Fin n} {e : Entry n n α} :
    tableCell? entries i j = some e ↔
      (j < i ∧ Scalar.eq (Sparse.cell n entries i j) 0 = false ∨ i = j) ∧
        e = ⟨i, j, Sparse.cell n entries i j⟩ := by
  rw [tableCell?, Option.ite_none_right_eq_some, Option.some.injEq, eq_comm (b := e)]

theorem mem_tableTriangle {e : Entry n n α} :
    e ∈ tableTriangle n entries ↔ tableCell? entries e.row e.col = some e := by
  simp only [tableTriangle, List.mem_flatMap, List.mem_filterMap, List.mem_finRange, true_and]
  constructor
  · rintro ⟨i, j, taken⟩
    obtain ⟨_, rfl⟩ := tableCell?_eq_some.1 taken
    exact taken
  · intro taken
    exact ⟨_, _, taken⟩

theorem triangle_tableTriangle (entries : List α) : Triangle (tableTriangle n entries) where
  below e member := by
    obtain ⟨kept, -⟩ := tableCell?_eq_some.1 (mem_tableTriangle.1 member)
    exact kept.elim (fun lower => lower.1.le) fun diagonal => diagonal.ge
  sorted := by
    rw [List.pairwise_map, tableTriangle, List.pairwise_flatMap]
    constructor
    · intro i _
      refine List.Pairwise.filterMap _ ?_ (List.pairwise_lt_finRange n)
      intro j j' before e taken e' taken'
      obtain ⟨_, rfl⟩ := tableCell?_eq_some.1 taken
      obtain ⟨_, rfl⟩ := tableCell?_eq_some.1 taken'
      exact Prod.Lex.toLex_lt_toLex.2 (.inr ⟨rfl, before⟩)
    · refine (List.pairwise_lt_finRange n).imp ?_
      intro i i' before e taken e' taken'
      obtain ⟨j, -, taken⟩ := List.mem_filterMap.1 taken
      obtain ⟨j', -, taken'⟩ := List.mem_filterMap.1 taken'
      obtain ⟨_, rfl⟩ := tableCell?_eq_some.1 taken
      obtain ⟨_, rfl⟩ := tableCell?_eq_some.1 taken'
      exact Prod.Lex.toLex_lt_toLex.2 (.inl before)

theorem occupied_tableTriangle {i j : Fin n} :
    Occupied (tableTriangle n entries) i j ↔
      j < i ∧ Scalar.eq (Sparse.cell n entries i j) 0 = false ∨ i = j := by
  constructor
  · rintro ⟨e, member, rfl, rfl⟩
    exact (tableCell?_eq_some.1 (mem_tableTriangle.1 member)).1
  · intro kept
    exact ⟨⟨i, j, Sparse.cell n entries i j⟩,
      mem_tableTriangle.2 (tableCell?_eq_some.2 ⟨kept, rfl⟩), rfl, rfl⟩

/-- **What is made from a square table** are the triplets of its triangle. -/
theorem exec_ofTable (entries : List α) (source : TagSource)
    (finite : ∀ v : α, Scalar.isFinite v = true) :
    (ofTable ⟨[n, n], entries⟩).exec source =
      (.ok ⟨n, tableTriangle n entries, source.last + 2⟩, ⟨source.last + 2⟩) := by
  let positions : List (Fin n × Fin n) := (List.finRange n).flatMap fun i : Fin n =>
    (List.finRange n).filterMap fun j : Fin n =>
      if j < i ∧ Scalar.eq (Sparse.cell n entries i j) 0 = false ∨ i = j then some (i, j) else none
  have places : (tableTriangle n entries).map (fun e => (e.row, e.col)) = positions := by
    simp only [tableTriangle, positions, List.map_flatMap, List.map_filterMap, tableCell?,
      apply_ite (Option.map _), Option.map_some, Option.map_none]
  have values : (tableTriangle n entries).map Entry.value =
      positions.map fun p => Sparse.cell n entries p.1 p.2 := by
    rw [← places, List.map_map]
    refine List.map_congr_left fun e member => ?_
    obtain ⟨-, own⟩ := tableCell?_eq_some.1 (mem_tableTriangle.1 member)
    exact congrArg Entry.value own
  calc (ofTable ⟨[n, n], entries⟩).exec source
      = ((zeroAt positions (source.last + 1)).setValues
          (positions.map fun p => Sparse.cell n entries p.1 p.2)).exec ⟨source.last + 1⟩ := by
        unfold ofTable
        simp only [Grid.extents?, ne_eq, not_true_eq_false, if_false]
        rfl
    _ = (.ok ⟨n, tableTriangle n entries, source.last + 2⟩, ⟨source.last + 2⟩) := by
        rw [← values, ← places]
        exact exec_fill _ _ ⟨source.last + 1⟩ fun e _ => finite e.value

end Tables

/-- The triangle of the table of a symmetric matrix is a view of it. -/
theorem isView_tableTriangle (symmetric : S.IsSymm) :
    IsView S (fun i j => i = j ∨ j < i ∧ S i j ≠ 0)
      (tableTriangle n (Grid.ofMatrix S).entries) := by
  have listed (i j : Fin n) : Occupied (tableTriangle n (Grid.ofMatrix S).entries) i j ↔
      i = j ∨ j < i ∧ S i j ≠ 0 := by
    rw [occupied_tableTriangle, cell_ofMatrix, Scalar.eq_eq_false_iff, or_comm]
  have view := (triangle_tableTriangle (Grid.ofMatrix S).entries).isView symmetric
    (fun e member => by
      obtain ⟨-, own⟩ := tableCell?_eq_some.1 (mem_tableTriangle.1 member)
      exact (congrArg Entry.value own).trans (cell_ofMatrix S e.row e.col))
    (fun i j below missing => by
      rw [listed] at missing
      by_contra nonzero
      rcases below.lt_or_eq with lower | diagonal
      · exact missing (.inr ⟨lower, nonzero⟩)
      · exact missing (.inl diagonal.symm))
  exact { view with occupied := listed }

/-- **Nothing of a symmetric matrix is lost** in a view of it. -/
theorem symmetric_views_lose_nothing (symmetric : S.IsSymm) (source : TagSource) :
    (∃ es, (ofTable (Grid.ofMatrix S)).exec source =
        (.ok ⟨n, es, source.last + 2⟩, ⟨source.last + 2⟩) ∧
      IsView S (fun i j => i = j ∨ j < i ∧ S i j ≠ 0) es) ∧
    ∀ stored : List (Entry n n K), Sparse.toMatrix ⟨n, n, stored⟩ = S →
      ∃ es, (ofSparse ⟨n, n, stored⟩).exec source =
          (.ok ⟨n, es, source.last + 2⟩, ⟨source.last + 2⟩) ∧
        IsView S (fun i j => j ≤ i ∧ Occupied stored i j) es := by
  constructor
  · exact ⟨_, exec_ofTable _ source fun _ => rfl, isView_tableTriangle symmetric⟩
  · intro stored sums
    exact ⟨_, exec_ofSparse_square stored source fun _ => rfl, isView_lowerPart symmetric sums⟩

/-- The matrix of entries that occur twice, with a zero on its diagonal, which a table shows and a
list of entries may show. -/
theorem symmetric_views_lose_nothing_repeated :
    let S : Matrix (Fin 2) (Fin 2) ℚ := repeated.full.toMatrix
    let stored : List (Entry 2 2 ℚ) := ⟨1, 1, 0⟩ :: repeated.full.entries
    S.IsSymm ∧ Sparse.toMatrix ⟨2, 2, stored⟩ = S ∧ S 1 0 = 7 ∧ S 1 1 = 0 ∧
      (∃ es, (ofTable (Grid.ofMatrix S)).exec ⟨0⟩ = (.ok ⟨2, es, 2⟩, ⟨2⟩) ∧
        Occupied es 1 1 ∧ IsView S (fun i j => i = j ∨ j < i ∧ S i j ≠ 0) es) ∧
      ∃ es, (ofSparse ⟨2, 2, stored⟩).exec ⟨0⟩ = (.ok ⟨2, es, 2⟩, ⟨2⟩) ∧
        Occupied es 1 1 ∧ IsView S (fun i j => j ≤ i ∧ Occupied stored i j) es := by
  intro S stored
  have mirror : ∀ i j : Fin 2, repeated.full.value j i = repeated.full.value i j := by
    decide +kernel
  have same : ∀ i j : Fin 2, Sparse.value ⟨2, 2, stored⟩ i j = repeated.full.value i j := by
    decide +kernel
  have symmetric : S.IsSymm := IsSymm.ext mirror
  have sums : Sparse.toMatrix ⟨2, 2, stored⟩ = S := funext fun i => funext fun j => same i j
  have entries : repeated.full.value 1 0 = 7 ∧ repeated.full.value 1 1 = 0 := by decide +kernel
  obtain ⟨table, coordinates⟩ := symmetric_views_lose_nothing symmetric ⟨0⟩
  obtain ⟨es, made, view⟩ := table
  obtain ⟨es', made', view'⟩ := coordinates stored sums
  have zero : Occupied stored 1 1 := ⟨_, List.mem_cons_self, rfl, rfl⟩
  exact ⟨symmetric, sums, entries.1, entries.2,
    ⟨es, made, (view.occupied 1 1).2 (.inl rfl), view⟩,
    ⟨es', made', (view'.occupied 1 1).2 ⟨le_rfl, zero⟩, view'⟩⟩

end SymSolve
