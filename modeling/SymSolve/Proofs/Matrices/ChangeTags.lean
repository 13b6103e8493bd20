import SymSolve.Proofs.Engine.Reached

/-!
# Tags tell contents apart

Whoever reads a tag from a matrix may ask any matrix at any later moment whether it has changed
since. **Theorem (`tags_identify_contents`).** The answer is "no" from that matrix alone, and only
as long as no new values were accepted by it, be they equal to the old ones. This holds over all
runs, in which matrices are made, get values or refuse them, and tags are drawn for other ends.

**Proof.** A run keeps two facts about a tag. While its matrix is not revised, the matrix stays as
it is (`Alters.kept`). Once it is revised, the tag is lost: it was drawn, and nobody carries it
(`Lost.run`).
-/

namespace SymSolve

/-- As many rows, columns and values, positions inside of the matrix, and finite values. -/
structure MatrixView.WellFormed {α : Type} [Scalar α] (m : MatrixView α) : Prop where
  rows : m.rows.length = m.values.length
  cols : m.cols.length = m.values.length
  rowsInside : ∀ i ∈ m.rows, i < m.dim
  colsInside : ∀ j ∈ m.cols, j < m.dim
  finite : ∀ v ∈ m.values, Scalar.isFinite v = true

theorem SymTriplets.Finite.wellFormed {α : Type} [Scalar α] {A : SymTriplets α} (h : A.Finite) :
    A.view.WellFormed where
  rows := by simp [view, values]
  cols := by simp [view, values]
  rowsInside := by
    intro i hi
    obtain ⟨e, -, rfl⟩ := List.mem_map.1 hi
    exact e.row.isLt
  colsInside := by
    intro j hj
    obtain ⟨e, -, rfl⟩ := List.mem_map.1 hj
    exact e.col.isLt
  finite := h

namespace World

variable {α σ : Type}

section Scalar

variable [Scalar α]

/-! ## What an action does to the matrices -/

/-- The matrix at this place accepts the values that the action offers. -/
def Revises (w : World α σ) (action : Action α) (place : Nat) : Prop :=
  ∃ values A B after, action = .setValues place values ∧ w.matrices[place]? = some A ∧
    (A.setValues values).exec w.tags = (.ok B, after)

theorem revises_iff {w : World α σ} {place : Nat} {A : SymTriplets α} {values : List α}
    (found : w.matrices[place]? = some A) :
    w.Revises (.setValues place values) place ↔
      values.length = A.nonzeros ∧ ∀ v ∈ values, Scalar.isFinite v = true := by
  rw [← SymTriplets.refusal?_eq_none]
  constructor
  · rintro ⟨values, A, B, after, ⟨⟩, found', made⟩
    cases found.symm.trans found'
    rw [SymTriplets.exec_setValues] at made
    cases refused : A.refusal? values with
    | none => rfl
    | some cause => rw [refused] at made; cases made
  · intro accepted
    exact ⟨values, A, _, _, rfl, found, by rw [SymTriplets.exec_setValues, accepted]⟩

/-- Values that are refused leave everything as it is. -/
theorem revise_of_refused {w : World α σ} {place : Nat} {A : SymTriplets α} {values : List α}
    (found : w.matrices[place]? = some A)
    (refused : ¬ w.Revises (.setValues place values) place) : w.revise place values = w := by
  rw [revises_iff found, ← SymTriplets.refusal?_eq_none] at refused
  unfold revise
  rw [found]
  dsimp only
  rw [SymTriplets.exec_setValues]
  cases cause : A.refusal? values with
  | none => exact absurd cause refused
  | some cause => rfl

/-- Values that are accepted stand at the old positions, under the next tag. -/
theorem revise_of_accepted {w : World α σ} {place : Nat} {A : SymTriplets α} {values : List α}
    (found : w.matrices[place]? = some A) (accepted : w.Revises (.setValues place values) place) :
    ∃ B, (w.revise place values).matrices[place]? = some B ∧
      B.view = { A.view with values, tag := w.tags.last + 1 } := by
  rw [revises_iff found] at accepted
  refine ⟨A.withValues values (w.tags.last + 1), ?_, SymTriplets.view_withValues _ accepted.1⟩
  unfold revise
  rw [found]
  dsimp only
  rw [SymTriplets.exec_setValues, SymTriplets.refusal?_eq_none.2 accepted]
  exact List.getElem?_set_self (List.getElem?_eq_some_iff.1 found).1

/-- What an action may do to the matrices: nothing, add one under a new tag, or give one of them
new values under a new tag. -/
inductive Alters (w : World α σ) : Action α → World α σ → Prop
  | keeps {action : Action α} {w' : World α σ} (same : w'.matrices = w.matrices)
      (later : w.tags.last ≤ w'.tags.last) (idle : ∀ place, ¬ w.Revises action place) :
      Alters w action w'
  | adds {action : Action α} {w' : World α σ} (A : SymTriplets α)
      (grown : w'.matrices = w.matrices ++ [A]) (new : w.tags.last < A.tag)
      (drawn : A.tag ≤ w'.tags.last) (finite : Scalar.isFinite (0 : α) = true → A.Finite)
      (idle : ∀ place, ¬ w.Revises action place) : Alters w action w'
  | revises {place : Nat} {values : List α} {w' : World α σ} (A : SymTriplets α)
      (found : w.matrices[place]? = some A) (accepted : A.refusal? values = none)
      (set : w'.matrices = w.matrices.set place (A.withValues values (w.tags.last + 1)))
      (drawn : w'.tags.last = w.tags.last + 1) : Alters w (.setValues place values) w'

theorem alters_adopt {w : World α σ} {action : Action α} {make : Tagged ViewError (SymTriplets α)}
    (h : SymTriplets.Construction make) (idle : ∀ place, ¬ w.Revises action place) :
    w.Alters action (w.adopt make) := by
  obtain ⟨later, new⟩ := h.fresh w.tags
  unfold adopt
  rcases made : make.exec w.tags with ⟨cause | A, after⟩ <;> rw [made] at later new
  · exact .keeps rfl later idle
  · exact .adds A rfl (new A rfl).1 (new A rfl).2 (fun zero => h.finite zero made) idle

theorem alters_revise (w : World α σ) (place : Nat) (values : List α) :
    w.Alters (.setValues place values) (w.revise place values) := by
  unfold revise
  split
  · next missing =>
    refine .keeps rfl (Nat.le_refl _) ?_
    rintro place ⟨values, A, B, after, ⟨⟩, found, -⟩
    cases missing.symm.trans found
  · next A found =>
    rw [SymTriplets.exec_setValues]
    cases refused : A.refusal? values with
    | some cause =>
      refine .keeps rfl (Nat.le_refl _) ?_
      rintro place' ⟨values', A', B, after, same, found', made⟩
      cases same
      have accepted := (revises_iff found).1 ⟨values, A', B, after, rfl, found', made⟩
      cases refused.symm.trans (SymTriplets.refusal?_eq_none.2 accepted)
    | none => exact .revises A found refused rfl rfl

/-! ## What every run keeps -/

/-- Every tag was drawn after `first`, and the place of a matrix can be told from its tag. -/
structure Labelled (first : Nat) (w : World α σ) : Prop where
  later : first ≤ w.tags.last
  drawn : ∀ A ∈ w.matrices, first < A.tag ∧ A.tag ≤ w.tags.last
  apart : ∀ (p q : Nat) (A B : SymTriplets α), w.matrices[p]? = some A → w.matrices[q]? = some B →
    A.tag = B.tag → p = q
  finite : Scalar.isFinite (0 : α) = true → ∀ A ∈ w.matrices, A.Finite

theorem labelled_start (e : Engine α σ) (source : TagSource) :
    (start e source).Labelled source.last :=
  ⟨Nat.le_refl _, nofun, nofun, fun _ => nofun⟩

variable {w w' : World α σ} {first : Nat}

/-- A matrix with a new tag may come in, at a new place or at an old one. -/
theorem Labelled.insert (h : w.Labelled first) (N : SymTriplets α) (place : Nat)
    (new : w.tags.last < N.tag) (drawn : N.tag ≤ w'.tags.last)
    (finite : Scalar.isFinite (0 : α) = true → N.Finite)
    (found : ∀ (p : Nat) (B : SymTriplets α), w'.matrices[p]? = some B →
      (p = place ∧ B = N) ∨ w.matrices[p]? = some B) : w'.Labelled first := by
  have first_le := h.later
  have bound {p : Nat} {B : SymTriplets α} (at_p : w.matrices[p]? = some B) :
      first < B.tag ∧ B.tag ≤ w.tags.last := h.drawn B (List.mem_of_getElem? at_p)
  refine ⟨by omega, ?_, ?_, ?_⟩
  · intro B hB
    obtain ⟨p, at_p⟩ := List.mem_iff_getElem?.1 hB
    rcases found p B at_p with ⟨-, rfl⟩ | at_p
    · omega
    · have := bound at_p
      omega
  · intro p q B C at_p at_q same
    rcases found p B at_p with ⟨rfl, rfl⟩ | at_p <;> rcases found q C at_q with ⟨rfl, rfl⟩ | at_q
    · rfl
    · have := bound at_q
      omega
    · have := bound at_p
      omega
    · exact h.apart p q B C at_p at_q same
  · intro zero B hB
    obtain ⟨p, at_p⟩ := List.mem_iff_getElem?.1 hB
    rcases found p B at_p with ⟨-, rfl⟩ | at_p
    · exact finite zero
    · exact h.finite zero B (List.mem_of_getElem? at_p)

theorem Labelled.alters (h : w.Labelled first) {action : Action α} (alters : w.Alters action w') :
    w'.Labelled first := by
  cases alters with
  | keeps same later idle =>
    have first_le := h.later
    refine ⟨by omega, ?_, same ▸ h.apart, same ▸ h.finite⟩
    intro A hA
    have := h.drawn A (same ▸ hA)
    omega
  | adds N grown new drawn finite idle =>
    refine h.insert N w.matrices.length new drawn finite ?_
    intro p B at_p
    rw [grown, List.getElem?_append] at at_p
    by_cases old : p < w.matrices.length
    · rw [if_pos old] at at_p
      exact .inr at_p
    · rw [if_neg old, List.getElem?_singleton] at at_p
      split at at_p
      · exact .inl ⟨by omega, (Option.some.inj at_p).symm⟩
      · cases at_p
  | @revises place values _ A found accepted set drawn =>
    refine h.insert (A.withValues values (w.tags.last + 1)) place (Nat.lt_succ_self _)
      (Nat.le_of_eq drawn.symm) (fun _ => SymTriplets.finite_withValues _ accepted) ?_
    intro p B at_p
    rw [set, List.getElem?_set] at at_p
    split at at_p
    · next here =>
      split at at_p
      · exact .inl ⟨here.symm, (Option.some.inj at_p).symm⟩
      · cases at_p
    · exact .inr at_p

/-! ## What becomes of a tag -/

/-- The tag was drawn, and no matrix carries it. -/
structure Lost (tag : Nat) (w : World α σ) : Prop where
  drawn : tag ≤ w.tags.last
  apart : ∀ B ∈ w.matrices, B.tag ≠ tag

/-- A tag that is lost stays lost. -/
theorem Lost.alters {tag : Nat} (h : w.Lost tag) {action : Action α} (alters : w.Alters action w') :
    w'.Lost tag := by
  have drawn := h.drawn
  cases alters with
  | keeps same later idle => exact ⟨by omega, same ▸ h.apart⟩
  | adds N grown new drawn' finite idle =>
    refine ⟨by omega, ?_⟩
    intro B hB
    rw [grown] at hB
    rcases List.mem_append.1 hB with hB | hB
    · exact h.apart B hB
    · cases List.mem_singleton.1 hB
      omega
  | @revises place values _ A found accepted set last =>
    refine ⟨by omega, ?_⟩
    intro B hB
    rw [set] at hB
    rcases List.mem_or_eq_of_mem_set hB with hB | rfl
    · exact h.apart B hB
    · show w.tags.last + 1 ≠ tag
      omega

variable {place : Nat} {A : SymTriplets α}

/-- A matrix that is not revised stays as it is. -/
theorem Alters.kept {action : Action α} (alters : w.Alters action w')
    (found : w.matrices[place]? = some A) (unrevised : ¬ w.Revises action place) :
    w'.matrices[place]? = some A := by
  cases alters with
  | keeps same later idle => rw [same, found]
  | adds N grown new drawn finite idle =>
    rw [grown, List.getElem?_append_left (List.getElem?_eq_some_iff.1 found).1, found]
  | @revises elsewhere values _ B found' accepted set last =>
    have elsewhere_ne : elsewhere ≠ place := by
      rintro rfl
      exact unrevised ((revises_iff found').2 (SymTriplets.refusal?_eq_none.1 accepted))
    rw [set, List.getElem?_set_ne elsewhere_ne, found]

/-- The tag of a matrix that is revised is lost. -/
theorem Alters.lost {action : Action α} (alters : w.Alters action w') (h : w.Labelled first)
    (found : w.matrices[place]? = some A) (revised : w.Revises action place) : w'.Lost A.tag := by
  have drawn := (h.drawn A (List.mem_of_getElem? found)).2
  cases alters with
  | keeps same later idle => exact absurd revised (idle place)
  | adds N grown new drawn' finite idle => exact absurd revised (idle place)
  | @revises elsewhere values _ B found' accepted set last =>
    obtain ⟨_, _, _, _, ⟨⟩, -, -⟩ := revised
    refine ⟨by omega, ?_⟩
    intro C hC
    rw [set] at hC
    obtain ⟨q, at_q⟩ := List.mem_iff_getElem?.1 hC
    rw [List.getElem?_set] at at_q
    split at at_q
    · split at at_q
      · cases at_q
        show w.tags.last + 1 ≠ A.tag
        omega
      · cases at_q
    · next other =>
      intro same
      exact other (h.apart place q A C found at_q same.symm)


/-! ## The tags that an action draws -/

/-- What an action draws tags for. -/
def tagging (w : World α σ) : Action α → Tagged ViewError Unit
  | .ofTriplets dim rows cols values => do
    let _ ← SymTriplets.ofTriplets dim rows cols values
  | .ofSparse A => do
    let _ ← SymTriplets.ofSparse A
  | .ofTable table => do
    let _ ← SymTriplets.ofTable table
  | .drawTag => do
    let _ ← SymSolve.drawTag
  | .setValues place values =>
    match w.matrices[place]? with
    | some A => do
      let _ ← A.setValues values
    | none => return ()
  | .multiSolve .. | .increaseQuality | .resetStructure => return ()

theorem tags_adopt (w : World α σ) (make : Tagged ViewError (SymTriplets α)) :
    (w.adopt make).tags = (Tagged.exec (do let _ ← make) w.tags).2 := by
  rw [Tagged.exec_bind]
  unfold adopt
  rcases make.exec w.tags with ⟨_ | A, after⟩ <;> rfl

theorem draws_tagging (w : World α σ) (action : Action α) :
    ∃ drawn, (w.tagging action).Draws w.tags drawn := by
  have of_make {make : Tagged ViewError (SymTriplets α)} (h : SymTriplets.Construction make) :
      ∃ drawn, Tagged.Draws (do let _ ← make) w.tags drawn := by
    obtain ⟨drawn, draws⟩ := h.draws w.tags
    exact ⟨drawn, draws.map fun _ => ()⟩
  cases action with
  | ofTriplets dim rows cols values =>
    exact of_make (SymTriplets.construction_ofTriplets dim rows cols values)
  | ofSparse A => exact of_make (SymTriplets.construction_ofSparse A)
  | ofTable table => exact of_make (SymTriplets.construction_ofTable table)
  | drawTag => exact ⟨_, (Tagged.Draws.draw rfl).map fun _ => ()⟩
  | setValues place values =>
    cases found : w.matrices[place]? with
    | none =>
      simp only [tagging, found]
      exact ⟨[], .result () w.tags⟩
    | some A =>
      simp only [tagging, found]
      obtain ⟨drawn, draws⟩ := A.draws_setValues values w.tags
      exact ⟨drawn, draws.map fun _ => ()⟩
  | multiSolve place rhs solutions demand => exact ⟨[], .result () w.tags⟩
  | increaseQuality => exact ⟨[], .result () w.tags⟩
  | resetStructure => exact ⟨[], .result () w.tags⟩

end Scalar

variable [RealScalar α] [Printable α]

theorem step_alters (w : World α σ) (action : Action α) : w.Alters action (w.step action) := by
  have idle (silent : ∀ place values, action ≠ .setValues place values) (place : Nat) :
      ¬ w.Revises action place := by
    rintro ⟨values, A, B, after, same, -⟩
    exact silent place values same
  cases action with
  | ofTriplets dim rows cols values =>
    exact alters_adopt (SymTriplets.construction_ofTriplets dim rows cols values) (idle nofun)
  | ofSparse A => exact alters_adopt (SymTriplets.construction_ofSparse A) (idle nofun)
  | ofTable table => exact alters_adopt (SymTriplets.construction_ofTable table) (idle nofun)
  | drawTag => exact .keeps rfl (Nat.le_succ _) (idle nofun)
  | setValues place values => exact w.alters_revise place values
  | multiSolve place rhs solutions demand =>
    show w.Alters _ (w.multiSolve place rhs solutions demand)
    unfold multiSolve
    split
    · exact .keeps rfl (Nat.le_refl _) (idle nofun)
    · exact .keeps rfl (Nat.le_refl _) (idle nofun)
  | increaseQuality => exact .keeps rfl (Nat.le_refl _) (idle nofun)
  | resetStructure => exact .keeps rfl (Nat.le_refl _) (idle nofun)

/-! ## Runs -/

/-- In this run, the matrix at this place gets other values at least once. -/
inductive Revised (place : Nat) : World α σ → List (Action α) → Prop
  | now {w : World α σ} {action : Action α} {actions : List (Action α)}
      (revised : w.Revises action place) : Revised place w (action :: actions)
  | later {w : World α σ} {action : Action α} {actions : List (Action α)}
      (revised : Revised place (w.step action) actions) : Revised place w (action :: actions)

variable {w : World α σ} {first place tag : Nat} {A : SymTriplets α}

theorem Labelled.run (h : w.Labelled first) (actions : List (Action α)) :
    (w.run actions).Labelled first := by
  induction actions generalizing w with
  | nil => exact h
  | cons action actions ih => exact ih (h.alters (w.step_alters action))

theorem Lost.run (h : w.Lost tag) (actions : List (Action α)) : (w.run actions).Lost tag := by
  induction actions generalizing w with
  | nil => exact h
  | cons action actions ih => exact ih (h.alters (w.step_alters action))

/-- After a run, a matrix is what it was before or its old tag is lost; the latter exactly if it
was revised. -/
theorem kept_or_lost (h : w.Labelled first) (found : w.matrices[place]? = some A)
    (actions : List (Action α)) :
    (¬ Revised place w actions ∧ (w.run actions).matrices[place]? = some A) ∨
      (Revised place w actions ∧ (w.run actions).Lost A.tag) := by
  induction actions generalizing w with
  | nil => exact .inl ⟨nofun, found⟩
  | cons action actions ih =>
    have alters := w.step_alters action
    by_cases now : w.Revises action place
    · exact .inr ⟨.now now, (alters.lost h found now).run actions⟩
    · rcases ih (h.alters alters) (alters.kept found now) with ⟨never, same⟩ | ⟨later, lost⟩
      · refine .inl ⟨?_, same⟩
        rintro (revised | revised)
        · exact now revised
        · exact never revised
      · exact .inr ⟨.later later, lost⟩

/-! ## The tags that a run draws -/

theorem tags_step (w : World α σ) (action : Action α) :
    (w.step action).tags = ((w.tagging action).exec w.tags).2 := by
  cases action with
  | ofTriplets dim rows cols values => exact w.tags_adopt _
  | ofSparse A => exact w.tags_adopt _
  | ofTable table => exact w.tags_adopt _
  | drawTag => rfl
  | setValues place values =>
    show (w.revise place values).tags = _
    cases found : w.matrices[place]? with
    | none =>
      simp only [revise, tagging, found]
      rfl
    | some A =>
      simp only [revise, tagging, found, Tagged.exec_bind]
      rcases (A.setValues values).exec w.tags with ⟨_ | B, after⟩ <;> rfl
  | multiSolve place rhs solutions demand =>
    show (w.multiSolve place rhs solutions demand).tags = _
    unfold multiSolve
    split <;> rfl
  | increaseQuality => rfl
  | resetStructure => rfl

/-- The tags that a run draws, in their order. -/
inductive Draws : World α σ → List (Action α) → List Nat → Prop
  | nil {w : World α σ} : Draws w [] []
  | cons {w : World α σ} {action : Action α} {actions : List (Action α)} {drawn rest : List Nat}
      (now : (w.tagging action).Draws w.tags drawn) (later : Draws (w.step action) actions rest) :
      Draws w (action :: actions) (drawn ++ rest)

theorem exists_draws (w : World α σ) (actions : List (Action α)) : ∃ drawn, w.Draws actions drawn := by
  induction actions generalizing w with
  | nil => exact ⟨[], .nil⟩
  | cons action actions ih =>
    obtain ⟨drawn, now⟩ := w.draws_tagging action
    obtain ⟨rest, later⟩ := ih (w.step action)
    exact ⟨drawn ++ rest, .cons now later⟩

theorem Draws.consecutive {actions : List (Action α)} {drawn : List Nat} (h : w.Draws actions drawn) :
    drawn = List.range' (w.tags.last + 1) drawn.length ∧
      (w.run actions).tags.last = w.tags.last + drawn.length := by
  induction h with
  | nil => exact ⟨rfl, rfl⟩
  | @cons w action actions drawn rest now later ih =>
    obtain ⟨drawn_eq, last_eq⟩ := now.consecutive
    obtain ⟨rest_eq, last_eq'⟩ := ih
    rw [← tags_step] at last_eq
    refine ⟨Tagged.append_consecutive drawn_eq rest_eq last_eq, ?_⟩
    show ((w.step action).run actions).tags.last = _
    rw [last_eq', last_eq, List.length_append, Nat.add_assoc]

end World

variable {α σ : Type} [RealScalar α] [Printable α]

open World

/-- **Tags identify contents**: at every two moments of every run, a matrix has the tag that was
read from a matrix before exactly if it is the same one and has not been revised since. -/
theorem tags_identify_contents (zero : Scalar.isFinite (0 : α) = true) (e : Engine α σ)
    (source : TagSource) (before between : List (Action α)) :
    let w := (World.start e source).run before
    let later := w.run between
    (∃ drawn, (World.start e source).Draws before drawn) ∧
    (∀ drawn, (World.start e source).Draws before drawn →
      drawn.Pairwise (· < ·) ∧ (∀ tag ∈ drawn, 0 < tag) ∧ ∀ A ∈ w.matrices, A.tag ∈ drawn) ∧
    (∀ (p q : Nat) (A B : SymTriplets α), w.matrices[p]? = some A → later.matrices[q]? = some B →
      (A.tag = B.tag → p = q) ∧
      (B.view.hasChanged A.tag = false ↔ q = p ∧ ¬ Revised p w between)) ∧
    (∀ A ∈ w.matrices, A.view.hasChanged 0 = true ∧ A.view.WellFormed) ∧
    ∀ (p : Nat) (A : SymTriplets α) (values : List α), w.matrices[p]? = some A →
      (w.Revises (.setValues p values) p ↔
        values.length = A.nonzeros ∧ ∀ v ∈ values, Scalar.isFinite v = true) ∧
      (¬ w.Revises (.setValues p values) p → w.step (.setValues p values) = w) ∧
      (w.Revises (.setValues p values) p →
        ∃ B, (w.step (.setValues p values)).matrices[p]? = some B ∧
          B.view = { A.view with values, tag := w.tags.last + 1 }) := by
  intro w later
  have labelled : w.Labelled source.last := (labelled_start e source).run before
  refine ⟨exists_draws _ before, ?_, ?_, ?_, ?_⟩
  · intro drawn draws
    obtain ⟨consecutive, last⟩ := draws.consecutive
    rw [consecutive]
    refine ⟨List.pairwise_lt_range' 1, ?_, ?_⟩
    · intro tag drawn
      have := (List.mem_range'_1.1 drawn).1
      omega
    · intro A hA
      obtain ⟨above, below⟩ := labelled.drawn A hA
      change A.tag ≤ (World.run _ before).tags.last at below
      rw [last] at below
      change A.tag ≤ source.last + drawn.length at below
      exact List.mem_range'_1.2 ⟨above, by show A.tag < source.last + 1 + drawn.length; omega⟩
  · intro p q A B at_p at_q
    have unchanged : B.view.hasChanged A.tag = false ↔ B.tag = A.tag := by
      simp [MatrixView.hasChanged, SymTriplets.view]
    rcases kept_or_lost labelled at_p between with ⟨never, same⟩ | ⟨revised, lost⟩
    · have apart : A.tag = B.tag → p = q := (labelled.run between).apart p q A B same at_q
      refine ⟨apart, ?_⟩
      rw [unchanged]
      constructor
      · intro tags
        exact ⟨(apart tags.symm).symm, never⟩
      · rintro ⟨rfl, -⟩
        rw [Option.some.inj (at_q.symm.trans same)]
    · have apart : B.tag ≠ A.tag := lost.apart B (List.mem_of_getElem? at_q)
      refine ⟨fun tags => absurd tags.symm apart, ?_⟩
      rw [unchanged]
      exact ⟨fun tags => absurd tags apart, fun stays => absurd revised stays.2⟩
  · intro A hA
    have positive := (labelled.drawn A hA).1
    refine ⟨?_, (labelled.finite zero A hA).wellFormed⟩
    simp [MatrixView.hasChanged, SymTriplets.view]
    omega
  · intro p A values found
    exact ⟨revises_iff found, revise_of_refused found, revise_of_accepted found⟩

/-- A caller with two matrices; one tag was drawn between them. -/
def twoMatrices : World ℚ (Recorded ℚ (Script ℚ)) :=
  (World.start (scriptedEngine ⟨[], [], []⟩) ⟨0⟩).run [
    .ofTriplets 1 [0] [0] (some [2]), .drawTag, .ofTriplets 1 [0] [0] none]

/-- The first matrix is offered too many values, the second one the value that it has. -/
def twoOffers : List (Action ℚ) := [.setValues 0 [3, 4], .setValues 1 [0]]

/-- The offer that is refused does not count; the one that changes nothing does. -/
theorem tags_identify_contents_two :
    Scalar.isFinite (0 : ℚ) = true ∧ ¬ Revised 0 twoMatrices twoOffers ∧
      ∃ B B', twoMatrices.matrices[1]? = some B ∧ (twoMatrices.run twoOffers).matrices[1]? = some B' ∧
        B'.values = B.values ∧ B'.view.hasChanged B.tag = true := by
  obtain ⟨-, -, tells, -⟩ := tags_identify_contents (show Scalar.isFinite (0 : ℚ) = true from rfl)
    (scriptedEngine ⟨[], [], []⟩) ⟨0⟩
    [.ofTriplets 1 [0] [0] (some [2]), .drawTag, .ofTriplets 1 [0] [0] none] twoOffers
  have first := tells 0 0 ⟨1, [⟨0, 0, 2⟩], 2⟩ ⟨1, [⟨0, 0, 2⟩], 2⟩ rfl rfl
  have second := tells 1 1 ⟨1, [⟨0, 0, 0⟩], 4⟩ ⟨1, [⟨0, 0, 0⟩], 5⟩ rfl rfl
  have revised : Revised 1 twoMatrices twoOffers := by
    refine .later (.now ?_)
    exact ⟨[0], ⟨1, [⟨0, 0, 0⟩], 4⟩, ⟨1, [⟨0, 0, 0⟩], 5⟩, ⟨5⟩, rfl, rfl, rfl⟩
  refine ⟨rfl, (first.2.1 rfl).2, ⟨1, [⟨0, 0, 0⟩], 4⟩, ⟨1, [⟨0, 0, 0⟩], 5⟩, rfl, rfl, rfl, ?_⟩
  rw [← Bool.not_eq_false, second.2]
  exact fun stays => stays.2 revised

end SymSolve
