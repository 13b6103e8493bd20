import SymSolve.Proofs.Traversal
import SymSolve.SymTriplets

/-!
# How matrices are made

A caller gets a matrix from triplets, from a sparse matrix or from a table, and gets it again with
other values. Whatever the data are, one of three things happens (`SymTriplets.Construction`): they
are refused; a zero matrix is made under a new tag; or a zero matrix is made and then gets its
values under a second tag.

**Theorem (`Tagged.Draws.consecutive`).** The tags that a computation draws, in their order, are
the numbers that follow the last tag drawn before it.
-/

namespace SymSolve

/-! ## Computations that draw tags -/

namespace Tagged

variable {ε α β γ : Type}

/-- Runs a computation that draws tags. -/
def exec (make : Tagged ε β) (source : TagSource) : Except ε β × TagSource :=
  make.run.run source

theorem exec_bind (make : Tagged ε β) (next : β → Tagged ε γ) (source : TagSource) :
    exec (make >>= next) source =
      match exec make source with
      | (.ok b, after) => exec (next b) after
      | (.error cause, after) => (.error cause, after) := by
  simp only [exec, ExceptT.run_bind, StateT.run_bind]
  show (StateT.run _ source >>= _) = _
  rcases StateT.run make.run source with ⟨r, after⟩
  cases r <;> simp <;> rfl

theorem exec_bind_ok {make : Tagged ε β} {next : β → Tagged ε γ} {source after : TagSource} {b : β}
    (h : exec make source = (.ok b, after)) : exec (make >>= next) source = exec (next b) after := by
  rw [exec_bind, h]

theorem exec_bind_error {make : Tagged ε β} {next : β → Tagged ε γ} {source after : TagSource}
    {cause : ε} (h : exec make source = (.error cause, after)) :
    exec (make >>= next) source = (.error cause, after) := by
  rw [exec_bind, h]

/-- The tags that a computation draws when it runs, in their order. -/
inductive Draws {ε : Type} : {β : Type} → Tagged ε β → TagSource → List Nat → Prop
  | result {β : Type} (b : β) (source : TagSource) : Draws (pure b) source []
  | refuse {β : Type} (cause : ε) (source : TagSource) : Draws (throw cause : Tagged ε β) source []
  | draw {tag : Nat} {source after : TagSource}
      (drawn : exec (drawTag : Tagged ε Nat) source = (.ok tag, after)) :
      Draws (drawTag : Tagged ε Nat) source [tag]
  | bind {β γ : Type} {make : Tagged ε β} {next : β → Tagged ε γ} {source after : TagSource}
      {b : β} {first rest : List Nat} (makes : Draws make source first)
      (made : exec make source = (.ok b, after)) (goes : Draws (next b) after rest) :
      Draws (make >>= next) source (first ++ rest)
  | stop {β γ : Type} {make : Tagged ε β} {next : β → Tagged ε γ} {source after : TagSource}
      {cause : ε} {first : List Nat} (makes : Draws make source first)
      (refused : exec make source = (.error cause, after)) : Draws (make >>= next) source first

theorem append_consecutive {first rest : List Nat} {start mid : Nat}
    (first_eq : first = List.range' (start + 1) first.length)
    (rest_eq : rest = List.range' (mid + 1) rest.length) (mid_eq : mid = start + first.length) :
    first ++ rest = List.range' (start + 1) (first ++ rest).length :=
  calc first ++ rest
      = List.range' (start + 1) first.length ++
          List.range' (start + 1 + first.length) rest.length := by
        rw [← first_eq, Nat.add_right_comm, ← mid_eq, ← rest_eq]
    _ = List.range' (start + 1) (first ++ rest).length := by
        rw [List.range'_append_1, List.length_append]

/-- **Tags are drawn one after the other**, each the successor of the one before. -/
theorem Draws.consecutive {make : Tagged ε β} {source : TagSource} {drawn : List Nat}
    (h : Draws make source drawn) :
    drawn = List.range' (source.last + 1) drawn.length ∧
      (exec make source).2.last = source.last + drawn.length := by
  induction h with
  | result b source => exact ⟨rfl, rfl⟩
  | refuse cause source => exact ⟨rfl, rfl⟩
  | @draw tag source after drawn =>
    cases drawn
    exact ⟨rfl, rfl⟩
  | @bind β γ make next source after b first rest makes made goes ih ih' =>
    obtain ⟨first_eq, last_eq⟩ := ih
    obtain ⟨rest_eq, last_eq'⟩ := ih'
    rw [made] at last_eq
    change after.last = source.last + first.length at last_eq
    refine ⟨append_consecutive first_eq rest_eq last_eq, ?_⟩
    rw [exec_bind_ok made, last_eq', last_eq, List.length_append, Nat.add_assoc]
  | stop makes refused ih =>
    refine ⟨ih.1, ?_⟩
    rw [exec_bind_error refused, ← ih.2, refused]

/-- A computation whose result is only looked at draws what it draws. -/
theorem Draws.map {make : Tagged ε β} {source : TagSource} {drawn : List Nat}
    (h : Draws make source drawn) (f : β → γ) :
    Draws (do return f (← make)) source drawn := by
  rcases made : exec make source with ⟨_ | b, after⟩
  · exact .stop h made
  · have goes : Draws (do return f (← make)) source (drawn ++ []) :=
      .bind h made (.result (f b) after)
    rwa [List.append_nil] at goes

/-- A matrix that is made carries a tag that was not drawn before, and tags are not taken back. -/
def Fresh (make : Tagged ε (SymTriplets α)) : Prop :=
  ∀ source, source.last ≤ (exec make source).2.last ∧
    ∀ A, (exec make source).1 = .ok A → source.last < A.tag ∧ A.tag ≤ (exec make source).2.last

theorem fresh_throw (cause : ε) : Fresh (throw cause : Tagged ε (SymTriplets α)) :=
  fun _ => ⟨Nat.le_refl _, nofun⟩

theorem fresh_draw (make : Nat → SymTriplets α) (h : ∀ tag, (make tag).tag = tag) :
    Fresh (do return make (← drawTag) : Tagged ε (SymTriplets α)) := by
  intro source
  refine ⟨Nat.le_succ _, ?_⟩
  rintro _ ⟨⟩
  show source.last < (make (source.last + 1)).tag ∧ (make (source.last + 1)).tag ≤ source.last + 1
  rw [h]
  omega

theorem fresh_bind {make : Tagged ε (SymTriplets α)}
    {next : SymTriplets α → Tagged ε (SymTriplets α)} (h : Fresh make) (hn : ∀ A, Fresh (next A)) :
    Fresh (make >>= next) := by
  intro source
  obtain ⟨later, -⟩ := h source
  rw [exec_bind]
  split
  · next A after made =>
    rw [made] at later
    obtain ⟨later', drawn⟩ := hn A after
    refine ⟨Nat.le_trans later later', fun B hB => ?_⟩
    exact ⟨Nat.lt_of_le_of_lt later (drawn B hB).1, (drawn B hB).2⟩
  · next cause after made =>
    rw [made] at later
    exact ⟨later, nofun⟩

end Tagged

/-! ## Views -/

theorem prefix_overwriteFront {α : Type} (front buffer : Array α) :
    front.toList <+: (overwriteFront front buffer).toList := by
  simp [overwriteFront]

theorem MatrixView.fill_of_le {α : Type} {m : MatrixView α} {out : Array α}
    (h : m.values.length ≤ out.size) : m.fill out = .ok (overwriteFront m.values.toArray out) :=
  if_neg (by omega)

/-! ## Matrices that are made -/

namespace SymTriplets

open Tagged

variable {α : Type}

theorem values_length (A : SymTriplets α) : A.values.length = A.nonzeros := List.length_map _

theorem length_values (A : SymTriplets α) : A.view.values.length = A.view.nonzeros := by
  simp [view, values, MatrixView.nonzeros]

theorem zipWith_values {n : Nat} (es : List (Entry n n α)) {vs : List α}
    (fits : vs.length = es.length) :
    (es.zipWith (fun e v => { e with value := v }) vs).map Entry.value = vs := by
  induction es generalizing vs with
  | nil => exact (List.length_eq_zero_iff.1 fits).symm
  | cons e es ih =>
    cases vs with
    | nil => cases fits
    | cons v vs => exact congrArg (v :: ·) (ih (Nat.succ.inj fits))

theorem zipWith_places {n : Nat} {β : Type} (place : Fin n → Fin n → β) (es : List (Entry n n α))
    {vs : List α} (fits : vs.length = es.length) :
    (es.zipWith (fun e v => { e with value := v }) vs).map (fun e => place e.row e.col) =
      es.map fun e => place e.row e.col := by
  induction es generalizing vs with
  | nil => rfl
  | cons e es ih =>
    cases vs with
    | nil => cases fits
    | cons v vs => exact congrArg (place e.row e.col :: ·) (ih (Nat.succ.inj fits))

/-- The matrix with other values and another tag. -/
def withValues (A : SymTriplets α) (values : List α) (tag : Nat) : SymTriplets α :=
  { A with entries := A.entries.zipWith (fun e v => { e with value := v }) values, tag }

/-- New values stand at the old positions, one at each. -/
theorem view_withValues {A : SymTriplets α} {values : List α} (tag : Nat)
    (fits : values.length = A.nonzeros) :
    (A.withValues values tag).view = { A.view with values, tag } := by
  have rows := zipWith_places (fun i _ => i.val) A.entries fits
  have cols := zipWith_places (fun _ j => j.val) A.entries fits
  have filled := zipWith_values A.entries fits
  exact (MatrixView.mk.injEq ..).mpr ⟨rfl, rows, cols, filled, rfl⟩

section Scalar

variable [Scalar α]

/-- Why values are refused: there are too many or too few, or one of them is not finite. -/
def refusal? (A : SymTriplets α) (values : List α) : Option ViewError :=
  if values.length ≠ A.nonzeros then some (.valueCount A.nonzeros values.length)
  else if !values.all Scalar.isFinite then some .notFinite
  else none

theorem refusal?_eq_none {A : SymTriplets α} {values : List α} :
    A.refusal? values = none ↔
      values.length = A.nonzeros ∧ ∀ v ∈ values, Scalar.isFinite v = true := by
  unfold refusal?
  by_cases fits : values.length = A.nonzeros <;> simp [fits]

/-- **What comes of new values**: nothing, if they are refused; otherwise the same positions with
these values, under the next tag. -/
theorem exec_setValues (A : SymTriplets α) (values : List α) (source : TagSource) :
    (A.setValues values).exec source =
      match A.refusal? values with
      | some cause => (.error cause, source)
      | none => (.ok (A.withValues values (source.last + 1)), ⟨source.last + 1⟩) := by
  unfold setValues refusal?
  by_cases fits : values.length ≠ A.nonzeros
  · rw [if_pos fits, if_pos fits]
    rfl
  · rw [if_neg fits, if_neg fits]
    cases values.all Scalar.isFinite <;> rfl

theorem draws_setValues (A : SymTriplets α) (values : List α) (source : TagSource) :
    ∃ drawn, (A.setValues values).Draws source drawn := by
  unfold setValues
  split
  · exact ⟨[], .refuse _ source⟩
  · split
    · exact ⟨[], .refuse _ source⟩
    · exact ⟨[source.last + 1], (Draws.draw rfl).map _⟩

/-- The zero matrix with the given entries, under a tag. -/
def zeroAt {n : Nat} (places : List (Fin n × Fin n)) (tag : Nat) : SymTriplets α :=
  ⟨n, places.map fun (i, j) => ⟨i, j, 0⟩, tag⟩

theorem draws_ofPositions (dim : Nat) (positions : List (Fin dim × Fin dim)) (source : TagSource) :
    (ofPositions dim positions : Tagged ViewError (SymTriplets α)).Draws source [source.last + 1] :=
  (Draws.draw rfl).map _

theorem fresh_setValues (A : SymTriplets α) (values : List α) : Fresh (A.setValues values) := by
  unfold setValues
  split
  · exact fresh_throw _
  · split
    · exact fresh_throw _
    · exact fresh_draw _ fun _ => rfl

theorem fresh_ofPositions (dim : Nat) (positions : List (Fin dim × Fin dim)) :
    Fresh (ofPositions dim positions : Tagged ViewError (SymTriplets α)) :=
  fresh_draw _ fun _ => rfl

/-- The ways to make a matrix. -/
inductive Construction : Tagged ViewError (SymTriplets α) → Prop
  | refused (cause : ViewError) : Construction (throw cause)
  | zero (dim : Nat) (positions : List (Fin dim × Fin dim)) : Construction (ofPositions dim positions)
  | filled (dim : Nat) (positions : List (Fin dim × Fin dim)) (values : List α) :
      Construction (ofPositions dim positions >>= fun zero => zero.setValues values)

theorem construction_ofTriplets (dim : Int) (rows cols : List Int) (values : Option (List α)) :
    Construction (ofTriplets dim rows cols values) := by
  unfold ofTriplets
  cases values with
  | none =>
    dsimp only
    split
    · exact .refused _
    · cases checkedPositions dim.toNat rows cols with
      | error cause => exact .refused cause
      | ok positions => exact .zero _ positions
  | some values =>
    dsimp only
    split
    · exact .refused _
    · cases checkedPositions dim.toNat rows cols with
      | error cause => exact .refused cause
      | ok positions => exact .filled _ positions values

theorem construction_ofSparse (A : Sparse α) : Construction (ofSparse A) := by
  unfold ofSparse
  split
  · exact .filled ..
  · exact .refused _

theorem construction_ofTable (table : Grid α) : Construction (ofTable table) := by
  unfold ofTable
  split
  · dsimp only
    split
    · exact .refused _
    · exact .filled ..
  · exact .refused _

namespace Construction

variable {make : Tagged ViewError (SymTriplets α)}

theorem fresh (h : Construction make) : Fresh make := by
  cases h with
  | refused cause => exact fresh_throw cause
  | zero dim positions => exact fresh_ofPositions dim positions
  | filled dim positions values =>
    exact fresh_bind (fresh_ofPositions dim positions) fun A => A.fresh_setValues values

theorem draws (h : Construction make) (source : TagSource) : ∃ drawn, make.Draws source drawn := by
  cases h with
  | refused cause => exact ⟨[], .refuse cause source⟩
  | zero dim positions => exact ⟨_, draws_ofPositions dim positions source⟩
  | filled dim positions values =>
    obtain ⟨drawn, more⟩ :=
      draws_setValues (zeroAt positions (source.last + 1)) values ⟨source.last + 1⟩
    exact ⟨_, .bind (draws_ofPositions dim positions source) rfl more⟩

end Construction

/-- Every value is finite. -/
def Finite (A : SymTriplets α) : Prop := ∀ v ∈ A.values, Scalar.isFinite v = true

theorem finite_withValues {A : SymTriplets α} {values : List α} (tag : Nat)
    (accepted : A.refusal? values = none) : (A.withValues values tag).Finite := by
  obtain ⟨fits, finite⟩ := refusal?_eq_none.1 accepted
  intro v hv
  rw [show (A.withValues values tag).values = values from zipWith_values A.entries fits] at hv
  exact finite v hv

theorem finite_of_setValues {A B : SymTriplets α} {values : List α} {source after : TagSource}
    (made : (A.setValues values).exec source = (.ok B, after)) : B.Finite := by
  rw [exec_setValues] at made
  cases refused : A.refusal? values with
  | some cause => rw [refused] at made; cases made
  | none =>
    rw [refused] at made
    cases made
    exact finite_withValues _ refused

/-- A matrix that is made has finite values, if zero is finite. -/
theorem Construction.finite {make : Tagged ViewError (SymTriplets α)} (h : Construction make)
    (zero : Scalar.isFinite (0 : α) = true) {A : SymTriplets α} {source after : TagSource}
    (made : make.exec source = (.ok A, after)) : A.Finite := by
  cases h with
  | refused cause => cases made
  | zero dim positions =>
    cases made
    intro v hv
    obtain ⟨e, he, rfl⟩ := List.mem_map.1 hv
    obtain ⟨p, -, rfl⟩ := List.mem_map.1 he
    exact zero
  | filled dim positions values => exact finite_of_setValues made

/-! ## Matrices from triplets -/

theorem view_zeroAt {n : Nat} (places : List (Fin n × Fin n)) (tag : Nat) :
    (zeroAt places tag : SymTriplets α).view = {
      dim := n
      rows := places.map fun p => p.1.val
      cols := places.map fun p => p.2.val
      values := places.map fun _ => 0
      tag } := by
  simp only [view, values, zeroAt, List.map_map]
  rfl

theorem checkedPositions_places {n : Nat} (places : List (Fin n × Fin n)) :
    checkedPositions n (places.map fun p => (p.1.val : Int)) (places.map fun p => (p.2.val : Int)) =
      .ok places := by
  unfold checkedPositions
  rw [if_neg (by simp), List.zip_map', mapM_eq_ok, List.forall₂_map_left_iff, List.forall₂_same]
  rintro ⟨i, j⟩ -
  have within : (0 ≤ (i.val : Int) ∧ 0 ≤ (j.val : Int)) ∧
      (i.val : Int).toNat < n ∧ (j.val : Int).toNat < n := by
    have i_lt := i.isLt
    have j_lt := j.isLt
    omega
  exact dif_pos within

/-- A matrix is made from positions inside of it unless its values are refused. -/
theorem exec_ofTriplets {n : Nat} (places : List (Fin n × Fin n)) (values : List α)
    (source : TagSource) :
    (ofTriplets n (places.map fun p => (p.1.val : Int)) (places.map fun p => (p.2.val : Int))
      (some values)).exec source =
      ((zeroAt places (source.last + 1)).setValues values).exec ⟨source.last + 1⟩ := by
  unfold ofTriplets
  rw [if_neg (by omega : ¬ (n : Int) < 0)]
  change Tagged.exec ((liftM (checkedPositions n (places.map fun p => (p.1.val : Int))
      (places.map fun p => (p.2.val : Int))) : Tagged ViewError (List (Fin n × Fin n))) >>=
    fun positions => ofPositions n positions >>= fun zero => zero.setValues values) source = _
  rw [checkedPositions_places]
  rfl

/-- The zero matrix with the places of given entries, filled with their values, has these entries. -/
theorem exec_fill {n : Nat} (es : List (Entry n n α)) (tag : Nat) (source : TagSource)
    (finite : ∀ e ∈ es, Scalar.isFinite e.value = true) :
    ((zeroAt (es.map fun e => (e.row, e.col)) tag).setValues (es.map Entry.value)).exec source =
      (.ok ⟨n, es, source.last + 1⟩, ⟨source.last + 1⟩) := by
  let zero : SymTriplets α := zeroAt (es.map fun e => (e.row, e.col)) tag
  have accepted : zero.refusal? (es.map Entry.value) = none := by
    refine refusal?_eq_none.2 ⟨by simp [zero, zeroAt, nonzeros], ?_⟩
    rw [List.forall_mem_map]
    exact finite
  have filled : zero.withValues (es.map Entry.value) (source.last + 1) =
      ⟨n, es, source.last + 1⟩ := by
    simp only [zero, zeroAt, withValues, List.map_map, List.zipWith_map_left,
      List.zipWith_map_right, List.zipWith_self]
    congr 1
    exact List.map_id' es
  rw [exec_setValues, accepted, ← filled]

end Scalar

end SymTriplets

end SymSolve
