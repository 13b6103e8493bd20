import SymSolve.Proofs.Engine.Supply
import SymSolve.Proofs.Kernel.Needs

/-!
# What the lengths of workspaces have no part in

Over a kernel with fixed needs (`Kernel.FixedNeeds`) an engine can be told without the lengths of
its workspaces: the `Core` is what is left of it, with the current factors in place of the words
that hold them. `Stands` says that an engine has a core and the make that goes with it.

A step can be refused a length (`Refuses`), but not where products of lengths lose nothing, the
factors in the options are finite, and memory has room for everything (`Boundless`). There is one
rule for each way in which a step comes to a length.
-/

namespace SymSolve

/-- What is left of an engine without the lengths of its workspaces, its reports and its counts. -/
structure Core (α φ : Type) where
  solverId : String
  providesInertia : Bool
  tolerance : α
  /-- The tolerance that the kernel is called with. -/
  pivot : α
  phase : Phase
  matrixTag : Nat
  pattern : Pattern
  nonzeros : Nat
  keep : Array Int
  negative : Option Int
  /-- The factors, as long as they are current. -/
  factors : Option φ

namespace Core

variable {α φ : Type}

/-- What every engine sees to about its core. -/
structure Proper (c : Core α φ) : Prop where
  named : c.solverId ≠ ""
  dim : 0 ≤ c.pattern.dim
  rows : c.pattern.rows.length = c.nonzeros

/-- No structure is captured. -/
def blank (c : Core α φ) : Core α φ :=
  { c with
    phase := .uninitialized, matrixTag := 0, pattern := .empty, nonzeros := 0, keep := #[]
    negative := none, factors := none }

/-- The structure of a matrix is captured, if none is. -/
def captured (m : MatrixView α) (c : Core α φ) : Core α φ :=
  if c.phase = .uninitialized then
    { c.blank with phase := .structureKnown, pattern := .ofView m, nonzeros := m.nonzeros }
  else c

/-- The values of a matrix are taken note of. -/
def noted (m : MatrixView α) (c : Core α φ) : Core α φ :=
  if m.hasChanged c.matrixTag then
    { c with matrixTag := m.tag, phase := c.phase.stale, factors := none }
  else c

/-- The kernel has analysed the structure. -/
def analysed (c : Core α φ) (keep : Array Int) (result : Except KernelFault AnalysisResult) :
    Core α φ :=
  match result with
  | .error _ => { c with keep }
  | .ok result => { c with keep, phase := if result.accepted then .symbolicDone else c.phase }

/-- The kernel has factorized the matrix. -/
def judged (c : Core α φ) (keep : Array Int) (factors : φ)
    (result : Except KernelFault FactorizationResult) : Core α φ :=
  match result with
  | .error _ => { c with keep }
  | .ok result =>
    if result.verdict = .success then
      { c with
        keep, phase := .factorized, negative := some result.negative, factors := some factors }
    else { c with keep, phase := .factorizationStale }

/-- The tolerance is raised. -/
def raised (c : Core α φ) (tolerance : α) : Core α φ :=
  { c with tolerance, pivot := tolerance, phase := c.phase.stale, factors := none }

theorem Proper.captured {c : Core α φ} (h : c.Proper) (m : MatrixView α) :
    (c.captured m).Proper := by
  unfold Core.captured
  split
  · exact ⟨h.named, Int.natCast_nonneg m.dim, by simp [Pattern.ofView, MatrixView.nonzeros]⟩
  · exact h

theorem Proper.noted {c : Core α φ} (h : c.Proper) (m : MatrixView α) : (c.noted m).Proper := by
  unfold Core.noted
  split
  · exact ⟨h.named, h.dim, h.rows⟩
  · exact h

theorem judged_of_success (c : Core α φ) (keep : Array Int) (factors : φ)
    {result : FactorizationResult} (success : result.verdict = .success) :
    c.judged keep factors (.ok result) = { c with
      keep, phase := .factorized, negative := some result.negative, factors := some factors } :=
  if_pos success

theorem judged_of_failure (c : Core α φ) (keep : Array Int) (factors : φ)
    {result : FactorizationResult} (failed : result.verdict ≠ .success) :
    c.judged keep factors (.ok result) = { c with keep, phase := .factorizationStale } :=
  if_neg failed

theorem judged_uncounted (c : Core α φ) (keep : Array Int) (factors : φ)
    (result : Except KernelFault FactorizationResult) :
    c.judged keep factors (result.map FactorizationResult.uncounted) =
      c.judged keep factors result := by
  cases result <;> rfl

end Core

/-- What a report comes to if it is no shortage: nothing, if there are factors. -/
def FactorizationResult.outcome? (r : FactorizationResult) : Option Outcome :=
  match r.verdict with
  | .success => none
  | .singular => some .singular
  | _ => some .fatalError

namespace FactorizationResult

theorem outcome?_of_success {r : FactorizationResult} (success : r.verdict = .success) :
    r.outcome? = none := by
  rw [outcome?, success]

theorem outcome?_of_singular {r : FactorizationResult} (singular : r.verdict = .singular) :
    r.outcome? = some .singular := by
  rw [outcome?, singular]

theorem outcome?_of_other {r : FactorizationResult} (failed : r.verdict ≠ .success)
    (other : r.verdict ≠ .singular) : r.outcome? = some .fatalError := by
  unfold outcome?
  cases verdict : r.verdict with
  | success => exact absurd verdict failed
  | singular => exact absurd verdict other
  | integerShortage | realShortage | error => rfl

theorem outcomes_uncounted (r : Except KernelFault FactorizationResult) :
    (r.map uncounted).map outcome? = r.map outcome? := by
  cases r <;> rfl

end FactorizationResult

/-- What an analysis comes to: nothing, if the structure is accepted. -/
def AnalysisResult.outcome? (r : AnalysisResult) : Option Outcome :=
  if r.accepted then none else some .fatalError

/-- No length is too large: products of lengths lose nothing, the factors in the options are finite,
and memory refuses nothing. -/
structure Boundless {α : Type} [Scalar α] (memory : Memory) (o : Options α) : Prop where
  keeps : KeepsLengths α
  memory : memory = .unlimited
  finite : o.Finite

/-- Products of exact scalars lose nothing. -/
theorem boundless_of_unlimited {K : Type} [Field K] [LinearOrder K] [IsStrictOrderedRing K]
    [FloorRing K] (o : Options K) : Boundless .unlimited o :=
  ⟨inferInstance, rfl, rfl, rfl, rfl, rfl⟩

/-- A length is refused: a product has no integer part, or memory has no room. -/
def Refuses {α : Type} [Scalar α] (memory : Memory) (o : Options α) (fault : Fault) : Prop :=
  (∃ cause, fault = .length cause) ∧ ¬ Boundless memory o

theorem Boundless.not_refuses {α : Type} [Scalar α] {memory : Memory} {o : Options α}
    (h : Boundless memory o) (fault : Fault) : ¬ Refuses memory o fault :=
  fun refused => refused.2 h

theorem Boundless.exists_grownLength {α : Type} [Scalar α] {memory : Memory} {o : Options α}
    (h : Boundless memory o) (current base : Nat) :
    ∃ n : Int, grownLength current base o.growthFactor = .ok n ∧ 0 ≤ n := by
  obtain ⟨-, -, -, growing, -⟩ := o.length_factors
  have := h.keeps
  obtain ⟨n, read, -⟩ := KeepsLengths.exists_scaled h.finite.growth (.inr growing)
    (Int.natCast_nonneg base)
  exact ⟨max current n, by rw [grownLength, read]; rfl, le_max_of_le_left (Int.natCast_nonneg _)⟩

theorem refuses_of_boundless {α : Type} [Scalar α] {memory : Memory} {o : Options α}
    {cause : Buffer.LengthError} (h : Boundless memory o → False) :
    Refuses memory o (.length cause) :=
  ⟨⟨cause, rfl⟩, h⟩

namespace Engine

variable {α σ β : Type} [Scalar α] {k : Kernel α σ}

/-- The factors in the work buffers, as a solve sees them. -/
def factorWords (needs : k.FixedNeeds) (e : Engine α σ) : needs.Factors :=
  needs.factors e.dim e.workspace.reals.words e.workspace.integers.words

/-- The core of an engine over a kernel with fixed needs. -/
def core (needs : k.FixedNeeds) (e : Engine α σ) : Core α needs.Factors where
  solverId := e.solverId
  providesInertia := e.providesInertia
  tolerance := e.tolerance
  pivot := e.session.tolerance
  phase := e.phase
  matrixTag := e.matrixTag
  pattern := e.pattern
  nonzeros := e.nonzeros
  keep := e.workspace.keep.words
  negative := e.negative
  factors := if e.phase = .factorized then some (e.factorWords needs) else none

/-- The workspace that the kernel will find too short. -/
def lacking? (needs : k.FixedNeeds) (e : Engine α σ) : Option WorkspaceKind :=
  WorkspaceKind.lacking? (needs.need e.pattern) e.workspace.integers.length e.workspace.reals.length

/-- The kernel's factorization of a matrix in the work buffers. -/
def factorization (m : MatrixView α) (e : Engine α σ) : Session.Factorization α σ :=
  e.session.factorize e.pattern (overwriteFront m.values.toArray e.workspace.reals.words)
    e.workspace.integers.words e.workspace.keep.words

/-- An engine over the kernel, with that memory, those options and that core. -/
structure Stands (needs : k.FixedNeeds) (memory : Memory) (o : Options α)
    (c : Core α needs.Factors) (e : Engine α σ) : Prop where
  kernel : e.session.kernel = k
  memory : e.memory = memory
  options : e.options = o
  core : e.core needs = c
  proper : c.Proper
  room : c.phase.Analysed → c.nonzeros ≤ e.workspace.reals.length

variable {needs : k.FixedNeeds} {memory : Memory} {o : Options α} {c c' : Core α needs.Factors}
variable {m : MatrixView α} {e e' e₁ : Engine α σ}

theorem Stands.phase (h : Stands needs memory o c e) : e.phase = c.phase :=
  congrArg Core.phase h.core

theorem Stands.pattern (h : Stands needs memory o c e) : e.pattern = c.pattern :=
  congrArg Core.pattern h.core

theorem Stands.nonzeros (h : Stands needs memory o c e) : e.nonzeros = c.nonzeros :=
  congrArg Core.nonzeros h.core

theorem Stands.dim (h : Stands needs memory o c e) : e.dim = c.pattern.dim :=
  congrArg Pattern.dim h.pattern

theorem Stands.keep (h : Stands needs memory o c e) : e.workspace.keep.words = c.keep :=
  congrArg Core.keep h.core

theorem Stands.named (h : Stands needs memory o c e) : e.solverId ≠ "" := by
  rw [show e.solverId = c.solverId from congrArg Core.solverId h.core]
  exact h.proper.named

/-- Reports and counts have no part in the core. -/
theorem Stands.note (h : Stands needs memory o c e) (pending : PendingGrowth)
    (diagnostics : List (Event α)) (trace : List (AttemptRecord α)) (solveCount count : Nat) :
    Stands needs memory o c { e with
      pending, diagnostics, trace, solveCount, factorizationCount := count } :=
  ⟨h.kernel, h.memory, h.options, h.core, h.proper, h.room⟩

/-- While the factors are not current, the two workspaces may be replaced by longer ones. -/
theorem Stands.replace (h : Stands needs memory o c e) (late : c.phase ≠ .factorized)
    {workspace : Workspace α} (keep : workspace.keep = e.workspace.keep)
    (reals : e.workspace.reals.length ≤ workspace.reals.length) :
    Stands needs memory o c { e with workspace } where
  kernel := h.kernel
  memory := h.memory
  options := h.options
  core := by
    rw [← h.core]
    have late : e.phase ≠ .factorized := h.phase ▸ late
    simp only [Engine.core, keep, late, if_false]
  proper := h.proper
  room analysed := Nat.le_trans (h.room analysed) reals

theorem Stands.grow_integers (h : Stands needs memory o c e) (late : c.phase ≠ .factorized)
    (n : Nat) : Stands needs memory o c { e with
      workspace := { e.workspace with integers := e.workspace.integers.grow n } } :=
  h.replace late rfl (Nat.le_refl _)

theorem Stands.grow_reals (h : Stands needs memory o c e) (late : c.phase ≠ .factorized)
    (n : Nat) : Stands needs memory o c { e with
      workspace := { e.workspace with reals := e.workspace.reals.grow n } } :=
  h.replace late rfl (by simp only [Buffer.length_grow]; omega)

theorem Stands.after_emit (h : Stands needs memory o c e) {code message : String} {k : Nat}
    {attemptIndex : Option Nat} {fields : List (String × Payload α)} (severity : Severity)
    (graded : (Catalog.canonical.find? code).map CatalogEntry.severity = some severity)
    (text : message ≠ "") (plain : ∀ field ∈ fields, ∃ v, field.2.normalize = .ok v) :
    Ends (emit code message (some k) attemptIndex fields) e (fun _ => Stands needs memory o c)
      (fun _ _ => False) := by
  refine (ends_emit_graded (k := k) severity graded text h.named plain).mono ?_ fun _ _ h => h
  rintro - _ ⟨diagnostics, rfl, -⟩
  exact h.note ..

/-! ## Lengths -/

section Lengths

variable {run : Unit → EngineM α σ β} {after : β → Engine α σ → Prop}
variable {bad : Fault → Engine α σ → Prop}

theorem ends_scaled {factor : α} {base : Int} {next : Int → EngineM α σ β}
    (finite : o.Finite → Scalar.isFinite factor = true)
    (large : Scalar.lt factor 1 = false ∨ Scalar.lt 1 factor = true) (nonneg : 0 ≤ base)
    (hok : ∀ n, (Boundless memory o → base ≤ n) → Ends (next n) e after bad)
    (hbad : ∀ fault, Refuses memory o fault → bad fault e) :
    Ends (lengthOrFault (scaledLength factor base) >>= next) e after bad := by
  have scaled (h : Boundless memory o) : ∃ n, scaledLength factor base = .ok n ∧ base ≤ n :=
    have := h.keeps
    KeepsLengths.exists_scaled (finite h.finite) large nonneg
  refine ends_lengthOrFault (fun n read => hok n fun h => ?_) fun cause failed =>
    hbad _ (refuses_of_boundless fun h => ?_)
  · obtain ⟨n', read', long⟩ := scaled h
    rwa [Except.ok.inj (read.symm.trans read')]
  · obtain ⟨n', read', -⟩ := scaled h
    cases failed.symm.trans read'

theorem ends_grown {current base : Nat} {next : Int → EngineM α σ β}
    (hok : ∀ n, (Boundless memory o → 0 ≤ n) → Ends (next n) e after bad)
    (hbad : ∀ fault, Refuses memory o fault → bad fault e) :
    Ends (lengthOrFault (grownLength current base o.growthFactor) >>= next) e after bad := by
  refine ends_lengthOrFault (fun n read => hok n fun h => ?_) fun cause failed =>
    hbad _ (refuses_of_boundless fun h => ?_)
  · obtain ⟨n', read', nonneg⟩ := h.exists_grownLength current base
    rwa [Except.ok.inj (read.symm.trans read')]
  · obtain ⟨n', read', -⟩ := h.exists_grownLength current base
    cases failed.symm.trans read'

variable {n : Int} (here : e.memory = memory) (nonneg : Boundless memory o → 0 ≤ n)
include here nonneg

theorem ends_integers_unless_refused
    (hok : Ends (run ()) { e with
      workspace := { e.workspace with integers := e.workspace.integers.grow n.toNat } } after bad)
    (hbad : ∀ fault, Refuses memory o fault → bad fault e) :
    Ends (ensureIntegers n >>= run) e after bad :=
  ends_ensureIntegers hok fun cause failed => hbad _ (refuses_of_boundless fun free => by
    rw [here, free.memory, Buffer.ensure_unlimited _ (nonneg free)] at failed
    cases failed)

theorem ends_reals_unless_refused
    (hok : Ends (run ()) { e with
      workspace := { e.workspace with reals := e.workspace.reals.grow n.toNat } } after bad)
    (hbad : ∀ fault, Refuses memory o fault → bad fault e) :
    Ends (ensureReals n >>= run) e after bad :=
  ends_ensureReals hok fun cause failed => hbad _ (refuses_of_boundless fun free => by
    rw [here, free.memory, Buffer.ensure_unlimited _ (nonneg free)] at failed
    cases failed)

theorem ends_keep_unless_refused
    (hok : Ends (run ()) { e with
      workspace := { e.workspace with keep := e.workspace.keep.grow n.toNat } } after bad)
    (hbad : ∀ fault, Refuses memory o fault → bad fault e) :
    Ends (ensureKeep n >>= run) e after bad :=
  ends_ensureKeep hok fun cause failed => hbad _ (refuses_of_boundless fun free => by
    rw [here, free.memory, Buffer.ensure_unlimited _ (nonneg free)] at failed
    cases failed)

end Lengths

/-! ## Growth -/

/-- What is kept while an engine grows: its workspaces get longer, and it reports that. -/
structure Growing (memory : Memory) (o : Options α) (P : Engine α σ → Prop) : Prop where
  memory : ∀ {e}, P e → e.memory = memory
  options : ∀ {e}, P e → e.options = o
  named : ∀ {e}, P e → e.solverId ≠ ""
  integers : ∀ {e}, P e → ∀ n, P { e with
    workspace := { e.workspace with integers := e.workspace.integers.grow n } }
  reals : ∀ {e}, P e → ∀ n, P { e with
    workspace := { e.workspace with reals := e.workspace.reals.grow n } }
  notes : ∀ {e}, P e → ∀ pending diagnostics, P { e with pending, diagnostics }

namespace Growing

variable {P : Engine α σ → Prop}

theorem emitReallocated (g : Growing memory o P) (h : P e) (cause : String) (solveIndex : Nat)
    (attemptIndex : Option Nat) (before after : Workspace α) {more : List (String × Payload α)}
    (plain : ∀ field ∈ more, ∃ v, field.2.normalize = .ok v) :
    Ends (emitReallocated cause solveIndex attemptIndex before after more) e (fun _ => P)
      (fun _ _ => False) := by
  refine (ends_emit_graded (k := solveIndex) .warning (by decide +kernel) (by simp [toString])
    (g.named h) ?_).mono ?_ fun _ _ h => h
  · simp only [List.cons_append, List.nil_append, List.forall_mem_cons]
    exact ⟨⟨_, rfl⟩, ⟨_, rfl⟩, plain⟩
  · rintro - _ ⟨diagnostics, rfl, -⟩
    exact g.notes h _ diagnostics

theorem growReals (g : Growing memory o P) (h : P e) (same : e₁.options = o) :
    Ends (growReals e₁) e (fun _ => P) (fun fault _ => Refuses memory o fault) := by
  unfold Engine.growReals
  split
  · rw [same]
    refine ends_grown (fun n nonneg => ?_) fun _ refused => refused
    rw [← bind_pure (ensureReals n)]
    exact ends_reals_unless_refused (g.memory h) nonneg (g.reals h _) fun _ refused => refused
  · exact h

theorem growIntegers (g : Growing memory o P) (h : P e) (same : e₁.options = o) :
    Ends (growIntegers e₁) e (fun _ => P) (fun fault _ => Refuses memory o fault) := by
  unfold Engine.growIntegers
  split
  · rw [same]
    refine ends_grown (fun n nonneg => ?_) fun _ refused => refused
    rw [← bind_pure (ensureIntegers n)]
    exact ends_integers_unless_refused (g.memory h) nonneg (g.integers h _) fun _ refused => refused
  · exact h

/-- Pending growth is carried out, unless a length is refused. -/
theorem applyPendingGrowth (g : Growing memory o P) (h : P e) (solveIndex : Nat) :
    Ends (applyPendingGrowth solveIndex) e (fun _ => P)
      (fun fault _ => Refuses memory o fault) := by
  rw [applyPendingGrowth_eq, ends_get]
  split
  · refine (g.growReals h (g.options h)).bind (fun _ e₁ h₁ => ?_) fun _ _ refused => refused
    refine (g.growIntegers h₁ (g.options h)).bind (fun _ e₂ h₂ => ?_) fun _ _ refused => refused
    unfold settleGrowth
    rw [ends_modify, ends_get]
    exact (g.emitReallocated (g.notes h₂ .none _) _ _ _ _ _ (by simp)).mono (fun _ _ h => h)
      (by simp)
  · exact h

/-- A shortage is relieved, unless a length is refused. -/
theorem relieve (g : Growing memory o P) (h : P e) (result : FactorizationResult)
    (required : Requirement) (lengths : Nat × Nat) (solveIndex i : Nat) :
    Ends (relieve result required lengths solveIndex i) e (fun _ => P)
      (fun fault _ => Refuses memory o fault) := by
  unfold Engine.relieve
  rw [ends_get]
  refine ends_integers_unless_refused (g.memory h) (fun _ => Int.natCast_nonneg _) ?_
    fun _ refused => refused
  have grown := g.integers h (lengths.1 : Int).toNat
  refine ends_reals_unless_refused (g.memory grown) (fun _ => Int.natCast_nonneg _) ?_
    fun _ refused => refused
  rw [ends_get]
  refine (g.emitReallocated (g.reals grown _) _ _ _ _ _ ?_).mono (fun _ _ h => h) (by simp)
  simp [Payload.normalize]

end Growing

theorem growing_stands (late : c.phase ≠ .factorized) :
    Growing memory o (Stands needs memory o c) where
  memory h := h.memory
  options h := h.options
  named h := h.named
  integers h := h.grow_integers late
  reals h := h.grow_reals late
  notes h _ _ := h.note ..

end Engine

end SymSolve
