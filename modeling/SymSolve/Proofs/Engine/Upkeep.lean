import Mathlib.Data.List.Forall2
import SymSolve.Proofs.Engine.Steps
import SymSolve.Proofs.Matrices.Making

/-!
# The factors an engine relies on

Whether an engine solves with the words in its buffers depends on four notes: its phase, the tag
of the values it saw last, the number of negative eigenvalues and the captured pattern. The
invariant `Sound` says what these notes promise about the kernel and the buffers; what "factors"
means is left open, in a `KernelSpec`.

**Theorem (`ends_prepare`).** If the kernel meets its specification for the pattern and the values
of a matrix, then preparing that matrix keeps `Sound`, however it ends. If it ends well, the
buffers hold factors of the matrix with the values it has now.

**Theorem (`multiSolve_sound`).** A whole call keeps `Sound`, and every solution of a successful
call is an answer of the kernel from such factors.

The words are written by the kernel and may be discarded by growth at any attempt, so the
attempts keep the weaker `Waits`: the analysis is still good, and no factors are promised.
-/

namespace SymSolve

/-- The structure is analysed. -/
def Phase.Analysed : Phase → Prop
  | uninitialized | structureKnown => False
  | symbolicDone | factorized | factorizationStale => True

/-- The structure is analysed, and the factors are missing or out of date. -/
def Phase.Waiting : Phase → Prop
  | symbolicDone | factorizationStale => True
  | uninitialized | structureKnown | factorized => False

theorem Phase.Waiting.analysed {p : Phase} (h : p.Waiting) : p.Analysed := by
  cases p <;> trivial

theorem Phase.Waiting.not_factorized {p : Phase} (h : p.Waiting) : p ≠ factorized := by
  rintro rfl
  exact h

theorem Phase.analysed_stale {p : Phase} : p.stale.Analysed ↔ p.Analysed := by
  cases p <;> rfl

theorem Phase.stale_ne_factorized (p : Phase) : p.stale ≠ factorized := by
  cases p <;> simp [stale]

/-! ## Specifications of a kernel -/

/-- What is known of a kernel in use. -/
structure KernelSpec (α σ : Type) where
  /-- The session is in order. -/
  Admits : Session α σ → Prop
  /-- An analysis of the pattern was accepted and left `keep`. -/
  Ready : Session α σ → Pattern → (keep : Array Int) → Prop
  /-- The words in `a` and `iw` are factors of the matrix with the pattern and the values, which
  has that many negative eigenvalues. -/
  Holds : Session α σ → Pattern → (values : List α) → (negative : Int) → (a : Array α) →
    (iw : Array Int) → Prop
  /-- The second vector solves the system with the first one as its right-hand side. -/
  Solves : Pattern → (values : List α) → (rhs solution : List α) → Prop

namespace KernelSpec

variable {α σ : Type}

/-- Factorization does what the specification says, for one pattern and values. -/
structure Attempts (spec : KernelSpec α σ) (p : Pattern) (values : List α) : Prop where
  admits_factorize : ∀ {s : Session α σ} {a} (iw) {keep}, spec.Admits s → spec.Ready s p keep →
    values <+: a.toList → spec.Admits (s.factorize p a iw keep).session
  ready_factorize : ∀ {s : Session α σ} {a} (iw) {keep}, spec.Admits s → spec.Ready s p keep →
    values <+: a.toList →
    spec.Ready (s.factorize p a iw keep).session p (s.factorize p a iw keep).keep
  holds_factorize : ∀ {s : Session α σ} {a iw keep result}, spec.Admits s → spec.Ready s p keep →
    values <+: a.toList → (s.factorize p a iw keep).result = .ok result →
    result.verdict = .success →
    spec.Holds (s.factorize p a iw keep).session p values result.negative
      (s.factorize p a iw keep).a (s.factorize p a iw keep).iw

/-- Analysis and factorization do what the specification says, for one pattern and values. -/
structure Factorizes (spec : KernelSpec α σ) (p : Pattern) (values : List α) : Prop
    extends spec.Attempts p values where
  admits_analyse : ∀ {s : Session α σ} (iw keep), spec.Admits s →
    spec.Admits (s.analyse p iw keep).session
  ready_analyse : ∀ {s : Session α σ} {iw keep result}, spec.Admits s →
    (s.analyse p iw keep).result = .ok result → result.accepted →
    spec.Ready (s.analyse p iw keep).session p (s.analyse p iw keep).keep

/-- Solving does what the specification says. -/
structure Backsolves (spec : KernelSpec α σ) : Prop where
  admits : ∀ {s : Session α σ} {p values n a iw} (rhs), spec.Admits s →
    spec.Holds s p values n a iw → spec.Admits (s.backsolve p.dim rhs a iw).session
  ready : ∀ {s : Session α σ} {p values n a iw keep} (rhs), spec.Admits s →
    spec.Holds s p values n a iw → spec.Ready s p keep →
    spec.Ready (s.backsolve p.dim rhs a iw).session p keep
  holds : ∀ {s : Session α σ} {p values n a iw} (rhs), spec.Admits s →
    spec.Holds s p values n a iw →
    spec.Holds (s.backsolve p.dim rhs a iw).session p values n (s.backsolve p.dim rhs a iw).a
      (s.backsolve p.dim rhs a iw).iw
  solves : ∀ {s : Session α σ} {p values n a iw rhs result x}, spec.Admits s →
    spec.Holds s p values n a iw → (s.backsolve p.dim rhs a iw).result = .ok result →
    result.solution = some x → spec.Solves p values rhs x

/-- The kernel meets the specification, whatever matrix it gets, and also when its pivot tolerance
is changed between two calls. -/
structure Met (spec : KernelSpec α σ) : Prop where
  factorizes : ∀ p values, spec.Factorizes p values
  backsolves : spec.Backsolves
  admits_withTolerance : ∀ {s : Session α σ} (tolerance), spec.Admits s →
    spec.Admits (s.withTolerance tolerance)
  ready_withTolerance : ∀ {s : Session α σ} {p keep} (tolerance), spec.Ready s p keep →
    spec.Ready (s.withTolerance tolerance) p keep

end KernelSpec

namespace Engine

variable {α σ : Type} [Scalar α] {spec : KernelSpec α σ} {knows : Nat → List α → Prop}
variable {m : MatrixView α} {e e' e'' : Engine α σ}

/-- What the notes of an engine promise. `knows tag values` says that a matrix with that tag has
those values. -/
structure Sound (spec : KernelSpec α σ) (knows : Nat → List α → Prop) (e : Engine α σ) : Prop where
  admits : spec.Admits e.session
  capacity : e.phase.Analysed → e.nonzeros ≤ e.workspace.reals.length
  ready : e.phase.Analysed → spec.Ready e.session e.pattern e.workspace.keep.words
  current : e.phase = .factorized → ∃ values negative, knows e.matrixTag values ∧
    e.negative = some negative ∧ spec.Holds e.session e.pattern values negative
      e.workspace.reals.words e.workspace.integers.words

theorem Sound.mono {knows' : Nat → List α → Prop} (h : Sound spec knows e)
    (more : ∀ tag values, knows tag values → knows' tag values) : Sound spec knows' e :=
  { h with
    current := fun factorized => by
      obtain ⟨values, negative, known, noted, holds⟩ := h.current factorized
      exact ⟨values, negative, more _ _ known, noted, holds⟩ }

/-- What no step of a call changes once the structure is captured. -/
structure Steady (e e' : Engine α σ) : Prop where
  memory : e'.memory = e.memory
  options : e'.options = e.options
  solverId : e'.solverId = e.solverId
  providesInertia : e'.providesInertia = e.providesInertia
  kernel : e'.session.kernel = e.session.kernel
  controls : e'.session.controls = e.session.controls
  tolerance : e'.tolerance = e.tolerance
  pattern : e'.pattern = e.pattern
  nonzeros : e'.nonzeros = e.nonzeros
  solveCount : e'.solveCount = e.solveCount

theorem Steady.refl (e : Engine α σ) : Steady e e := ⟨rfl, rfl, rfl, rfl, rfl, rfl, rfl, rfl, rfl, rfl⟩

theorem Steady.trans (h : Steady e e') (h' : Steady e' e'') : Steady e e'' where
  memory := h'.memory.trans h.memory
  options := h'.options.trans h.options
  solverId := h'.solverId.trans h.solverId
  providesInertia := h'.providesInertia.trans h.providesInertia
  kernel := h'.kernel.trans h.kernel
  controls := h'.controls.trans h.controls
  tolerance := h'.tolerance.trans h.tolerance
  pattern := h'.pattern.trans h.pattern
  nonzeros := h'.nonzeros.trans h.nonzeros
  solveCount := h'.solveCount.trans h.solveCount

/-- `e'` comes from `e` in the middle of a factorization. -/
structure Waits (spec : KernelSpec α σ) (knows : Nat → List α → Prop) (e e' : Engine α σ) : Prop where
  sound : Sound spec knows e'
  steady : Steady e e'
  matrixTag : e'.matrixTag = e.matrixTag
  waiting : e'.phase.Waiting

theorem Waits.refl (h : Sound spec knows e) (waiting : e.phase.Waiting) : Waits spec knows e e :=
  ⟨h, .refl e, rfl, waiting⟩

theorem Waits.trans (h : Waits spec knows e e') (h' : Waits spec knows e' e'') :
    Waits spec knows e e'' :=
  ⟨h'.sound, h.steady.trans h'.steady, h'.matrixTag.trans h.matrixTag, h'.waiting⟩

/-- While factors are missing, the two workspaces may be replaced by longer ones. -/
theorem Waits.replace (h : Waits spec knows e e') {workspace : Workspace α}
    (keep : workspace.keep = e'.workspace.keep)
    (reals : e'.workspace.reals.length ≤ workspace.reals.length) :
    Waits spec knows e { e' with workspace } where
  sound := {
    admits := h.sound.admits
    capacity := fun analysed => Nat.le_trans (h.sound.capacity analysed) reals
    ready := fun analysed => by
      have := h.sound.ready analysed
      rwa [← keep] at this
    current := fun factorized => absurd factorized h.waiting.not_factorized }
  steady := { h.steady with }
  matrixTag := h.matrixTag
  waiting := h.waiting

/-- Growth that is pending, diagnostics and attempts have no part in the invariant. -/
theorem Waits.note (h : Waits spec knows e e') (pending : PendingGrowth)
    (diagnostics : List (Event α)) (trace : List (AttemptRecord α)) (count : Nat)
    (negative : Option Int) :
    Waits spec knows e { e' with
      pending, diagnostics, trace, negative, factorizationCount := count } where
  sound := {
    admits := h.sound.admits
    capacity := h.sound.capacity
    ready := h.sound.ready
    current := fun factorized => absurd factorized h.waiting.not_factorized }
  steady := { h.steady with }
  matrixTag := h.matrixTag
  waiting := h.waiting

theorem Waits.stale (h : Waits spec knows e e') :
    Waits spec knows e { e' with phase := .factorizationStale } where
  sound := {
    admits := h.sound.admits
    capacity := fun _ => h.sound.capacity h.waiting.analysed
    ready := fun _ => h.sound.ready h.waiting.analysed
    current := nofun }
  steady := { h.steady with }
  matrixTag := h.matrixTag
  waiting := trivial

theorem Waits.grow_integers (h : Waits spec knows e e') (n : Nat) :
    Waits spec knows e { e' with
      workspace := { e'.workspace with integers := e'.workspace.integers.grow n } } :=
  h.replace rfl (Nat.le_refl _)

theorem Waits.grow_reals (h : Waits spec knows e e') (n : Nat) :
    Waits spec knows e { e' with
      workspace := { e'.workspace with reals := e'.workspace.reals.grow n } } :=
  h.replace rfl (by simp only [Buffer.length_grow]; omega)

theorem Waits.after_emit (h : Waits spec knows e e') (code message : String)
    (solveIndex attemptIndex : Option Nat) (witness : List (String × Payload α)) :
    Ends (emit code message solveIndex attemptIndex witness) e'
      (fun _ => Waits spec knows e) (fun _ => Waits spec knows e) := by
  refine (ends_emit ..).mono ?_ ?_
  · rintro - _ ⟨diagnostics, rfl⟩
    exact h.note _ diagnostics _ _ _
  · rintro - _ rfl
    exact h

theorem Waits.after_emitReallocated (h : Waits spec knows e e') (cause : String) (solveIndex : Nat)
    (attemptIndex : Option Nat) (before after : Workspace α) (more : List (String × Payload α)) :
    Ends (emitReallocated cause solveIndex attemptIndex before after more) e'
      (fun _ => Waits spec knows e) (fun _ => Waits spec knows e) := by
  unfold emitReallocated
  exact h.after_emit ..

/-! ## Growth -/

theorem Waits.after_growReals (h : Waits spec knows e e') (e₁ : Engine α σ) :
    Ends (growReals e₁) e' (fun _ => Waits spec knows e) (fun _ => Waits spec knows e) := by
  unfold growReals
  split
  · refine ends_lengthOrFault (fun n _ => ?_) fun _ _ => h
    rw [← bind_pure (ensureReals n)]
    exact ends_ensureReals (h.grow_reals _) fun _ _ => h
  · exact h

theorem Waits.after_growIntegers (h : Waits spec knows e e') (e₁ : Engine α σ) :
    Ends (growIntegers e₁) e' (fun _ => Waits spec knows e) (fun _ => Waits spec knows e) := by
  unfold growIntegers
  split
  · refine ends_lengthOrFault (fun n _ => ?_) fun _ _ => h
    rw [← bind_pure (ensureIntegers n)]
    exact ends_ensureIntegers (h.grow_integers _) fun _ _ => h
  · exact h

theorem Waits.after_applyPendingGrowth (h : Waits spec knows e e') (solveIndex : Nat) :
    Ends (applyPendingGrowth solveIndex) e' (fun _ => Waits spec knows e)
      (fun _ => Waits spec knows e) := by
  rw [applyPendingGrowth_eq, ends_get]
  split
  · refine (h.after_growReals e').bind (fun _ e₁ h₁ => ?_) fun _ _ h => h
    refine (h₁.after_growIntegers e').bind (fun _ e₂ h₂ => ?_) fun _ _ h => h
    unfold settleGrowth
    rw [ends_modify, ends_get]
    exact (h₂.note .none _ _ _ _).after_emitReallocated ..
  · exact h

/-! ## Attempts -/

/-- The buffers hold factors of a matrix. -/
def Factors (spec : KernelSpec α σ) (m : MatrixView α) (negative : Int) (e : Engine α σ) : Prop :=
  spec.Holds e.session e.pattern m.values negative e.workspace.reals.words
    e.workspace.integers.words

/-- The session and the buffers after the kernel's factorization was called. -/
def afterFactorization (m : MatrixView α) (e : Engine α σ) : Engine α σ :=
  let r := e.session.factorize e.pattern
    (overwriteFront m.values.toArray e.workspace.reals.words) e.workspace.integers.words
    e.workspace.keep.words
  { e with session := r.session, workspace := ⟨⟨r.iw⟩, ⟨r.a⟩, ⟨r.keep⟩⟩ }

theorem attempt_eq (fits : m.values.length ≤ e.workspace.reals.length) (solveIndex i : Nat) :
    attempt m solveIndex i e =
      match (e.session.factorize e.pattern
        (overwriteFront m.values.toArray e.workspace.reals.words) e.workspace.integers.words
        e.workspace.keep.words).result with
      | .error cause => (.error (.kernel cause), e.afterFactorization m)
      | .ok result => (.ok result, recordAttempt result solveIndex i (e.afterFactorization m)) := by
  unfold attempt
  rw [MatrixView.fill_of_le fits]
  rfl

/-- Without room for the values there is no attempt. -/
theorem attempts_of_lt (short : e.workspace.reals.length < m.values.length) (solveIndex i : Nat) :
    attempts m solveIndex i e = (.error (.view .shortOutput), e) := by
  have failed : m.fill e.workspace.reals.words = .error .shortOutput := if_pos short
  rw [attempts]
  simp only [attempt, failed]

/-- In an engine whose buffers are long enough, the kernel finds the values in front. -/
theorem Sound.front (h : Sound spec knows e) (waiting : e.phase.Waiting)
    (fits : m.values.length ≤ e.nonzeros) :
    m.values.length ≤ e.workspace.reals.words.size ∧
      m.values <+: (overwriteFront m.values.toArray e.workspace.reals.words).toList :=
  ⟨Nat.le_trans fits (h.capacity waiting.analysed), prefix_overwriteFront m.values.toArray _⟩

theorem waits_afterFactorization (h : Sound spec knows e) (waiting : e.phase.Waiting)
    (meets : spec.Attempts e.pattern m.values) (fits : m.values.length ≤ e.nonzeros) :
    Waits spec knows e (e.afterFactorization m) := by
  have ready := h.ready waiting.analysed
  have front := (h.front waiting fits).2
  have same : (e.afterFactorization m).workspace.reals.length = e.workspace.reals.length := by
    have long := (h.front waiting fits).1
    simp only [Buffer.length, Engine.afterFactorization, Session.size_factorize_a]
    exact length_of_fill (MatrixView.fill_of_le long)
  exact {
    sound := {
      admits := meets.admits_factorize _ h.admits ready front
      capacity := fun analysed => same ▸ h.capacity analysed
      ready := fun _ => meets.ready_factorize _ h.admits ready front
      current := fun factorized => absurd factorized waiting.not_factorized }
    steady := { Steady.refl e with }
    matrixTag := rfl
    waiting }

theorem factors_afterFactorization (h : Sound spec knows e) (waiting : e.phase.Waiting)
    (meets : spec.Attempts e.pattern m.values) (fits : m.values.length ≤ e.nonzeros)
    {result : FactorizationResult} (success : result.verdict = .success)
    (answered : (e.session.factorize e.pattern
      (overwriteFront m.values.toArray e.workspace.reals.words) e.workspace.integers.words
      e.workspace.keep.words).result = .ok result) :
    Factors spec m result.negative (e.afterFactorization m) :=
  meets.holds_factorize h.admits (h.ready waiting.analysed) (h.front waiting fits).2 answered
    success

theorem Waits.after_relieve (h : Waits spec knows e e') (result : FactorizationResult)
    (required : Requirement) (lengths : Nat × Nat) (solveIndex i : Nat) :
    Ends (relieve result required lengths solveIndex i) e' (fun _ => Waits spec knows e)
      (fun _ => Waits spec knows e) := by
  unfold relieve
  rw [ends_get]
  refine ends_ensureIntegers ?_ fun _ _ => h
  refine ends_ensureReals ?_ fun _ _ => h.grow_integers _
  rw [ends_get]
  exact ((h.grow_integers _).grow_reals _).after_emitReallocated ..

theorem Waits.after_refuseShortage (h : Waits spec knows e e') (result : FactorizationResult)
    (short : WorkspaceKind) (required : Requirement) (solveIndex i : Nat) :
    Ends (refuseShortage result short required solveIndex i) e' (fun _ => Waits spec knows e)
      (fun _ => Waits spec knows e) := by
  unfold refuseShortage
  rw [ends_get, ends_set]
  exact h.stale.after_emit ..

theorem waits_attempt (h : Sound spec knows e) (waiting : e.phase.Waiting)
    (meets : spec.Attempts e.pattern m.values) (fits : m.values.length ≤ e.nonzeros)
    (solveIndex i : Nat) :
    Waits spec knows e (attempt m solveIndex i e).2 ∧
      ∀ result, (attempt m solveIndex i e).1 = .ok result → result.verdict = .success →
        Factors spec m result.negative (attempt m solveIndex i e).2 := by
  have after := waits_afterFactorization h waiting meets fits
  rw [attempt_eq (h.front waiting fits).1]
  split
  · exact ⟨after, nofun⟩
  · next result answered =>
    refine ⟨after.note _ _ _ _ _, ?_⟩
    rintro _ ⟨⟩ success
    exact factors_afterFactorization h waiting meets fits success answered

/-- What the attempts leave: still no factors that are promised, but if the last report is a
success the buffers hold some. -/
theorem waits_attempts (m : MatrixView α) (solveIndex i : Nat) (e : Engine α σ)
    (h : Sound spec knows e) (waiting : e.phase.Waiting)
    (meets : spec.Attempts e.pattern m.values) (fits : m.values.length ≤ e.nonzeros) :
    Waits spec knows e (attempts m solveIndex i e).2 ∧
      ∀ result j, (attempts m solveIndex i e).1 = .ok (some (result, j)) →
        result.verdict = .success →
        Factors spec m result.negative (attempts m solveIndex i e).2 := by
  fun_induction attempts m solveIndex i e with
  | case1 i e tried fault _ => exact ⟨(waits_attempt h waiting meets fits _ _).1, nofun⟩
  | case2 i e tried result answered _ =>
    obtain ⟨after, factors⟩ := waits_attempt h waiting meets fits solveIndex i
    refine ⟨after, ?_⟩
    rintro _ _ ⟨⟩ success
    exact factors result answered success
  | case3 i e tried result _ short required _ before cause _ =>
    exact ⟨(waits_attempt h waiting meets fits _ _).1, nofun⟩
  | case4 i e tried result _ short required _ before lengths _ _ enough fault after relieved =>
    have attempted := (waits_attempt h waiting meets fits solveIndex i).1
    exact ⟨(attempted.after_relieve ..).bad_of_exec relieved, nofun⟩
  | case5 i e tried result _ short required _ before lengths _ _ enough after relieved ih =>
    have attempted := (waits_attempt h waiting meets fits solveIndex i).1
    have grown : Waits spec knows e after := (attempted.after_relieve ..).ok_of_exec relieved
    obtain ⟨rest, factors⟩ := ih grown.sound grown.waiting (grown.steady.pattern ▸ meets)
      (grown.steady.nonzeros ▸ fits)
    exact ⟨grown.trans rest, factors⟩
  | case6 i e tried result _ short required _ before lengths _ _ refused =>
    have attempted := (waits_attempt h waiting meets fits solveIndex i).1
    refine ⟨(attempted.after_refuseShortage ..).always, fun result j found => ?_⟩
    rcases refused with ⟨⟨⟩ | ⟨⟩, _⟩ <;> cases found

theorem ends_attempts (h : Sound spec knows e) (waiting : e.phase.Waiting)
    (meets : spec.Attempts e.pattern m.values) (fits : m.values.length ≤ e.nonzeros)
    (solveIndex i : Nat) :
    Ends (ExceptT.mk (attempts m solveIndex i)) e
      (fun reported e' => Waits spec knows e e' ∧ ∀ result j, reported = some (result, j) →
        result.verdict = .success → Factors spec m result.negative e')
      (fun _ => Waits spec knows e) := by
  have outcome := waits_attempts m solveIndex i e h waiting meets fits
  have run : exec (ExceptT.mk (attempts m solveIndex i)) e = attempts m solveIndex i e := rfl
  rw [Ends, run]
  generalize attempts m solveIndex i e = ended at outcome ⊢
  rcases ended with ⟨fault | reported, e'⟩
  · exact outcome.1
  · exact ⟨outcome.1, fun result j h => outcome.2 result j (h ▸ rfl)⟩

/-! ## The end of a factorization -/

/-- The notes of an engine say that its buffers hold factors of a matrix. -/
structure Current (spec : KernelSpec α σ) (m : MatrixView α) (e : Engine α σ) : Prop where
  phase : e.phase = .factorized
  matrixTag : e.matrixTag = m.tag
  factors : ∃ negative, e.negative = some negative ∧ Factors spec m negative e

/-- `e'` comes from `e`, and has factors of a matrix if `outcome` is none. -/
structure Prepares (spec : KernelSpec α σ) (knows : Nat → List α → Prop) (m : MatrixView α)
    (e : Engine α σ) (outcome : Option Outcome) (e' : Engine α σ) : Prop where
  sound : Sound spec knows e'
  steady : Steady e e'
  current : outcome = none → Current spec m e'
  failed : outcome ≠ some .success

theorem Waits.prepares (h : Waits spec knows e e') {outcome : Outcome}
    (failed : outcome ≠ .success) : Prepares spec knows m e (some outcome) e' :=
  ⟨h.sound, h.steady, nofun, fun h => failed (Option.some.inj h)⟩

theorem Factors.note {negative : Int} (h : Factors spec m negative e) (pending : PendingGrowth)
    (diagnostics : List (Event α)) (noted : Option Int) :
    Factors spec m negative { e with pending, diagnostics, negative := noted } := h

theorem Waits.after_scheduleGrowth (h : Waits spec knows e e') {negative : Int}
    (factors : Factors spec m negative e') (noted : e'.negative = some negative)
    (result : FactorizationResult) (solveIndex i : Nat) :
    Ends (scheduleGrowth result solveIndex i) e'
      (fun _ e₁ => Waits spec knows e e₁ ∧ Factors spec m negative e₁ ∧
        e₁.negative = some negative)
      (fun _ => Waits spec knows e) := by
  unfold scheduleGrowth
  rw [ends_get]
  dsimp only
  split
  · rw [ends_set]
    refine (ends_emit ..).mono ?_ ?_
    · rintro - _ ⟨diagnostics, rfl⟩
      exact ⟨h.note .., factors.note .., noted⟩
    · rintro - _ rfl
      exact h.note ..
  · exact ⟨h, factors, noted⟩

/-- Factors that were made for the present values are put to use. -/
theorem Waits.factorized (h : Waits spec knows e e') {negative : Int}
    (factors : Factors spec m negative e') (noted : e'.negative = some negative)
    (tag : e.matrixTag = m.tag) (known : knows m.tag m.values) :
    Prepares spec knows m e none { e' with phase := .factorized } where
  sound := {
    admits := h.sound.admits
    capacity := fun _ => h.sound.capacity h.waiting.analysed
    ready := fun _ => h.sound.ready h.waiting.analysed
    current := fun _ => ⟨m.values, negative, h.matrixTag.trans tag ▸ known, noted, factors⟩ }
  steady := { h.steady with }
  current := fun _ => ⟨rfl, h.matrixTag.trans tag, negative, noted, factors⟩
  failed := nofun

theorem Waits.after_conclude (h : Waits spec knows e e') (tag : e.matrixTag = m.tag)
    (known : knows m.tag m.values) {result : FactorizationResult}
    (factors : result.verdict = .success → Factors spec m result.negative e')
    (solveIndex i : Nat) :
    Ends (conclude result solveIndex i) e' (Prepares spec knows m e)
      (fun _ => Waits spec knows e) := by
  unfold conclude
  rw [ends_get]
  split
  · next success =>
    rw [ends_set]
    have noted := h.note e'.pending e'.diagnostics e'.trace e'.factorizationCount
      (some result.negative)
    refine (noted.after_scheduleGrowth ((factors success).note _ _ _) rfl ..).bind ?_
      fun _ _ h => h
    rintro - e₁ ⟨h₁, factors, noted⟩
    rw [ends_modify]
    exact h₁.factorized factors noted tag known
  · rw [ends_set]
    exact (h.stale.after_emit ..).bind (fun _ _ h => h.prepares nofun) fun _ _ h => h
  · rw [ends_set]
    exact (h.stale.after_emit ..).bind (fun _ _ h => h.prepares nofun) fun _ _ h => h

theorem Waits.after_factorize (h : Waits spec knows e e') (tag : e.matrixTag = m.tag)
    (known : knows m.tag m.values) (meets : spec.Attempts e.pattern m.values)
    (fits : m.values.length ≤ e.nonzeros) (solveIndex : Nat) :
    Ends (factorize m solveIndex) e' (Prepares spec knows m e) (fun _ => Waits spec knows e) := by
  unfold factorize
  refine (h.after_applyPendingGrowth solveIndex).bind ?_ fun _ _ h => h
  intro _ e₁ h₁
  refine (ends_attempts h₁.sound h₁.waiting (h₁.steady.pattern ▸ meets)
    (h₁.steady.nonzeros ▸ fits) solveIndex 0).bind ?_ fun _ _ => h₁.trans
  rintro (_ | ⟨result, i⟩) e₂ ⟨attempted, factors⟩
  · exact (h₁.trans attempted).prepares nofun
  · exact (h₁.trans attempted).after_conclude tag known (factors _ _ rfl) _ _

/-! ## Preparing -/

theorem Prepares.trans {outcome : Option Outcome} (steady : Steady e e')
    (h : Prepares spec knows m e' outcome e'') : Prepares spec knows m e outcome e'' :=
  { h with steady := steady.trans h.steady }

theorem captureIfNew_of_ne (h : e.phase ≠ .uninitialized) : captureIfNew m e = e := if_neg h

theorem captureIfNew_of_eq (h : e.phase = .uninitialized) :
    captureIfNew m e = e.captureStructure m := if_pos h

theorem captureIfNew_phase (m : MatrixView α) (e : Engine α σ) :
    (captureIfNew m e).phase ≠ .uninitialized := by
  unfold captureIfNew
  split
  · nofun
  · next known => exact known

/-- The structure that is captured has as many values as the matrix. -/
theorem nonzeros_captureIfNew (counted : m.values.length = m.nonzeros)
    (same : e.phase ≠ .uninitialized → m.nonzeros = e.nonzeros) :
    m.values.length = (captureIfNew m e).nonzeros := by
  by_cases new : e.phase = .uninitialized
  · rw [captureIfNew_of_eq new]
    exact counted
  · rw [captureIfNew_of_ne new, counted]
    exact same new

theorem Sound.captureIfNew (h : Sound spec knows e) (m : MatrixView α) :
    Sound spec knows (captureIfNew m e) := by
  unfold Engine.captureIfNew
  split
  · exact ⟨h.admits, False.elim, False.elim, nofun⟩
  · exact h

theorem Sound.of_mayAnalyse (h : Sound spec knows e) (fresh : e.phase = .structureKnown)
    (meets : spec.Factorizes e.pattern m.values) (analysed : MayAnalyse e e') :
    Sound spec knows e' ∧ Steady e e' := by
  obtain ⟨session, workspace, diagnostics, rfl, called, -⟩ := analysed
  have early : ¬ e.phase.Analysed := by
    rw [fresh]
    exact id
  have late : ¬ e.phase = .factorized := by
    rw [fresh]
    nofun
  rcases called with rfl | ⟨iw, keep, rfl⟩
  · exact ⟨⟨h.admits, fun a => absurd a early, fun a => absurd a early, fun a => absurd a late⟩,
      { Steady.refl e with }⟩
  · exact ⟨⟨meets.admits_analyse iw keep h.admits, fun a => absurd a early,
      fun a => absurd a early, fun a => absurd a late⟩, { Steady.refl e with }⟩

theorem Sound.of_analyses (h : Sound spec knows e)
    (meets : spec.Factorizes e.pattern m.values) (analysed : Analyses e e') :
    Sound spec knows e' ∧ Steady e e' ∧ e'.phase.Waiting := by
  obtain ⟨iw, keep, result, workspace, answered, accepted, kept, long, rfl⟩ := analysed
  refine ⟨⟨meets.admits_analyse iw keep h.admits, fun _ => long, fun _ => ?_, nofun⟩,
    { Steady.refl e with }, trivial⟩
  have ready := meets.ready_analyse h.admits answered accepted
  rwa [← kept] at ready

/-- The analysis, if the structure still lacks one. -/
theorem Sound.after_analysis (h : Sound spec knows e) (captured : e.phase ≠ .uninitialized)
    (meets : e.phase = .structureKnown → spec.Factorizes e.pattern m.values) (solveIndex : Nat) :
    Ends (if e.phase = .structureKnown then analyse solveIndex else pure none) e
      (fun refused e' => Sound spec knows e' ∧ Steady e e' ∧ refused ≠ some .success ∧
        (refused = none → e'.phase.Analysed))
      (fun _ e' => Sound spec knows e' ∧ Steady e e') := by
  split
  · next fresh =>
    refine (ends_analyse solveIndex e).mono ?_ fun _ e' => h.of_mayAnalyse fresh (meets fresh)
    rintro (_ | outcome) e' analysed
    · obtain ⟨sound, steady, waiting⟩ := h.of_analyses (meets fresh) analysed
      exact ⟨sound, steady, nofun, fun _ => waiting.analysed⟩
    · obtain ⟨rfl, analysed⟩ := analysed
      obtain ⟨sound, steady⟩ := h.of_mayAnalyse fresh (meets fresh) analysed
      exact ⟨sound, steady, nofun, nofun⟩
  · refine ⟨h, .refl e, nofun, fun _ => ?_⟩
    revert captured
    cases hp : e.phase <;> simp_all [Phase.Analysed]

/-- `e'` comes from `e`, is analysed, and has taken note of the values of a matrix. -/
structure Noted (spec : KernelSpec α σ) (knows : Nat → List α → Prop) (m : MatrixView α)
    (e e' : Engine α σ) : Prop where
  sound : Sound spec knows e'
  steady : Steady e e'
  matrixTag : e'.matrixTag = m.tag
  analysed : e'.phase.Analysed
  current : e'.phase = .factorized → Current spec m e'

theorem Noted.trans (steady : Steady e e') (h : Noted spec knows m e' e'') :
    Noted spec knows m e e'' :=
  { h with steady := steady.trans h.steady }

theorem Sound.noteValues (h : Sound spec knows e) (analysed : e.phase.Analysed)
    (known : ∀ v, knows m.tag v ↔ v = m.values) : Noted spec knows m e (noteValues m e) := by
  unfold Engine.noteValues
  split
  · exact ⟨⟨h.admits, fun _ => h.capacity analysed, fun _ => h.ready analysed,
      fun late => absurd late e.phase.stale_ne_factorized⟩, { Steady.refl e with }, rfl,
      Phase.analysed_stale.2 analysed, fun late => absurd late e.phase.stale_ne_factorized⟩
  · next same =>
    have tag : e.matrixTag = m.tag := by
      simp only [MatrixView.hasChanged, bne_iff_ne, ne_eq, Decidable.not_not] at same
      exact same.symm
    refine ⟨h, .refl e, tag, analysed, fun late => ?_⟩
    obtain ⟨values, negative, knows, noted, factors⟩ := h.current late
    obtain rfl := (known values).1 (tag ▸ knows)
    exact ⟨late, tag, negative, noted, factors⟩

/-- The factorization, if the factors are missing or out of date. -/
theorem Noted.after_factorize (h : Noted spec knows m e e') (known : knows m.tag m.values)
    (meets : spec.Attempts e.pattern m.values) (fits : m.values.length ≤ e.nonzeros)
    (solveIndex : Nat) :
    Ends (if e'.phase = .factorized then pure none else factorize m solveIndex) e'
      (Prepares spec knows m e) (fun _ e'' => Sound spec knows e'' ∧ Steady e e'') := by
  split
  · next late => exact ⟨h.sound, h.steady, fun _ => h.current late, nofun⟩
  · next late =>
    have waiting : e'.phase.Waiting := by
      have analysed := h.analysed
      revert analysed late
      cases e'.phase <;> simp [Phase.Analysed, Phase.Waiting]
    have meets' : spec.Attempts e'.pattern m.values := h.steady.pattern ▸ meets
    refine ((Waits.refl h.sound waiting).after_factorize h.matrixTag known meets'
      (h.steady.nonzeros ▸ fits) solveIndex).mono (fun _ _ done => done.trans h.steady) ?_
    exact fun _ _ left => ⟨left.sound, h.steady.trans left.steady⟩

/-- The check of the inertia. -/
theorem Prepares.after_demand (h : Prepares spec knows m e none e') (demand : InertiaDemand)
    (solveIndex : Nat) :
    Ends (checkInertia demand solveIndex) e'
      (fun outcome e'' => Prepares spec knows m e outcome e'' ∧
        ∀ expected, outcome = none → demand = some expected → e''.negative = some expected)
      (fun _ e'' => Sound spec knows e'' ∧ Steady e e'') := by
  refine ends_checkInertia_of (fun met => ⟨h, fun expected _ => met expected⟩) fun expected _ _ => ?_
  unfold emitWrongInertia
  refine (ends_emit ..).mono ?_ ?_
  · rintro - _ ⟨diagnostics, rfl⟩
    exact ⟨⟨{ h.sound with }, { h.steady with }, nofun, nofun⟩, nofun⟩
  · rintro - _ rfl
    exact ⟨h.sound, h.steady⟩

/-- **Preparing keeps the notes true**, and what it has prepared are factors of the matrix. The
analysis does not matter where there has been one. -/
theorem ends_prepare (h : Sound spec knows e)
    (meets : spec.Attempts (captureIfNew m e).pattern m.values)
    (analyses : ¬ e.phase.Analysed → spec.Factorizes (captureIfNew m e).pattern m.values)
    (counted : m.values.length = m.nonzeros)
    (same : e.phase ≠ .uninitialized → m.nonzeros = e.nonzeros)
    (known : ∀ v, knows m.tag v ↔ v = m.values) (demand : InertiaDemand) (solveIndex : Nat) :
    Ends (prepare m demand solveIndex) e
      (fun outcome e' => Prepares spec knows m (captureIfNew m e) outcome e' ∧
        ∀ expected, outcome = none → demand = some expected → e'.negative = some expected)
      (fun _ e' => Sound spec knows e' ∧ Steady (captureIfNew m e) e') := by
  have fits := nonzeros_captureIfNew counted same
  have early : (captureIfNew m e).phase = .structureKnown →
      spec.Factorizes (captureIfNew m e).pattern m.values := by
    intro fresh
    refine analyses ?_
    by_cases new : e.phase = .uninitialized
    · rw [new]
      exact id
    · rw [captureIfNew_of_ne new] at fresh
      rw [fresh]
      exact id
  refine ends_prepare_by (Noted spec knows m (captureIfNew m e))
    (Prepares spec knows m (captureIfNew m e) none) ?_ (fun e₁ noted => ?_)
    fun e₂ prepares => prepares.after_demand demand solveIndex
  · refine ((h.captureIfNew m).after_analysis (captureIfNew_phase m e) early solveIndex).mono ?_
      fun _ _ h => h
    rintro (_ | outcome) e₁ ⟨h₁, steady, failed, analysed⟩
    · exact (h₁.noteValues (analysed rfl) known).trans steady
    · exact ⟨⟨h₁, steady, nofun, failed⟩, nofun⟩
  · refine (noted.after_factorize ((known _).2 rfl) meets (Nat.le_of_eq fits) solveIndex).mono ?_
      fun _ _ h => h
    rintro (_ | outcome) e₂ prepares
    · exact prepares
    · exact ⟨prepares, nofun⟩

/-! ## Solving -/

/-- `e'` comes from `e`, which has factors of a matrix, and has them still. -/
structure Keeps (spec : KernelSpec α σ) (knows : Nat → List α → Prop) (m : MatrixView α)
    (e e' : Engine α σ) : Prop where
  sound : Sound spec knows e'
  steady : Steady e e'
  current : Current spec m e'
  negative : e'.negative = e.negative

theorem Keeps.trans (h : Keeps spec knows m e e') (h' : Keeps spec knows m e' e'') :
    Keeps spec knows m e e'' :=
  ⟨h'.sound, h.steady.trans h'.steady, h'.current, h'.negative.trans h.negative⟩

theorem keeps_afterBacksolve (h : Sound spec knows e) (current : Current spec m e)
    (meets : spec.Backsolves) (rhs : DenseVector α) :
    Keeps spec knows m e (e.afterBacksolve rhs) := by
  obtain ⟨late, tag, negative, noted, factors⟩ := current
  have analysed : e.phase.Analysed := by
    rw [late]
    trivial
  have factors' := meets.holds rhs.entries h.admits factors
  have same : (e.afterBacksolve rhs).workspace.reals.length = e.workspace.reals.length :=
    Session.size_backsolve_a ..
  refine ⟨⟨meets.admits rhs.entries h.admits factors, fun _ => ?_,
    fun _ => meets.ready rhs.entries h.admits factors (h.ready analysed), fun _ => ?_⟩,
    { Steady.refl e with
      kernel := Session.kernel_backsolve ..
      controls := Session.controls_backsolve .. },
    ⟨late, tag, negative, noted, factors'⟩, rfl⟩
  · exact same ▸ h.capacity analysed
  · obtain ⟨values, negative, known, noted, factors⟩ := h.current late
    exact ⟨values, negative, known, noted, meets.holds rhs.entries h.admits factors⟩

theorem ends_solveOne (h : Sound spec knows e) (current : Current spec m e)
    (meets : spec.Backsolves) (solveIndex index : Nat) (rhs solution : DenseVector α) :
    Ends (solveOne solveIndex index rhs solution) e
      (fun solved e' => Keeps spec knows m e e' ∧
        ∀ x, solved = some x → spec.Solves e.pattern m.values rhs.entries x.entries)
      (fun _ => Keeps spec knows m e) := by
  have kept := keeps_afterBacksolve h current meets rhs
  unfold solveOne
  refine ends_callSolve (fun result answered => ?_) fun _ _ => kept
  split
  · refine (ends_emit ..).bind ?_ ?_
    · rintro - _ ⟨diagnostics, rfl⟩
      exact ⟨⟨{ kept.sound with }, { kept.steady with }, { kept.current with }, kept.negative⟩,
        nofun⟩
    · rintro - _ rfl
      exact kept
  · next x found =>
    obtain ⟨-, -, negative, -, factors⟩ := current
    cases written : solution.set x with
    | error cause => exact kept
    | ok y =>
      refine ⟨kept, ?_⟩
      rintro _ ⟨⟩
      rw [DenseVector.entries_set written]
      exact meets.solves h.admits factors answered found

/-- Solving for all right-hand sides keeps the factors, and each solution that is written before
the first failure is an answer of the kernel. -/
theorem backsolve_keeps (meets : spec.Backsolves) (solveIndex index : Nat)
    (rhs solutions : List (DenseVector α)) (e : Engine α σ) (h : Sound spec knows e)
    (current : Current spec m e) (paired : rhs.length = solutions.length) :
    Keeps spec knows m e (backsolve solveIndex index rhs solutions e).2 ∧
      ((backsolve solveIndex index rhs solutions e).1.result = .ok .success →
        List.Forall₂ (fun b x => spec.Solves e.pattern m.values b.entries x.entries) rhs
          (backsolve solveIndex index rhs solutions e).1.solutions) := by
  fun_induction backsolve solveIndex index rhs solutions e with
  | case1 index b more x solutions e fault after solved =>
    have step := ends_solveOne h current meets solveIndex index b x
    exact ⟨step.bad_of_exec solved, nofun⟩
  | case2 index b more x solutions e after solved =>
    have step := ends_solveOne h current meets solveIndex index b x
    exact ⟨(step.ok_of_exec solved).1, nofun⟩
  | case3 index b more x solutions e x' after solved answer last rest ih =>
    have step := ends_solveOne h current meets solveIndex index b x
    obtain ⟨kept, solves⟩ := step.ok_of_exec solved
    rw [rest] at ih
    obtain ⟨kept', solves'⟩ := ih kept.sound kept.current (Nat.succ.inj paired)
    rw [kept.steady.pattern] at solves'
    exact ⟨kept.trans kept', fun success => .cons (solves _ rfl) (solves' success)⟩
  | case4 rhs index solutions e unpaired =>
    refine ⟨⟨h, .refl e, current, rfl⟩, fun _ => ?_⟩
    match rhs, solutions, paired, unpaired with
    | [], [], _, _ => exact .nil
    | b :: more, x :: rest, _, unpaired => exact (unpaired b more x rest rfl rfl).elim

/-! ## A whole call -/

/-- What a call that is not rejected was checked for. -/
structure Accepted (e : Engine α σ) (m : MatrixView α) (rhs solutions : List (DenseVector α))
    (demand : InertiaDemand) : Prop where
  paired : rhs.length = solutions.length
  offered : demand.isSome → e.providesInertia
  sameDim : e.phase ≠ .uninitialized → (m.dim : Int) = e.dim
  sameCount : e.phase ≠ .uninitialized → m.nonzeros = e.nonzeros
  rhsDims : ∀ b ∈ rhs, b.dim = m.dim
  solutionDims : ∀ x ∈ solutions, x.dim = m.dim

omit [Scalar α] in
theorem dimFault?_eq_none {dim : Nat} {role : VectorRole} {vectors : List (DenseVector α)} :
    dimFault? dim role vectors = none ↔ ∀ v ∈ vectors, v.dim = dim := by
  simp only [dimFault?, Option.map_eq_none_iff, List.find?_eq_none]
  constructor
  · intro h v hv
    obtain ⟨i, hi, rfl⟩ := List.mem_iff_getElem.1 hv
    simpa using h (vectors[i], i) (by simp [List.mem_zipIdx_iff_getElem?])
  · rintro h ⟨v, i⟩ hv
    simpa using h v (List.fst_mem_of_mem_zipIdx hv)

theorem usageFault?_eq_none {rhs solutions : List (DenseVector α)} {demand : InertiaDemand} :
    e.usageFault? m rhs solutions demand = none ↔ Accepted e m rhs solutions demand := by
  unfold usageFault?
  constructor
  · intro h
    split at h
    · cases h
    split at h
    · cases h
    split at h
    · cases h
    next paired offered same =>
    rw [Option.or_eq_none_iff, dimFault?_eq_none, dimFault?_eq_none] at h
    exact {
      paired := by simpa using paired
      offered := by simpa using offered
      sameDim := fun captured => by
        simp only [not_and, not_or, Decidable.not_not] at same
        exact (same captured).1
      sameCount := fun captured => by
        simp only [not_and, not_or, Decidable.not_not] at same
        exact (same captured).2
      rhsDims := h.1
      solutionDims := h.2 }
  · rintro ⟨paired, offered, sameDim, sameCount, rhsDims, solutionDims⟩
    rw [if_neg (by simpa using paired), if_neg (by simpa using offered), if_neg,
      Option.or_eq_none_iff, dimFault?_eq_none, dimFault?_eq_none]
    · exact ⟨rhsDims, solutionDims⟩
    · rintro ⟨captured, other | other⟩
      · exact other (sameDim captured)
      · exact other (sameCount captured)

/-- The engine that a call starts to work with. -/
def captured (m : MatrixView α) (e : Engine α σ) : Engine α σ := captureIfNew m e.beginCall

theorem session_captured (m : MatrixView α) (e : Engine α σ) :
    (e.captured m).session = e.session := by
  unfold captured captureIfNew
  split <;> rfl

theorem tolerance_captured (m : MatrixView α) (e : Engine α σ) :
    (e.captured m).tolerance = e.tolerance := by
  unfold captured captureIfNew
  split <;> rfl

theorem solverId_captured (m : MatrixView α) (e : Engine α σ) :
    (e.captured m).solverId = e.solverId := by
  unfold captured captureIfNew
  split <;> rfl

theorem captured_of_new (new : e.phase = .uninitialized) (m : MatrixView α) :
    e.captured m = e.beginCall.captureStructure m := captureIfNew_of_eq (e := e.beginCall) new

/-- A structure is captured once. -/
theorem captured_of_known (known : e.phase ≠ .uninitialized) (m : MatrixView α) :
    e.captured m = e.beginCall := captureIfNew_of_ne (e := e.beginCall) known

/-- Nothing is captured where the structure is analysed. -/
theorem captured_of_analysed (analysed : e.phase.Analysed) (m : MatrixView α) :
    e.captured m = e.beginCall := by
  refine captured_of_known (fun new => ?_) m
  rw [new] at analysed
  exact analysed

theorem pattern_captured_iff (m : MatrixView α) (e : Engine α σ) :
    (e.captured m).pattern = .ofView m ↔ e.phase = .uninitialized ∨ e.pattern = .ofView m := by
  by_cases new : e.phase = .uninitialized
  · rw [captured_of_new new]
    exact ⟨fun _ => .inl new, fun _ => rfl⟩
  · rw [captured_of_known new]
    exact ⟨.inr, fun h => h.resolve_left new⟩

theorem multiSolve_of_rejected {rhs solutions : List (DenseVector α)} {demand : InertiaDemand}
    {cause : UsageError} (rejected : e.usageFault? m rhs solutions demand = some cause) :
    e.multiSolve m rhs solutions demand = (⟨.error (.usage cause), solutions⟩, e) := by
  simp only [multiSolve, rejected]

/-- A call that comes to an outcome was not rejected. -/
theorem accepted_of_ok {rhs solutions : List (DenseVector α)} {demand : InertiaDemand}
    {outcome : Outcome} (ended : (e.multiSolve m rhs solutions demand).1.result = .ok outcome) :
    e.usageFault? m rhs solutions demand = none := by
  cases used : e.usageFault? m rhs solutions demand with
  | none => rfl
  | some cause =>
    rw [multiSolve_of_rejected used] at ended
    cases ended

/-- How a call ends that keeps the notes true: what a successful call writes are answers of the
kernel from factors of the matrix, and the inertia is the one that was demanded. -/
structure Answered (spec : KernelSpec α σ) (knows : Nat → List α → Prop) (m : MatrixView α)
    (rhs : List (DenseVector α)) (demand : InertiaDemand) (e : Engine α σ) (answer : SolveAnswer α)
    (e' : Engine α σ) : Prop where
  sound : Sound spec knows e'
  steady : Steady e e'
  success : answer.result = .ok .success → Current spec m e' ∧
    (∀ expected, demand = some expected → e'.negative = some expected) ∧
    List.Forall₂ (fun b x => spec.Solves e.pattern m.values b.entries x.entries) rhs
      answer.solutions

/-- **A call keeps the notes true.** -/
theorem multiSolve_sound (h : Sound spec knows e) {rhs solutions : List (DenseVector α)}
    {demand : InertiaDemand} (accepted : Accepted e m rhs solutions demand)
    (meets : spec.Factorizes (e.captured m).pattern m.values) (backs : spec.Backsolves)
    (counted : m.values.length = m.nonzeros) (known : ∀ v, knows m.tag v ↔ v = m.values) :
    Answered spec knows m rhs demand (e.captured m) (e.multiSolve m rhs solutions demand).1
      (e.multiSolve m rhs solutions demand).2 := by
  have begun : Sound spec knows e.beginCall := { h with }
  have prepared := ends_prepare begun meets.toAttempts (fun _ => meets) counted accepted.sameCount
    known demand e.solveCount
  refine multiSolve_of_prepare (fun e₁ => Prepares spec knows m (e.captured m) none e₁ ∧
      ∀ expected, demand = some expected → e₁.negative = some expected)
    (Answered spec knows m rhs demand (e.captured m)) (usageFault?_eq_none.2 accepted) ?_ ?_
  · refine prepared.mono ?_ fun _ _ left => ⟨left.1, left.2, nofun⟩
    rintro (_ | outcome) e₁ ⟨prepares, demanded⟩
    · exact ⟨prepares, fun expected => demanded expected rfl⟩
    · exact ⟨prepares.sound, prepares.steady, fun success =>
        absurd (congrArg some (Except.ok.inj success)) prepares.failed⟩
  · rintro e₁ ⟨prepares, demanded⟩
    obtain ⟨kept, solves⟩ := backsolve_keeps backs e.solveCount 0 rhs solutions e₁ prepares.sound
      (prepares.current rfl) accepted.paired
    rw [prepares.steady.pattern] at solves
    exact ⟨kept.sound, prepares.steady.trans kept.steady, fun success => ⟨kept.current,
      fun expected h => kept.negative.trans (demanded expected h), solves success⟩⟩

end Engine

end SymSolve
