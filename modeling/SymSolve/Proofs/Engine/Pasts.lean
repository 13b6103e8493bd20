import SymSolve.Kernel.Recorded
import SymSolve.Proofs.Engine.Course

/-!
# Engines with different pasts

Two engines can hold the same structure, notes and buffers and yet differ in what they did before:
`Engine.withPast` gives an engine another past. Its calls count on from those of the past, the
record and the reports stand after those of the past, and the options are the ones it was made
with.

If the kernel keeps nothing in mind (`Kernel.Stateless`), a past has no part in what a step does.
`Agree` says this of one step, run at both engines: the values are the same, and so are the
engines, up to the past. There is one rule for each way of putting steps together.

**Theorem (`agree_multiSolve`).** A call of either engine gives the same answer, and the engines
stay alike.
-/

namespace SymSolve

/-- What the kernel answers and leaves in the buffers does not depend on its state. -/
structure Kernel.Stateless {α σ : Type} (k : Kernel α σ) : Prop where
  analyse : ∀ {iwLength keepLength : Nat} (s s' : σ) (p : Pattern) (iw : Vector Int iwLength)
    (keep : Vector Int keepLength) (controls : Controls α),
    k.analyse s p iw keep controls =
      { k.analyse s' p iw keep controls with state := (k.analyse s p iw keep controls).state }
  factorize : ∀ {aLength iwLength keepLength : Nat} (s s' : σ) (p : Pattern)
    (a : Vector α aLength) (iw : Vector Int iwLength) (keep : Vector Int keepLength)
    (controls : Controls α),
    k.factorize s p a iw keep controls =
      { k.factorize s' p a iw keep controls with
        state := (k.factorize s p a iw keep controls).state }
  solve : ∀ {aLength iwLength rhsLength : Nat} (s s' : σ) (dim : Int) (a : Vector α aLength)
    (iw : Vector Int iwLength) (rhs : Vector α rhsLength),
    k.solve s dim a iw rhs =
      { k.solve s' dim a iw rhs with state := (k.solve s dim a iw rhs).state }

/-- A kernel without a state keeps nothing in mind. -/
theorem Kernel.Stateless.of_subsingleton {α σ : Type} [Subsingleton σ] (k : Kernel α σ) :
    k.Stateless where
  analyse s s' p iw keep controls := by
    rw [Subsingleton.elim s s']
  factorize s s' p a iw keep controls := by
    rw [Subsingleton.elim s s']
  solve s s' dim a iw rhs := by
    rw [Subsingleton.elim s s']

/-- The same event, counted on from `solves` calls. -/
def Event.later {α : Type} (solves : Nat) (event : Event α) : Event α :=
  { event with solveIndex := event.solveIndex.map (solves + ·) }

/-- The same attempt, counted on from `solves` calls. -/
def AttemptRecord.later {α : Type} (solves : Nat) (r : AttemptRecord α) : AttemptRecord α :=
  { r with solveIndex := solves + r.solveIndex }

theorem Event.isNone_later {α : Type} (solves : Nat) (event : Event α) :
    (event.later solves).solveIndex.isNone = event.solveIndex.isNone := by
  cases h : event.solveIndex <;> simp [later, h]

theorem Event.later_of_isNone {α : Type} (solves : Nat) {event : Event α}
    (h : event.solveIndex = none) : event.later solves = event := by
  unfold later
  rw [h, Option.map_none, ← h]

/-! ## Sessions -/

namespace Session

variable {α σ : Type} {k : Kernel α σ} {s : Session α (Recorded α σ)}

/-- The session after earlier calls that left the kernel in some state. -/
def withPast (s : Session α (Recorded α σ)) (calls : List (KernelCall α)) (state : σ) :
    Session α (Recorded α σ) :=
  { s with state := ⟨state, calls ++ s.state.calls⟩ }

theorem analyse_withPast (stateless : k.Stateless) (recorded : s.kernel = k.recorded)
    (calls : List (KernelCall α)) (state : σ) (p : Pattern) (iw keep : Array Int) :
    ∃ state', (s.withPast calls state).analyse p iw keep =
      { s.analyse p iw keep with
        session := (s.analyse p iw keep).session.withPast calls state' } := by
  have same := stateless.analyse state s.state.state p ⟨iw, rfl⟩ ⟨keep, rfl⟩ s.controls
  refine ⟨(k.analyse state p ⟨iw, rfl⟩ ⟨keep, rfl⟩ s.controls).state, ?_⟩
  simp only [analyse, withPast, recorded, Kernel.recorded]
  rw [same]
  simp only [List.append_assoc]

theorem factorize_withPast (stateless : k.Stateless) (recorded : s.kernel = k.recorded)
    (calls : List (KernelCall α)) (state : σ) (p : Pattern) (a : Array α) (iw keep : Array Int) :
    ∃ state', (s.withPast calls state).factorize p a iw keep =
      { s.factorize p a iw keep with
        session := (s.factorize p a iw keep).session.withPast calls state' } := by
  have same := stateless.factorize state s.state.state p ⟨a, rfl⟩ ⟨iw, rfl⟩ ⟨keep, rfl⟩ s.controls
  refine ⟨(k.factorize state p ⟨a, rfl⟩ ⟨iw, rfl⟩ ⟨keep, rfl⟩ s.controls).state, ?_⟩
  simp only [factorize, withPast, recorded, Kernel.recorded]
  rw [same]
  simp only [List.append_assoc]

theorem backsolve_withPast (stateless : k.Stateless) (recorded : s.kernel = k.recorded)
    (calls : List (KernelCall α)) (state : σ) (dim : Int) (rhs : List α) (a : Array α)
    (iw : Array Int) :
    ∃ state', (s.withPast calls state).backsolve dim rhs a iw =
      { s.backsolve dim rhs a iw with
        session := (s.backsolve dim rhs a iw).session.withPast calls state' } := by
  unfold backsolve
  split
  · have same := stateless.solve state s.state.state dim ⟨a, rfl⟩ ⟨iw, rfl⟩
      (⟨rhs.toArray, rfl⟩ : Vector α _)
    refine ⟨(k.solve state dim ⟨a, rfl⟩ ⟨iw, rfl⟩ (⟨rhs.toArray, rfl⟩ : Vector α _)).state, ?_⟩
    simp only [withPast, recorded, Kernel.recorded]
    rw [same]
    simp only [List.append_assoc]
  · exact ⟨state, rfl⟩

end Session

/-! ## Engines -/

/-- What an engine has behind it: the tolerance it was made with, the source of its options, the
calls of its kernel, its calls and its factorizations, and what it still tells of them. -/
structure Past (α : Type) where
  tolerance : α
  source : OptionsSource
  calls : List (KernelCall α)
  solves : Nat
  factorizations : Nat
  diagnostics : List (Event α)
  trace : List (AttemptRecord α)

/-- What is left of the past once a call has begun. -/
def Past.begun {α : Type} (past : Past α) : Past α :=
  { past with
    diagnostics := past.diagnostics.filter fun event => event.solveIndex.isNone
    trace := [] }

namespace Engine

section Scalar

variable {α σ β γ : Type} [Scalar α]

/-- The engine with another past, which has left the kernel in some state. -/
def withPast (n : Engine α (Recorded α σ)) (past : Past α) (state : σ)
    (valid : { n.options.toSettings with tolerance := past.tolerance }.fault? = none) :
    Engine α (Recorded α σ) :=
  { n with
    options := {
      toSettings := { n.options.toSettings with tolerance := past.tolerance }
      source := past.source
      valid }
    session := n.session.withPast past.calls state
    solveCount := past.solves + n.solveCount
    factorizationCount := past.factorizations + n.factorizationCount
    diagnostics := past.diagnostics ++ n.diagnostics.map (Event.later past.solves)
    trace := past.trace ++ n.trace.map (AttemptRecord.later past.solves) }

/-- The engines `e` and `n` over the kernel `k` differ by the past of `e` alone. -/
structure Alike (k : Kernel α σ) (past : Past α) (e n : Engine α (Recorded α σ)) : Prop where
  same : ∃ state valid, e = n.withPast past state valid
  kernel : n.session.kernel = k.recorded
  named : n.solverId ≠ ""

variable {k : Kernel α σ} {past : Past α} {e e' n n' : Engine α (Recorded α σ)}
variable {step step' : EngineM α (Recorded α σ) β} {next next' : β → EngineM α (Recorded α σ) γ}

/-- One step at the engine `e` and one at the engine `n` agree in their values, and the engines
are alike after them. -/
def Agree (k : Kernel α σ) (past : Past α) (step : EngineM α (Recorded α σ) β)
    (e : Engine α (Recorded α σ)) (step' : EngineM α (Recorded α σ) β)
    (n : Engine α (Recorded α σ)) : Prop :=
  (exec step e).1 = (exec step' n).1 ∧ Alike k past (exec step e).2 (exec step' n).2

/-! ### Steps put together -/

theorem agree_of_eq {r : Except Fault β} (he : exec step e = (r, e')) (hn : exec step' n = (r, n'))
    (h : Alike k past e' n') : Agree k past step e step' n := by
  rw [Agree, he, hn]
  exact ⟨rfl, h⟩

/-- What the step at the engine with the past comes to. -/
theorem Agree.run (h : Agree k past step e step' n) {r : Except Fault β}
    (hn : exec step' n = (r, n')) : ∃ e', exec step e = (r, e') ∧ Alike k past e' n' := by
  obtain ⟨same, alike⟩ := h
  rw [hn] at same alike
  exact ⟨(exec step e).2, Prod.ext same rfl, alike⟩

/-- Two steps in a row. -/
theorem Agree.bind (h : Agree k past step e step' n)
    (hn : ∀ b e' n', Alike k past e' n' → Agree k past (next b) e' (next' b) n') :
    Agree k past (step >>= next) e (step' >>= next') n := by
  obtain ⟨same, alike⟩ := h
  unfold Agree
  rw [exec_bind, exec_bind]
  rcases he : exec step e with ⟨fault | b, e'⟩ <;> rcases hn' : exec step' n with ⟨fault' | b', n'⟩ <;>
    rw [he, hn'] at same alike <;> cases same
  · exact ⟨rfl, alike⟩
  · exact hn b e' n' alike

theorem agree_pure (h : Alike k past e n) (b : β) : Agree k past (pure b) e (pure b) n := ⟨rfl, h⟩

theorem agree_get {next next' : Engine α (Recorded α σ) → EngineM α (Recorded α σ) γ}
    (h : Agree k past (next e) e (next' n) n) : Agree k past (get >>= next) e (get >>= next') n := by
  unfold Agree at *
  rwa [exec_bind, exec_get, exec_bind, exec_get]

theorem agree_set (h : Alike k past e' n') : Agree k past (set e') e (set n') n := ⟨rfl, h⟩

theorem agree_modify {f g : Engine α (Recorded α σ) → Engine α (Recorded α σ)}
    (h : Alike k past (f e) (g n)) : Agree k past (modify f) e (modify g) n := ⟨rfl, h⟩

theorem agree_orFault {ε : Type} (fault : ε → Fault) (r : Except ε β) (h : Alike k past e n) :
    Agree k past (orFault fault r) e (orFault fault r) n := by
  unfold Agree
  rw [exec_orFault, exec_orFault]
  exact ⟨rfl, h⟩

theorem agree_ite {c : Prop} [Decidable c] {other other' : EngineM α (Recorded α σ) β}
    (h : c → Agree k past step e step' n) (h' : ¬ c → Agree k past other e other' n) :
    Agree k past (if c then step else other) e (if c then step' else other') n := by
  split
  · next yes => exact h yes
  · next no => exact h' no

/-- A step that is one of two, and another one after it. -/
theorem agree_ite_bind {c : Prop} [Decidable c] {other other' : EngineM α (Recorded α σ) β}
    (h : c → Agree k past step e step' n) (h' : ¬ c → Agree k past other e other' n)
    (hn : ∀ b e' n', Alike k past e' n' → Agree k past (next b) e' (next' b) n') :
    Agree k past (if c then step >>= next else other >>= next) e
      (if c then step' >>= next' else other' >>= next') n :=
  agree_ite (fun yes => (h yes).bind hn) fun no => (h' no).bind hn

/-! ### Reports and buffers -/

theorem agree_emit {code message : String} {i : Nat} {attemptIndex : Option Nat}
    {fields : List (String × Payload α)} (severity : Severity)
    (graded : (Catalog.canonical.find? code).map CatalogEntry.severity = some severity)
    (text : message ≠ "") (plain : ∀ field ∈ fields, ∃ v, field.2.normalize = .ok v)
    (h : Alike k past e n) :
    Agree k past (emit code message (some (past.solves + i)) attemptIndex fields) e
      (emit code message (some i) attemptIndex fields) n := by
  obtain ⟨⟨state, valid, rfl⟩, kernel, named⟩ := h
  obtain ⟨entry, witness, -, -, run⟩ := exec_emit_plain (σ := Recorded α σ) graded text plain
  refine agree_of_eq (run _ _ named) (run _ _ named) ⟨⟨state, valid, ?_⟩, kernel, named⟩
  simp [withPast, Event.later, Event.ofEntry]

/-- A report that belongs to no call stays the same. -/
theorem agree_emit_aside (code message : String) (fields : List (String × Payload α))
    (h : Alike k past e n) :
    Agree k past (emit code message none none fields) e (emit code message none none fields) n := by
  have added := ends_emit_event code message none none fields n
  obtain ⟨⟨state, valid, rfl⟩, kernel, named⟩ := h
  unfold emit at added ⊢
  rw [ends_get] at added
  refine agree_get ?_
  dsimp only [withPast] at added ⊢
  split at added
  · exact ⟨rfl, ⟨state, valid, rfl⟩, kernel, named⟩
  · next event _ =>
    obtain ⟨_, same, -, unnumbered, -⟩ := added
    refine agree_set ⟨⟨state, valid, ?_⟩, kernel, named⟩
    obtain rfl := List.singleton_inj.1 (List.append_cancel_left (congrArg Engine.diagnostics same))
    simp [withPast, Event.later_of_isNone past.solves unnumbered]

theorem agree_ensureIntegers (h : Alike k past e n) (length : Int) :
    Agree k past (ensureIntegers length) e (ensureIntegers length) n := by
  obtain ⟨⟨state, valid, rfl⟩, kernel, named⟩ := h
  refine agree_get ((agree_orFault _ _ ⟨⟨state, valid, rfl⟩, kernel, named⟩).bind ?_)
  rintro b _ n' ⟨⟨state', valid', rfl⟩, kernel', named'⟩
  exact agree_set ⟨⟨state, valid, rfl⟩, kernel, named⟩

theorem agree_ensureReals (h : Alike k past e n) (length : Int) :
    Agree k past (ensureReals length) e (ensureReals length) n := by
  obtain ⟨⟨state, valid, rfl⟩, kernel, named⟩ := h
  refine agree_get ((agree_orFault _ _ ⟨⟨state, valid, rfl⟩, kernel, named⟩).bind ?_)
  rintro b _ n' -
  exact agree_set ⟨⟨state, valid, rfl⟩, kernel, named⟩

theorem agree_ensureKeep (h : Alike k past e n) (length : Int) :
    Agree k past (ensureKeep length) e (ensureKeep length) n := by
  obtain ⟨⟨state, valid, rfl⟩, kernel, named⟩ := h
  refine agree_get ((agree_orFault _ _ ⟨⟨state, valid, rfl⟩, kernel, named⟩).bind ?_)
  rintro b _ n' -
  exact agree_set ⟨⟨state, valid, rfl⟩, kernel, named⟩

theorem agree_emitReallocated {cause : String} {i : Nat} {attemptIndex : Option Nat}
    (before after : Workspace α) {more : List (String × Payload α)}
    (plain : ∀ field ∈ more, ∃ v, field.2.normalize = .ok v) (h : Alike k past e n) :
    Agree k past (emitReallocated cause (past.solves + i) attemptIndex before after more) e
      (emitReallocated cause i attemptIndex before after more) n := by
  unfold emitReallocated
  refine agree_emit .warning (by decide +kernel) (by simp) ?_ h
  simp only [List.cons_append, List.nil_append, List.forall_mem_cons]
  exact ⟨⟨_, rfl⟩, ⟨_, rfl⟩, plain⟩

/-! ### Analysis -/

theorem agree_callAnalysis (stateless : k.Stateless) (h : Alike k past e n) :
    Agree k past callAnalysis e callAnalysis n := by
  obtain ⟨⟨state, valid, rfl⟩, kernel, named⟩ := h
  obtain ⟨state', same⟩ := Session.analyse_withPast stateless kernel past.calls state n.pattern
    n.workspace.integers.words n.workspace.keep.words
  refine agree_get ?_
  have same : (n.withPast past state valid).session.analyse (n.withPast past state valid).pattern
      (n.withPast past state valid).workspace.integers.words
      (n.withPast past state valid).workspace.keep.words = _ := same
  simp only [same]
  refine (agree_set ?_).bind fun _ _ _ h => agree_orFault _ _ h
  exact ⟨⟨state', valid, rfl⟩, kernel, named⟩

theorem agree_analyse (stateless : k.Stateless) (h : Alike k past e n) (i : Nat) :
    Agree k past (analyse (past.solves + i)) e (analyse i) n := by
  obtain ⟨⟨state, valid, rfl⟩, kernel, named⟩ := h
  have h : Alike k past (n.withPast past state valid) n := ⟨⟨state, valid, rfl⟩, kernel, named⟩
  refine agree_get ((agree_orFault _ _ h).bind fun length e₁ n₁ h₁ => ?_)
  refine (agree_ensureIntegers h₁ length).bind fun _ e₂ n₂ h₂ => ?_
  refine (agree_ensureKeep h₂ _).bind fun _ e₃ n₃ h₃ => ?_
  refine (agree_callAnalysis stateless h₃).bind fun result e₄ n₄ h₄ => ?_
  refine agree_ite (fun _ => ?_) fun _ => ?_
  · refine (agree_orFault _ _ h₄).bind fun _ e₅ n₅ h₅ => ?_
    refine (agree_ensureIntegers h₅ _).bind fun _ e₆ n₆ h₆ => ?_
    refine (agree_orFault _ _ h₆).bind fun _ e₇ n₇ h₇ => ?_
    refine (agree_ensureReals h₇ _).bind fun _ e₈ n₈ h₈ => ?_
    obtain ⟨⟨state', valid', rfl⟩, kernel', named'⟩ := h₈
    exact Agree.bind (agree_modify ⟨⟨state', valid', rfl⟩, kernel', named'⟩) fun _ _ _ h =>
      agree_pure h _
  · exact (agree_emit .error (by decide +kernel) (by simp [toString]) (by simp [Payload.normalize])
      h₄).bind fun _ _ _ h => agree_pure h _

/-! ### Growth -/

theorem agree_growReals {e₁ n₁ : Engine α (Recorded α σ)} (h₁ : Alike k past e₁ n₁)
    (h : Alike k past e n) : Agree k past (growReals e₁) e (growReals n₁) n := by
  obtain ⟨⟨state, valid, rfl⟩, -, -⟩ := h₁
  refine agree_ite (fun _ => ?_) fun _ => agree_pure h _
  exact (agree_orFault _ _ h).bind fun _ _ _ h => agree_ensureReals h _

theorem agree_growIntegers {e₁ n₁ : Engine α (Recorded α σ)} (h₁ : Alike k past e₁ n₁)
    (h : Alike k past e n) : Agree k past (growIntegers e₁) e (growIntegers n₁) n := by
  obtain ⟨⟨state, valid, rfl⟩, -, -⟩ := h₁
  refine agree_ite (fun _ => ?_) fun _ => agree_pure h _
  exact (agree_orFault _ _ h).bind fun _ _ _ h => agree_ensureIntegers h _

theorem agree_settleGrowth (h : Alike k past e n) (before : Workspace α) (i : Nat) :
    Agree k past (settleGrowth (past.solves + i) before) e (settleGrowth i before) n := by
  obtain ⟨⟨state, valid, rfl⟩, kernel, named⟩ := h
  refine Agree.bind (agree_modify ⟨⟨state, valid, rfl⟩, kernel, named⟩) ?_
  rintro - e' n' ⟨⟨state, valid, rfl⟩, kernel, named⟩
  refine agree_get ?_
  exact agree_emitReallocated _ _ (by simp) ⟨⟨state, valid, rfl⟩, kernel, named⟩

theorem agree_applyPendingGrowth (h : Alike k past e n) (i : Nat) :
    Agree k past (applyPendingGrowth (past.solves + i)) e (applyPendingGrowth i) n := by
  rw [applyPendingGrowth_eq, applyPendingGrowth_eq]
  refine agree_get ?_
  have growth := agree_growReals h h
  obtain ⟨⟨state, valid, rfl⟩, kernel, named⟩ := h
  have h : Alike k past (n.withPast past state valid) n := ⟨⟨state, valid, rfl⟩, kernel, named⟩
  refine agree_ite (fun _ => ?_) fun _ => agree_pure h _
  exact growth.bind fun _ _ _ h₁ => (agree_growIntegers h h₁).bind fun _ _ _ h₂ =>
    agree_settleGrowth h₂ _ i

theorem agree_scheduleGrowth (h : Alike k past e n) (result : FactorizationResult) (i j : Nat) :
    Agree k past (scheduleGrowth result (past.solves + i) j) e (scheduleGrowth result i j) n := by
  obtain ⟨⟨state, valid, rfl⟩, kernel, named⟩ := h
  refine agree_get (agree_ite (fun _ => ?_) fun _ => agree_pure ⟨⟨state, valid, rfl⟩, kernel, named⟩ _)
  refine (agree_set ?_).bind fun _ _ _ h => ?_
  · exact ⟨⟨state, valid, rfl⟩, kernel, named⟩
  · exact agree_emit .warning (by decide +kernel) (by simp) (by simp [Payload.normalize]) h

/-! ### Attempts -/

theorem agree_relieve (h : Alike k past e n) (result : FactorizationResult) (required : Requirement)
    (lengths : Nat × Nat) (i j : Nat) :
    Agree k past (relieve result required lengths (past.solves + i) j) e
      (relieve result required lengths i j) n := by
  obtain ⟨⟨state, valid, rfl⟩, kernel, named⟩ := h
  refine agree_get ((agree_ensureIntegers ⟨⟨state, valid, rfl⟩, kernel, named⟩ _).bind
    fun _ e₁ n₁ h₁ => (agree_ensureReals h₁ _).bind fun _ e₂ n₂ h₂ => agree_get ?_)
  obtain ⟨⟨state, valid, rfl⟩, kernel, named⟩ := h₂
  exact agree_emitReallocated _ _ (by simp [Payload.normalize])
    ⟨⟨state, valid, rfl⟩, kernel, named⟩

theorem agree_refuseShortage (h : Alike k past e n) (result : FactorizationResult)
    (short : WorkspaceKind) (required : Requirement) (i j : Nat) :
    Agree k past (refuseShortage result short required (past.solves + i) j) e
      (refuseShortage result short required i j) n := by
  obtain ⟨⟨state, valid, rfl⟩, kernel, named⟩ := h
  refine agree_get ((agree_set ?_).bind fun _ _ _ h => ?_)
  · exact ⟨⟨state, valid, rfl⟩, kernel, named⟩
  · exact agree_emit .error (by decide +kernel) (by simp) (by simp [Payload.normalize]) h

theorem agree_attempt (stateless : k.Stateless) (h : Alike k past e n) (m : MatrixView α)
    (i j : Nat) :
    (attempt m (past.solves + i) j e).1 = (attempt m i j n).1 ∧
      Alike k past (attempt m (past.solves + i) j e).2 (attempt m i j n).2 := by
  obtain ⟨⟨state, valid, rfl⟩, kernel, named⟩ := h
  unfold attempt
  have same : (n.withPast past state valid).workspace = n.workspace := rfl
  rw [same]
  cases m.fill n.workspace.reals.words with
  | error cause => exact ⟨rfl, ⟨state, valid, rfl⟩, kernel, named⟩
  | ok filled =>
    obtain ⟨state', same⟩ := Session.factorize_withPast stateless kernel past.calls state n.pattern
      filled n.workspace.integers.words n.workspace.keep.words
    have same : (n.withPast past state valid).session.factorize
      (n.withPast past state valid).pattern filled n.workspace.integers.words
      n.workspace.keep.words = _ := same
    dsimp only
    rw [same]
    dsimp only
    cases (n.session.factorize n.pattern filled n.workspace.integers.words
      n.workspace.keep.words).result with
    | error cause => exact ⟨rfl, ⟨state', valid, rfl⟩, kernel, named⟩
    | ok result =>
      refine ⟨rfl, ⟨state', valid, ?_⟩, kernel, named⟩
      simp [recordAttempt, withPast, AttemptRecord.later, Nat.add_assoc]

theorem Alike.workspace (h : Alike k past e n) : e.workspace = n.workspace := by
  obtain ⟨⟨state, valid, rfl⟩, -, -⟩ := h
  rfl

theorem Alike.phase (h : Alike k past e n) : e.phase = n.phase := by
  obtain ⟨⟨state, valid, rfl⟩, -, -⟩ := h
  rfl

theorem Alike.negative (h : Alike k past e n) : e.negative = n.negative := by
  obtain ⟨⟨state, valid, rfl⟩, -, -⟩ := h
  rfl

theorem Alike.growthFactor (h : Alike k past e n) :
    e.options.growthFactor = n.options.growthFactor := by
  obtain ⟨⟨state, valid, rfl⟩, -, -⟩ := h
  rfl

theorem agree_attempts (stateless : k.Stateless) (m : MatrixView α) (i j : Nat)
    (n : Engine α (Recorded α σ)) : ∀ e, Alike k past e n →
      (attempts m (past.solves + i) j e).1 = (attempts m i j n).1 ∧
        Alike k past (attempts m (past.solves + i) j e).2 (attempts m i j n).2 := by
  -- along the attempts of `n`: `e` is alike after each of them, so that it is asked for the same
  fun_induction attempts m i j n with
  | case1 j n tried fault failed =>
    intro e h
    obtain ⟨same, alike⟩ := agree_attempt stateless h m i j
    rw [attempts]
    simp only [same.trans failed]
    exact ⟨trivial, alike⟩
  | case2 j n tried result answered asked =>
    intro e h
    obtain ⟨same, alike⟩ := agree_attempt stateless h m i j
    rw [attempts]
    simp only [same.trans answered, asked]
    exact ⟨trivial, alike⟩
  | case3 j n tried result answered short required asked before cause unbounded =>
    intro e h
    obtain ⟨same, alike⟩ := agree_attempt stateless h m i j
    rw [attempts]
    simp only [same.trans answered, asked, alike.workspace, alike.growthFactor]
    rw [show (attempt m i j n).2.workspace.relief _ _ _ = _ from unbounded]
    exact ⟨rfl, alike⟩
  | case4 j n tried result answered short required asked before lengths bounded missing enough fault
      after relieved =>
    intro e h
    obtain ⟨same, alike⟩ := agree_attempt stateless h m i j
    obtain ⟨e', run, alike'⟩ := (agree_relieve alike result required enough i j).run relieved
    rw [attempts]
    simp only [same.trans answered, asked, alike.workspace, alike.growthFactor]
    rw [show (attempt m i j n).2.workspace.relief _ _ _ = _ from bounded]
    dsimp only
    rw [if_pos missing]
    split
    · next run' => cases run.symm.trans run'; exact ⟨rfl, alike'⟩
    · next run' => cases run.symm.trans run'
  | case5 j n tried result answered short required asked before lengths bounded missing enough after
      relieved ih =>
    intro e h
    obtain ⟨same, alike⟩ := agree_attempt stateless h m i j
    obtain ⟨e', run, alike'⟩ := (agree_relieve alike result required enough i j).run relieved
    rw [attempts]
    simp only [same.trans answered, asked, alike.workspace, alike.growthFactor]
    rw [show (attempt m i j n).2.workspace.relief _ _ _ = _ from bounded]
    dsimp only
    rw [if_pos missing]
    split
    · next run' => cases run.symm.trans run'
    · next run' => cases run.symm.trans run'; exact ih e' alike'
  | case6 j n tried result answered short required asked before lengths bounded present refused =>
    intro e h
    obtain ⟨same, alike⟩ := agree_attempt stateless h m i j
    obtain ⟨told, alike'⟩ := agree_refuseShortage alike result short required i j
    rw [attempts]
    simp only [same.trans answered, asked, alike.workspace, alike.growthFactor]
    rw [show (attempt m i j n).2.workspace.relief _ _ _ = _ from bounded]
    dsimp only
    rw [if_neg present]
    exact ⟨congrArg (Except.map fun _ => none) told, alike'⟩

theorem agree_conclude (h : Alike k past e n) (result : FactorizationResult) (i j : Nat) :
    Agree k past (conclude result (past.solves + i) j) e (conclude result i j) n := by
  obtain ⟨⟨state, valid, rfl⟩, kernel, named⟩ := h
  refine agree_get ?_
  cases result.verdict
  case success =>
    refine (agree_set ?_).bind fun _ _ _ h => (agree_scheduleGrowth h result i j).bind ?_
    · exact ⟨⟨state, valid, rfl⟩, kernel, named⟩
    · rintro - e' n' ⟨⟨state, valid, rfl⟩, kernel, named⟩
      exact Agree.bind (agree_modify ⟨⟨state, valid, rfl⟩, kernel, named⟩) fun _ _ _ h =>
        agree_pure h _
  case singular =>
    refine (agree_set ?_).bind fun _ _ _ h => (agree_emit .error (by decide +kernel)
      (by simp [toString]) (by simp [Payload.normalize]) h).bind fun _ _ _ h => agree_pure h _
    exact ⟨⟨state, valid, rfl⟩, kernel, named⟩
  all_goals
    refine (agree_set ?_).bind fun _ _ _ h => (agree_emit .error (by decide +kernel)
      (by simp [toString]) (by simp [Payload.normalize]) h).bind fun _ _ _ h => agree_pure h _
    exact ⟨⟨state, valid, rfl⟩, kernel, named⟩

theorem agree_factorize (stateless : k.Stateless) (h : Alike k past e n) (m : MatrixView α)
    (i : Nat) : Agree k past (factorize m (past.solves + i)) e (factorize m i) n := by
  refine (agree_applyPendingGrowth h i).bind fun _ e₁ n₁ h₁ => ?_
  have attempted : Agree k past (ExceptT.mk (attempts m (past.solves + i) 0)) e₁
      (ExceptT.mk (attempts m i 0)) n₁ := agree_attempts stateless m i 0 n₁ e₁ h₁
  refine attempted.bind fun stopped e₂ n₂ h₂ => ?_
  rcases stopped with _ | ⟨result, j⟩
  · exact agree_pure h₂ _
  · exact agree_conclude h₂ result i j

/-! ### Preparing -/

theorem Alike.captureIfNew (h : Alike k past e n) (m : MatrixView α) :
    Alike k past (captureIfNew m e) (captureIfNew m n) := by
  obtain ⟨⟨state, valid, rfl⟩, kernel, named⟩ := h
  have same : (n.withPast past state valid).phase = n.phase := rfl
  unfold Engine.captureIfNew
  rw [same]
  split <;> exact ⟨⟨state, valid, rfl⟩, kernel, named⟩

theorem Alike.noteValues (h : Alike k past e n) (m : MatrixView α) :
    Alike k past (noteValues m e) (noteValues m n) := by
  obtain ⟨⟨state, valid, rfl⟩, kernel, named⟩ := h
  have same : (n.withPast past state valid).matrixTag = n.matrixTag := rfl
  unfold Engine.noteValues
  rw [same]
  split <;> exact ⟨⟨state, valid, rfl⟩, kernel, named⟩

theorem agree_emitWrongInertia (h : Alike k past e n) (found : Option Int) (expected : Int)
    (i : Nat) :
    Agree k past (emitWrongInertia found expected (past.solves + i)) e
      (emitWrongInertia found expected i) n := by
  unfold emitWrongInertia
  refine agree_emit .error (by decide +kernel) (by simp [toString]) ?_ h
  cases found <;> simp [Payload.normalize]

theorem agree_prepare (stateless : k.Stateless) (h : Alike k past e n) (m : MatrixView α)
    (demand : InertiaDemand) (i : Nat) :
    Agree k past (prepare m demand (past.solves + i)) e (prepare m demand i) n := by
  refine Agree.bind (agree_modify (h.captureIfNew m)) fun _ e₁ n₁ h₁ => agree_get ?_
  rw [h₁.phase]
  refine agree_ite_bind (fun _ => agree_analyse stateless h₁ i) (fun _ => agree_pure h₁ _) ?_
  intro refused e₂ n₂ h₂
  refine agree_ite (fun _ => agree_pure h₂ _) fun _ => ?_
  refine Agree.bind (agree_modify (h₂.noteValues m)) fun _ e₃ n₃ h₃ => agree_get ?_
  rw [h₃.phase]
  refine agree_ite_bind (fun _ => agree_pure h₃ _) (fun _ => agree_factorize stateless h₃ m i) ?_
  intro failed e₄ n₄ h₄
  refine agree_ite (fun _ => agree_pure h₄ _) fun _ => agree_get ?_
  cases demand with
  | none => exact agree_pure h₄ _
  | some expected =>
    dsimp only
    rw [h₄.negative]
    exact agree_ite (fun _ => agree_pure h₄ _) fun _ =>
      (agree_emitWrongInertia h₄ _ _ i).bind fun _ _ _ h => agree_pure h _

/-! ### Solving -/

theorem agree_callSolve (stateless : k.Stateless) (h : Alike k past e n) (rhs : DenseVector α) :
    Agree k past (callSolve rhs) e (callSolve rhs) n := by
  obtain ⟨⟨state, valid, rfl⟩, kernel, named⟩ := h
  obtain ⟨state', same⟩ := Session.backsolve_withPast stateless kernel past.calls state n.dim
    rhs.entries n.workspace.reals.words n.workspace.integers.words
  refine agree_get ?_
  have same : (n.withPast past state valid).session.backsolve (n.withPast past state valid).dim
      rhs.entries (n.withPast past state valid).workspace.reals.words
      (n.withPast past state valid).workspace.integers.words = _ := same
  simp only [same]
  refine (agree_set ?_).bind fun _ _ _ h => agree_orFault _ _ h
  exact ⟨⟨state', valid, rfl⟩, (Session.kernel_backsolve ..).trans kernel, named⟩

theorem agree_solveOne (stateless : k.Stateless) (h : Alike k past e n) (i index : Nat)
    (rhs solution : DenseVector α) :
    Agree k past (solveOne (past.solves + i) index rhs solution) e (solveOne i index rhs solution)
      n := by
  refine (agree_callSolve stateless h rhs).bind fun result e₁ n₁ h₁ => ?_
  cases result.solution with
  | none =>
    refine Agree.bind ?_ fun _ _ _ h => agree_pure h _
    unfold emitBacksolveFailed
    exact agree_emit .error (by decide +kernel) (by simp [toString]) (by simp [Payload.normalize]) h₁
  | some x => exact (agree_orFault _ _ h₁).bind fun _ _ _ h => agree_pure h _

theorem agree_backsolve (stateless : k.Stateless) (i index : Nat)
    (rhs solutions : List (DenseVector α)) (n : Engine α (Recorded α σ)) :
    ∀ e, Alike k past e n →
      (backsolve (past.solves + i) index rhs solutions e).1 = (backsolve i index rhs solutions n).1 ∧
        Alike k past (backsolve (past.solves + i) index rhs solutions e).2
          (backsolve i index rhs solutions n).2 := by
  fun_induction backsolve i index rhs solutions n with
  | case1 index b more x solutions n fault after solved =>
    intro e h
    obtain ⟨e', run, alike⟩ := (agree_solveOne stateless h i index b x).run solved
    simp only [backsolve, run]
    exact ⟨trivial, alike⟩
  | case2 index b more x solutions n after solved =>
    intro e h
    obtain ⟨e', run, alike⟩ := (agree_solveOne stateless h i index b x).run solved
    simp only [backsolve, run]
    exact ⟨trivial, alike⟩
  | case3 index b more x solutions n x' after solved answer last rest ih =>
    intro e h
    obtain ⟨e', run, alike⟩ := (agree_solveOne stateless h i index b x).run solved
    obtain ⟨same, alike⟩ := ih e' alike
    rw [rest] at same alike
    simp only [backsolve, run, same]
    exact ⟨trivial, alike⟩
  | case4 index rhs solutions n unpaired =>
    intro e h
    rw [backsolve.eq_2 _ _ _ _ _ unpaired]
    exact ⟨rfl, h⟩

/-! ### What a caller does -/

theorem Alike.beginCall (h : Alike k past e n) : Alike k past.begun e.beginCall n.beginCall := by
  obtain ⟨⟨state, valid, rfl⟩, kernel, named⟩ := h
  refine ⟨⟨state, valid, ?_⟩, kernel, named⟩
  simp [Engine.beginCall, withPast, Past.begun, List.filter_map, Function.comp_def,
    Event.isNone_later, Nat.add_assoc]

theorem Alike.usageFault? (h : Alike k past e n) (m : MatrixView α)
    (rhs solutions : List (DenseVector α)) (demand : InertiaDemand) :
    e.usageFault? m rhs solutions demand = n.usageFault? m rhs solutions demand := by
  obtain ⟨⟨state, valid, rfl⟩, -, -⟩ := h
  rfl

theorem Alike.solveCount (h : Alike k past e n) : e.solveCount = past.solves + n.solveCount := by
  obtain ⟨⟨state, valid, rfl⟩, -, -⟩ := h
  rfl

theorem Alike.negativeEigenvalues (h : Alike k past e n) :
    e.negativeEigenvalues = n.negativeEigenvalues := by
  obtain ⟨⟨state, valid, rfl⟩, -, -⟩ := h
  rfl

theorem Alike.resetStructure (h : Alike k past e n) :
    Alike k past e.resetStructure n.resetStructure := by
  obtain ⟨⟨state, valid, rfl⟩, kernel, named⟩ := h
  exact ⟨⟨state, valid, rfl⟩, kernel, named⟩

/-- **A call gives the same answer**, whatever came before it. -/
theorem agree_multiSolve (stateless : k.Stateless) (h : Alike k past e n) {m : MatrixView α}
    {rhs solutions : List (DenseVector α)} {demand : InertiaDemand}
    (accepted : n.usageFault? m rhs solutions demand = none) :
    (e.multiSolve m rhs solutions demand).1 = (n.multiSolve m rhs solutions demand).1 ∧
      Alike k past.begun (e.multiSolve m rhs solutions demand).2
        (n.multiSolve m rhs solutions demand).2 := by
  have accepted' := (h.usageFault? m rhs solutions demand).trans accepted
  have prepared := agree_prepare stateless h.beginCall m demand n.solveCount
  have numbered : past.begun.solves + n.solveCount = e.solveCount := h.solveCount.symm
  simp only [multiSolve, accepted, accepted']
  rcases run : exec (prepare m demand n.solveCount) n.beginCall with ⟨fault | _ | outcome, n₁⟩
  all_goals
    obtain ⟨e₁, run', alike⟩ := prepared.run run
    rw [numbered] at run'
    simp only [run']
  · exact ⟨trivial, alike⟩
  · rw [← numbered]
    exact agree_backsolve stateless n.solveCount 0 rhs solutions n₁ e₁ alike
  · exact ⟨trivial, alike⟩

end Scalar

theorem agree_increaseQuality {α σ : Type} [RealScalar α] [Printable α] {k : Kernel α σ}
    {past : Past α} {e n : Engine α (Recorded α σ)} (h : Alike k past e n) :
    Agree k past increaseQuality e increaseQuality n := by
  obtain ⟨⟨state, valid, rfl⟩, kernel, named⟩ := h
  refine agree_get (agree_ite (fun _ => agree_pure ⟨⟨state, valid, rfl⟩, kernel, named⟩ _)
    fun _ => (agree_set ?_).bind fun _ _ _ h => Agree.bind ?_ fun _ _ _ h => agree_pure h _)
  · exact ⟨⟨state, valid, rfl⟩, kernel, named⟩
  · exact agree_emit_aside _ _ _ h

end Engine

end SymSolve
