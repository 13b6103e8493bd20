import SymSolve.Proofs.Engine.Upkeep

/-!
# What a call leaves true

`Preserves P step` says that `P` is still true after the step, however it ends.

Most of what a call does is no concern of a given property: its notes (`Unmoved`), the sizes of its
buffers (`Unsized`), the growth that is pending (`Unplanned`), the kernel's analyses and solves
(`Untouched`). Then only the attempts at a factorization and some of the reports may change it. There
is one statement for each step, and all that is known of a particular property goes into the proof
that it looks at none of these.

**Theorem (`reports_multiSolve`).** Whatever comes of a call, it reports only under `callCodes`.
-/

namespace SymSolve.Engine

variable {α σ β γ : Type} [Scalar α]

/-- Whatever comes of the step, `P` is still true. -/
def Preserves (P : Engine α σ → Prop) (step : EngineM α σ β) : Prop :=
  ∀ e, P e → Ends step e (fun _ => P) (fun _ => P)

variable {P : Engine α σ → Prop} {e : Engine α σ}
variable {step step' : EngineM α σ β} {next : β → EngineM α σ γ}

/-! ## Steps put together -/

theorem Preserves.bind (h : Preserves P step) (hn : ∀ b, Preserves P (next b)) :
    Preserves P (step >>= next) :=
  fun e he => (h e he).bind (fun b e' he' => hn b e' he') fun _ _ he' => he'

theorem preserves_pure (b : β) : Preserves P (pure b) := fun _ he => he

theorem preserves_get {next : Engine α σ → EngineM α σ γ}
    (h : ∀ e, P e → Preserves P (next e)) : Preserves P (get >>= next) :=
  fun e he => ends_get.2 (h e he e he)

theorem preserves_set (h : P e) : Preserves P (set e) := fun _ _ => h

theorem preserves_modify {f : Engine α σ → Engine α σ} (h : ∀ e, P e → P (f e)) :
    Preserves P (modify f) := h

theorem preserves_orFault {ε : Type} (fault : ε → Fault) (r : Except ε β) :
    Preserves P (orFault fault r) :=
  fun _ he => ends_orFault (fun _ _ => he) fun _ _ => he

theorem preserves_ite {c : Prop} [Decidable c] (h : Preserves P step) (h' : Preserves P step') :
    Preserves P (if c then step else step') := by
  split
  · exact h
  · exact h'

/-! ## Properties that are not moved -/

/-- Of what a call does beside attempts, `P` only looks at sizes, at growth and at reports. Those
reports that `may` be made leave it true; they are told by their code and the number of the
attempt. -/
structure Unmoved (may : String → Option Nat → Prop) (P : Engine α σ → Prop) : Prop where
  notes : ∀ {e : Engine α σ} (phase matrixTag negative), P e →
    P { e with phase, matrixTag, negative }
  report : ∀ {e : Engine α σ} (event : Event α), may event.code event.attemptIndex → P e →
    P { e with diagnostics := e.diagnostics ++ [event] }

/-- `P` does not look at sizes. -/
structure Unsized (P : Engine α σ → Prop) : Prop where
  sizes : ∀ {e : Engine α σ} (workspace), P e → P { e with workspace }

/-- Nor does `P` look at pending growth, or at the structure. -/
structure Unplanned (P : Engine α σ → Prop) : Prop extends Unsized P where
  plans : ∀ {e : Engine α σ} (pending pattern nonzeros), P e →
    P { e with pending, pattern, nonzeros }

/-- Analyses and solves of the kernel leave `P` true as well. -/
structure Untouched (may : String → Option Nat → Prop) (P : Engine α σ → Prop) : Prop
    extends Unmoved may P where
  analysed : ∀ {e : Engine α σ}, P e → P e.afterAnalysis
  solved : ∀ {e : Engine α σ} (rhs), P e → P (e.afterBacksolve rhs)

namespace Unmoved

variable {may : String → Option Nat → Prop} {m : MatrixView α}

theorem emit (h : Unmoved may P) {code message : String} {solveIndex attemptIndex : Option Nat}
    {witness : List (String × Payload α)} (allowed : may code attemptIndex) :
    Preserves P (emit code message solveIndex attemptIndex witness) := by
  intro e he
  refine (ends_emit_event ..).mono ?_ ?_
  · rintro - _ ⟨event, rfl, rfl, -, rfl⟩
    exact h.report event allowed he
  · rintro - _ rfl
    exact he

theorem emitReallocated (h : Unmoved may P) {attemptIndex : Option Nat}
    (allowed : may "W_LIN_WORKSPACE_REALLOCATED" attemptIndex) (cause : String) (solveIndex : Nat)
    (before after : Workspace α) (more : List (String × Payload α)) :
    Preserves P (emitReallocated cause solveIndex attemptIndex before after more) := by
  unfold Engine.emitReallocated
  exact h.emit allowed

theorem noteValues (h : Unmoved may P) (he : P e) : P (noteValues m e) := by
  unfold Engine.noteValues
  split
  · exact h.notes _ _ _ he
  · exact he

theorem refuseShortage (h : Unmoved may P) {i : Nat} (allowed : may "E_LIN_KERNEL_FAILED" (some i))
    (result : FactorizationResult) (short : WorkspaceKind) (required : Requirement)
    (solveIndex : Nat) : Preserves P (refuseShortage result short required solveIndex i) :=
  preserves_get fun _ he => (preserves_set (h.notes _ _ _ he)).bind fun _ => h.emit allowed

theorem checkInertia (h : Unmoved may P) (allowed : may "E_LIN_WRONG_INERTIA" none)
    (demand : InertiaDemand) (solveIndex : Nat) : Preserves P (checkInertia demand solveIndex) := by
  refine preserves_get fun e _ => ?_
  cases demand with
  | none => exact preserves_pure _
  | some expected =>
    refine preserves_ite (preserves_pure _) (Preserves.bind ?_ fun _ => preserves_pure _)
    unfold emitWrongInertia
    exact h.emit allowed

/-- A factorization without success changes the phase, and is reported. -/
theorem conclude_of_failure (h : Unmoved may P) {i : Nat} (singular : may "E_LIN_SINGULAR" (some i))
    (failed : may "E_LIN_KERNEL_FAILED" (some i)) {result : FactorizationResult}
    (unsuccessful : result.verdict ≠ .success) (solveIndex : Nat) :
    Preserves P (conclude result solveIndex i) := by
  refine preserves_get fun e he => ?_
  split
  · next success => exact absurd success unsuccessful
  · exact (preserves_set (h.notes _ _ _ he)).bind fun _ =>
      (h.emit singular).bind fun _ => preserves_pure _
  · exact (preserves_set (h.notes _ _ _ he)).bind fun _ =>
      (h.emit failed).bind fun _ => preserves_pure _

end Unmoved

/-! ## Sizes and growth -/

namespace Unsized

variable {may : String → Option Nat → Prop} {m : MatrixView α}

theorem ensureIntegers (s : Unsized P) (n : Int) : Preserves P (ensureIntegers n) :=
  preserves_get fun _ he => (preserves_orFault _ _).bind fun _ => preserves_set (s.sizes _ he)

theorem ensureReals (s : Unsized P) (n : Int) : Preserves P (ensureReals n) :=
  preserves_get fun _ he => (preserves_orFault _ _).bind fun _ => preserves_set (s.sizes _ he)

theorem ensureKeep (s : Unsized P) (n : Int) : Preserves P (ensureKeep n) :=
  preserves_get fun _ he => (preserves_orFault _ _).bind fun _ => preserves_set (s.sizes _ he)

theorem growReals (s : Unsized P) (e : Engine α σ) : Preserves P (growReals e) :=
  preserves_ite ((preserves_orFault _ _).bind fun _ => s.ensureReals _) (preserves_pure _)

theorem growIntegers (s : Unsized P) (e : Engine α σ) : Preserves P (growIntegers e) :=
  preserves_ite ((preserves_orFault _ _).bind fun _ => s.ensureIntegers _) (preserves_pure _)

theorem relieve (s : Unsized P) (h : Unmoved may P) {i : Nat}
    (allowed : may "W_LIN_WORKSPACE_REALLOCATED" (some i)) (result : FactorizationResult)
    (required : Requirement) (lengths : Nat × Nat) (solveIndex : Nat) :
    Preserves P (relieve result required lengths solveIndex i) :=
  preserves_get fun _ _ => (s.ensureIntegers _).bind fun _ => (s.ensureReals _).bind fun _ =>
    preserves_get fun _ _ => h.emitReallocated allowed _ _ _ _ _

/-- A property that every attempt keeps is kept by all of them together. -/
theorem attempts (s : Unsized P) (h : Unmoved may P)
    (grown : ∀ i, may "W_LIN_WORKSPACE_REALLOCATED" (some i))
    (failed : ∀ i, may "E_LIN_KERNEL_FAILED" (some i)) {solveIndex : Nat}
    (tried : ∀ e i, P e → P (attempt m solveIndex i e).2) (i : Nat) (he : P e) :
    P (attempts m solveIndex i e).2 := by
  fun_induction Engine.attempts m solveIndex i e with
  | case1 i e tried' fault _ => exact tried e i he
  | case2 i e tried' result _ _ => exact tried e i he
  | case3 i e tried' result _ short required _ before cause _ => exact tried e i he
  | case4 i e tried' result _ short required _ before lengths _ _ enough fault after relieved =>
    exact (s.relieve h (grown i) result required enough solveIndex _ (tried e i he)).bad_of_exec
      relieved
  | case5 i e tried' result _ short required _ before lengths _ _ enough after relieved ih =>
    exact ih ((s.relieve h (grown i) result required enough solveIndex _ (tried e i he)).ok_of_exec
      relieved)
  | case6 i e tried' result _ short required _ before lengths _ _ refused =>
    exact (h.refuseShortage (failed i) result short required solveIndex _ (tried e i he)).always

end Unsized

namespace Unplanned

variable {may : String → Option Nat → Prop} {m : MatrixView α}

theorem captureIfNew (s : Unplanned P) (h : Unmoved may P) (he : P e) : P (captureIfNew m e) := by
  unfold Engine.captureIfNew
  split
  · have noted := h.notes .structureKnown 0 none he
    exact s.sizes .empty (s.plans .none (.ofView m) m.nonzeros noted)
  · exact he

theorem settleGrowth (s : Unplanned P) (h : Unmoved may P)
    (allowed : may "W_LIN_WORKSPACE_REALLOCATED" none) (solveIndex : Nat) (before : Workspace α) :
    Preserves P (settleGrowth solveIndex before : EngineM α σ Unit) :=
  Preserves.bind (preserves_modify fun _ => s.plans _ _ _) fun _ => preserves_get fun _ _ =>
    h.emitReallocated allowed _ _ _ _ _

theorem applyPendingGrowth (s : Unplanned P) (h : Unmoved may P)
    (allowed : may "W_LIN_WORKSPACE_REALLOCATED" none) (solveIndex : Nat) :
    Preserves P (applyPendingGrowth solveIndex) := by
  rw [applyPendingGrowth_eq]
  refine preserves_get fun e _ => preserves_ite ?_ (preserves_pure _)
  exact (s.growReals e).bind fun _ => (s.growIntegers e).bind fun _ => s.settleGrowth h allowed _ _

theorem scheduleGrowth (s : Unplanned P) (h : Unmoved may P) {i : Nat}
    (allowed : may "W_LIN_WORKSPACE_GROWTH_SCHEDULED" (some i)) (result : FactorizationResult)
    (solveIndex : Nat) : Preserves P (scheduleGrowth result solveIndex i) := by
  refine preserves_get fun e he => ?_
  dsimp only
  exact preserves_ite ((preserves_set (s.plans _ _ _ he)).bind fun _ => h.emit allowed)
    (preserves_pure _)

theorem conclude (s : Unplanned P) (h : Unmoved may P) {i : Nat}
    (scheduled : may "W_LIN_WORKSPACE_GROWTH_SCHEDULED" (some i))
    (singular : may "E_LIN_SINGULAR" (some i)) (failed : may "E_LIN_KERNEL_FAILED" (some i))
    (result : FactorizationResult) (solveIndex : Nat) :
    Preserves P (conclude result solveIndex i) := by
  by_cases success : result.verdict = .success
  · refine preserves_get fun e he => ?_
    simp only [success]
    exact (preserves_set (h.notes _ _ _ he)).bind fun _ =>
      (s.scheduleGrowth h scheduled _ _).bind fun _ =>
      Preserves.bind (preserves_modify fun _ => h.notes _ _ _) fun _ => preserves_pure _
  · exact h.conclude_of_failure singular failed success solveIndex

end Unplanned

/-! ## Preparing -/

/-- The codes under which a call reports. -/
def callCodes : List String :=
  ["E_LIN_STRUCTURE_INVALID", "E_LIN_SINGULAR", "E_LIN_WRONG_INERTIA", "E_LIN_KERNEL_FAILED",
    "E_LIN_BACKSOLVE_FAILED", "W_LIN_WORKSPACE_REALLOCATED", "W_LIN_WORKSPACE_GROWTH_SCHEDULED"]

namespace Unmoved

variable {may : String → Option Nat → Prop} {m : MatrixView α}

theorem analyse (h : Unmoved may P) (s : Unsized P)
    (analysed : ∀ {e : Engine α σ}, P e → P e.afterAnalysis)
    (allowed : may "E_LIN_STRUCTURE_INVALID" none) (solveIndex : Nat) :
    Preserves P (analyse solveIndex) := by
  have called : Preserves P (callAnalysis : EngineM α σ AnalysisResult) :=
    preserves_get fun _ he => (preserves_set (analysed he)).bind fun _ => preserves_orFault _ _
  refine preserves_get fun e _ => (preserves_orFault _ _).bind fun _ =>
    (s.ensureIntegers _).bind fun _ => (s.ensureKeep _).bind fun _ => called.bind
    fun result => ?_
  split
  · refine (preserves_orFault _ _).bind fun _ => (s.ensureIntegers _).bind fun _ =>
      (preserves_orFault _ _).bind fun _ => (s.ensureReals _).bind fun _ =>
      Preserves.bind (preserves_modify fun _ => h.notes _ _ _) fun _ => preserves_pure _
  · exact (h.emit allowed).bind fun _ => preserves_pure _

theorem factorize (h : Unmoved may P) (s : Unplanned P)
    (all : ∀ code ∈ callCodes, code ≠ "E_LIN_BACKSOLVE_FAILED" → ∀ i, may code i) {solveIndex : Nat}
    (tried : ∀ e i, P e → P (attempt m solveIndex i e).2) :
    Preserves P (factorize m solveIndex) := by
  have attempted : Preserves P (ExceptT.mk (attempts m solveIndex 0)) := fun e he => by
    have kept := s.attempts h (fun _ => all _ (by decide) (by decide) _)
      (fun _ => all _ (by decide) (by decide) _) tried 0 he
    have run : exec (ExceptT.mk (attempts m solveIndex 0)) e = attempts m solveIndex 0 e := rfl
    rw [Ends, run]
    split
    all_goals
      next ended =>
      rwa [ended] at kept
  refine (s.applyPendingGrowth h (all _ (by decide) (by decide) _) solveIndex).bind fun _ =>
    attempted.bind ?_
  rintro (_ | ⟨result, i⟩)
  · exact preserves_pure _
  · exact s.conclude h (all _ (by decide) (by decide) _) (all _ (by decide) (by decide) _)
      (all _ (by decide) (by decide) _) result solveIndex

/-- While a call prepares, it does not report on right-hand sides. -/
theorem prepare (h : Unmoved may P) (s : Unplanned P)
    (analysed : ∀ {e : Engine α σ}, P e → P e.afterAnalysis)
    (all : ∀ code ∈ callCodes, code ≠ "E_LIN_BACKSOLVE_FAILED" → ∀ i, may code i) {solveIndex : Nat}
    (tried : ∀ e i, P e → P (attempt m solveIndex i e).2) (demand : InertiaDemand) :
    Preserves P (prepare m demand solveIndex) := by
  intro e he
  have first : Preserves P (if (Engine.captureIfNew m e).phase = .structureKnown then
      Engine.analyse solveIndex else pure none) :=
    preserves_ite (h.analyse s.toUnsized analysed (all _ (by decide) (by decide) _) solveIndex)
      (preserves_pure none)
  refine ends_prepare_of P ?_ (fun e₁ he₁ => ?_) fun e₂ he₂ => ?_
  · refine (first _ (s.captureIfNew h he)).mono ?_ fun _ _ he' => he'
    rintro (_ | outcome) e₁ he₁
    · exact h.noteValues he₁
    · exact he₁
  · exact preserves_ite (preserves_pure none) (h.factorize s all tried) e₁ he₁
  · exact h.checkInertia (all _ (by decide) (by decide) _) demand solveIndex e₂ he₂

end Unmoved

/-! ## Whole calls -/

namespace Untouched

variable {may : String → Option Nat → Prop} {m : MatrixView α}

theorem callSolve (h : Untouched may P) (rhs : DenseVector α) :
    Preserves P (callSolve rhs : EngineM α σ (BacksolveResult α)) :=
  preserves_get fun _ he => (preserves_set (h.solved rhs he)).bind fun _ => preserves_orFault _ _

theorem solveOne (h : Untouched may P) (allowed : may "E_LIN_BACKSOLVE_FAILED" none)
    (solveIndex index : Nat) (rhs solution : DenseVector α) :
    Preserves P (solveOne solveIndex index rhs solution) := by
  refine (h.callSolve rhs).bind fun result => ?_
  split
  · refine Preserves.bind ?_ fun _ => preserves_pure _
    unfold emitBacksolveFailed
    exact h.emit allowed
  · exact (preserves_orFault _ _).bind fun _ => preserves_pure _

theorem backsolve (h : Untouched may P) (allowed : may "E_LIN_BACKSOLVE_FAILED" none)
    (solveIndex index : Nat) (rhs solutions : List (DenseVector α)) (he : P e) :
    P (backsolve solveIndex index rhs solutions e).2 := by
  fun_induction Engine.backsolve solveIndex index rhs solutions e with
  | case1 index b more x solutions e fault after solved =>
    exact (h.solveOne allowed solveIndex index b x e he).bad_of_exec solved
  | case2 index b more x solutions e after solved =>
    exact (h.solveOne allowed solveIndex index b x e he).ok_of_exec solved
  | case3 index b more x solutions e x' after solved answer last rest ih =>
    rw [rest] at ih
    exact ih ((h.solveOne allowed solveIndex index b x e he).ok_of_exec solved)
  | case4 => exact he

theorem multiSolve (h : Untouched may P) (s : Unplanned P)
    (all : ∀ code ∈ callCodes, ∀ i, may code i)
    (tried : ∀ e' i, P e' → P (attempt m e.solveCount i e').2) {rhs solutions : List (DenseVector α)}
    {demand : InertiaDemand} (accepted : e.usageFault? m rhs solutions demand = none)
    (he : P e.beginCall) : P (e.multiSolve m rhs solutions demand).2 := by
  refine multiSolve_of_prepare P (fun _ => P) accepted ?_ fun e₁ he₁ =>
    h.backsolve (all _ (by decide) _) e.solveCount 0 rhs solutions he₁
  refine (h.prepare s h.analysed (fun code listed _ => all code listed) tried demand e.beginCall
    he).mono ?_ fun _ _ he' => he'
  rintro (_ | outcome) e₁ he₁ <;> exact he₁

end Untouched

/-! ## What is reported -/

/-- Since `base` there were only reports under these codes. -/
def Reports (codes : List String) (base e : Engine α σ) : Prop :=
  ∃ events, e.diagnostics = base.diagnostics ++ events ∧ ∀ event ∈ events, event.code ∈ codes

variable {codes : List String} {base : Engine α σ} {m : MatrixView α}

theorem Reports.refl (codes : List String) (e : Engine α σ) : Reports codes e e :=
  ⟨[], (List.append_nil _).symm, nofun⟩

theorem untouched_reports (codes : List String) (base : Engine α σ) :
    Untouched (fun code _ => code ∈ codes) (Reports codes base) where
  notes _ _ _ h := h
  report event allowed := by
    rintro ⟨events, added, coded⟩
    refine ⟨events ++ [event], by rw [added, List.append_assoc], fun other hother => ?_⟩
    rcases List.mem_append.1 hother with hother | hother
    · exact coded other hother
    · obtain rfl := List.mem_singleton.1 hother
      exact allowed
  analysed h := h
  solved _ h := h

theorem unplanned_reports (codes : List String) (base : Engine α σ) :
    Unplanned (Reports codes base) where
  sizes _ h := h
  plans _ _ _ h := h

theorem diagnostics_attempt (m : MatrixView α) (k i : Nat) (e : Engine α σ) :
    (attempt m k i e).2.diagnostics = e.diagnostics := by
  unfold attempt
  split
  · rfl
  · dsimp only
    split <;> rfl

theorem Reports.attempt {e : Engine α σ} (h : Reports codes base e) (k i : Nat) :
    Reports codes base (attempt m k i e).2 := by
  rwa [Reports, diagnostics_attempt]

/-- **A call reports under its own codes.** -/
theorem reports_multiSolve {e : Engine α σ} {rhs solutions : List (DenseVector α)}
    {demand : InertiaDemand} (accepted : e.usageFault? m rhs solutions demand = none) :
    Reports callCodes e.beginCall (e.multiSolve m rhs solutions demand).2 :=
  (untouched_reports callCodes e.beginCall).multiSolve (unplanned_reports ..) (fun _ h _ => h)
    (fun _ i h => h.attempt e.solveCount i) accepted (.refl callCodes e.beginCall)

end SymSolve.Engine
