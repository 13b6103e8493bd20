import SymSolve.Engine.Solve
import SymSolve.Proofs.Diagnostic.Event

/-!
# What the steps of an engine do

`Ends step e ok bad` says of a step at the engine `e` how it can end: with a value and an engine
that satisfy `ok`, or with a fault and an engine that satisfy `bad`. Both ends matter, because an
engine is used again after a fault, in the state in which the fault left it.

There is one rule for each way of putting steps together, and one statement for each step that
does something of its own: reports (`exec_emit`), work buffers (`ends_ensureIntegers` and the
like), and calls of the kernel (`ends_callAnalysis`).
-/

namespace SymSolve

/-- A step that comes to a result, and what follows it. -/
theorem exists_of_bind_eq_ok {ε β γ : Type} {r : Except ε β} {next : β → Except ε γ} {c : γ}
    (h : r >>= next = .ok c) : ∃ b, r = .ok b ∧ next b = .ok c := by
  cases r with
  | error cause => cases h
  | ok b => exact ⟨b, rfl, h⟩

namespace Engine

variable {α σ β γ : Type} [Scalar α]

/-! ## Running a step -/

theorem exec_set (e' e : Engine α σ) : exec (set e' : EngineM α σ PUnit) e = (.ok ⟨⟩, e') := rfl

theorem exec_orFault {ε : Type} (fault : ε → Fault) (r : Except ε β) (e : Engine α σ) :
    exec (orFault fault r : EngineM α σ β) e = (r.mapError fault, e) := by
  cases r <;> rfl

/-- How a step ends at an engine. -/
def Ends (step : EngineM α σ β) (e : Engine α σ) (ok : β → Engine α σ → Prop)
    (bad : Fault → Engine α σ → Prop) : Prop :=
  match exec step e with
  | (.ok b, e') => ok b e'
  | (.error fault, e') => bad fault e'

variable {step : EngineM α σ β} {next : β → EngineM α σ γ} {e e' : Engine α σ}
variable {ok ok' : β → Engine α σ → Prop} {bad bad' : Fault → Engine α σ → Prop}

theorem Ends.mono (h : Ends step e ok bad) (hok : ∀ b e', ok b e' → ok' b e')
    (hbad : ∀ fault e', bad fault e' → bad' fault e') : Ends step e ok' bad' := by
  unfold Ends at *
  split
  · next hs =>
    rw [hs] at h
    exact hok _ _ h
  · next hs =>
    rw [hs] at h
    exact hbad _ _ h

theorem ends_trivial (step : EngineM α σ β) (e : Engine α σ) :
    Ends step e (fun _ _ => True) fun _ _ => True := by
  unfold Ends
  split <;> trivial

/-- Two things that are known of one step. -/
theorem Ends.and (h : Ends step e ok bad) (h' : Ends step e ok' bad') :
    Ends step e (fun b e' => ok b e' ∧ ok' b e') (fun fault e' => bad fault e' ∧ bad' fault e') := by
  unfold Ends at *
  split
  · next hs =>
    rw [hs] at h h'
    exact ⟨h, h'⟩
  · next hs =>
    rw [hs] at h h'
    exact ⟨h, h'⟩

/-- Two steps in a row. -/
theorem Ends.bind {after : γ → Engine α σ → Prop} (h : Ends step e ok bad')
    (hok : ∀ b e', ok b e' → Ends (next b) e' after bad)
    (hbad : ∀ fault e', bad' fault e' → bad fault e') : Ends (step >>= next) e after bad := by
  unfold Ends at h
  unfold Ends
  rw [exec_bind]
  split at h
  · next b e' hs =>
    rw [hs]
    exact hok b e' h
  · next fault e' hs =>
    rw [hs]
    exact hbad fault e' h

/-- A step that is known to succeed, and another one after it. -/
theorem ends_bind_of_ok {after : γ → Engine α σ → Prop} {b : β} (h : exec step e = (.ok b, e')) :
    Ends (step >>= next) e after bad ↔ Ends (next b) e' after bad := by
  simp only [Ends, exec_bind, h]

theorem ends_of_ok {b : β} (h : exec step e = (.ok b, e')) : Ends step e ok bad ↔ ok b e' := by
  simp only [Ends, h]

theorem Ends.ok_of_exec {b : β} (h : Ends step e ok bad) (hs : exec step e = (.ok b, e')) :
    ok b e' := (ends_of_ok hs).1 h

theorem Ends.bad_of_exec {fault : Fault} (h : Ends step e ok bad)
    (hs : exec step e = (.error fault, e')) : bad fault e' := by
  simpa only [Ends, hs] using h

/-- A step that does not end in a fault. -/
theorem Ends.exists_ok (h : Ends step e ok fun _ _ => False) :
    ∃ b e', exec step e = (.ok b, e') ∧ ok b e' := by
  unfold Ends at h
  split at h
  · next b e' hs => exact ⟨b, e', hs, h⟩
  · exact h.elim

/-- What a step comes to, told of both ends at once. -/
theorem ends_iff {holds : Except Fault β → Engine α σ → Prop} :
    Ends step e (fun b => holds (.ok b)) (fun fault => holds (.error fault)) ↔
      holds (exec step e).1 (exec step e).2 := by
  unfold Ends
  rcases exec step e with ⟨fault | b, e'⟩ <;> rfl

/-- What holds however a step ends. -/
theorem Ends.always {holds : Engine α σ → Prop}
    (h : Ends step e (fun _ => holds) (fun _ => holds)) : holds (exec step e).2 := by
  unfold Ends at h
  split at h <;> simp_all

/-- The engine is read before a step. -/
theorem ends_get {next : Engine α σ → EngineM α σ γ} {after : γ → Engine α σ → Prop} :
    Ends (get >>= next) e after bad ↔ Ends (next e) e after bad := ends_bind_of_ok rfl

theorem ends_set {next : PUnit → EngineM α σ γ} {after : γ → Engine α σ → Prop} :
    Ends (set e' >>= next) e after bad ↔ Ends (next ⟨⟩) e' after bad := ends_bind_of_ok rfl

theorem ends_modify {f : Engine α σ → Engine α σ} {next : PUnit → EngineM α σ γ}
    {after : γ → Engine α σ → Prop} :
    Ends (modify f >>= next) e after bad ↔ Ends (next ⟨⟩) (f e) after bad := ends_bind_of_ok rfl

/-- A step that is one of two, and another one after it. -/
theorem ends_ite {c : Prop} [Decidable c] {step' : EngineM α σ β} {after : γ → Engine α σ → Prop}
    (h : Ends ((if c then step else step') >>= next) e after bad) :
    Ends (if c then step >>= next else step' >>= next) e after bad := by
  by_cases hc : c
  · rw [if_pos hc] at h ⊢
    exact h
  · rw [if_neg hc] at h ⊢
    exact h

theorem ends_orFault {ε : Type} {fault : ε → Fault} {r : Except ε β}
    (hok : ∀ b, r = .ok b → ok b e) (hbad : ∀ cause, r = .error cause → bad (fault cause) e) :
    Ends (orFault fault r) e ok bad := by
  unfold Ends
  rw [exec_orFault]
  cases r with
  | ok b => exact hok b rfl
  | error cause => exact hbad cause rfl

/-! ## Reports -/

/-- A report adds its event to the diagnostics, unless it fails, and does nothing else. -/
theorem ends_emit_event (code message : String) (solveIndex attemptIndex : Option Nat)
    (witness : List (String × Payload α)) (e : Engine α σ) :
    Ends (emit code message solveIndex attemptIndex witness) e
      (fun _ e' => ∃ event, e' = { e with diagnostics := e.diagnostics ++ [event] } ∧
        event.code = code ∧ event.solveIndex = solveIndex ∧ event.attemptIndex = attemptIndex)
      (fun _ e' => e' = e) := by
  unfold emit
  rw [ends_get]
  dsimp only
  split
  · exact rfl
  · next event built =>
    obtain ⟨text, solve, attempt⟩ := Event.build_eq_ok built
    have solve : solveIndex = event.solveIndex := by
      cases solveIndex with
      | none => exact Except.ok.inj solve
      | some i => exact Except.ok.inj ((Index.ofPayload_toPayload (some i)).symm.trans solve)
    have attempt : attemptIndex = event.attemptIndex := by
      cases attemptIndex with
      | none => exact Except.ok.inj attempt
      | some i => exact Except.ok.inj ((Index.ofPayload_toPayload (some i)).symm.trans attempt)
    refine ⟨event, rfl, ?_, solve.symm, attempt.symm⟩
    simp only [Draft.textOf] at text
    split at text
    · cases text
    · exact (Except.ok.inj text).symm

theorem ends_emit (code message : String) (solveIndex attemptIndex : Option Nat)
    (witness : List (String × Payload α)) (e : Engine α σ) :
    Ends (emit code message solveIndex attemptIndex witness) e
      (fun _ e' => ∃ diagnostics, e' = { e with diagnostics }) (fun _ e' => e' = e) := by
  refine (ends_emit_event ..).mono ?_ fun _ _ h => h
  rintro - _ ⟨event, rfl, -⟩
  exact ⟨_, rfl⟩

/-- Reports with a code of the catalog are not refused. -/
theorem exec_emit (entry : CatalogEntry) {message : String}
    {solveIndex attemptIndex : Option Nat} {fields : List (String × Payload α)} {witness : Json α}
    (found : Catalog.canonical.find? entry.code = some entry) (code : entry.code ≠ "")
    (action : entry.action ≠ "") (text : message ≠ "") (solver : e.solverId ≠ "")
    (paired : attemptIndex.isSome → solveIndex.isSome)
    (evidence : (Payload.ofFields fields).normalize = .ok witness) :
    exec (emit entry.code message solveIndex attemptIndex fields) e =
      (.ok (), { e with diagnostics := e.diagnostics ++
        [.ofEntry entry ⟨message, e.solverId, solveIndex, attemptIndex, witness⟩] }) := by
  have built := Event.build_catalogued (r := ⟨message, e.solverId, solveIndex, attemptIndex, witness⟩)
    found code action text solver paired evidence
  unfold emit
  rw [exec_bind, exec_get]
  cases solveIndex <;> cases attemptIndex <;> simp only [Index.toPayload] at built <;>
    dsimp only <;> rw [built] <;> rfl

theorem exec_emit_listed {code message : String} {solveIndex attemptIndex : Option Nat}
    {fields : List (String × Payload α)} (listed : code ∈ Catalog.canonical.codes)
    (text : message ≠ "") (solver : e.solverId ≠ "")
    (paired : attemptIndex.isSome → solveIndex.isSome)
    (plain : ∀ field ∈ fields, ∃ v, field.2.normalize = .ok v) :
    ∃ event, exec (emit code message solveIndex attemptIndex fields) e =
      (.ok (), { e with diagnostics := e.diagnostics ++ [event] }) := by
  obtain ⟨entry, found, rfl, code, action⟩ := Catalog.find?_of_mem_codes listed
  obtain ⟨witness, evidence⟩ := Payload.exists_normalize_ofFields plain
  exact ⟨_, exec_emit entry found code action text solver paired evidence⟩

/-! ## Work buffers -/

section Bind

variable {after : γ → Engine α σ → Prop} {n : Int} {run : Unit → EngineM α σ γ}

theorem ends_lengthOrFault {length : Except Unbounded Int} {next : Int → EngineM α σ γ}
    (hok : ∀ n, length = .ok n → Ends (next n) e after bad)
    (hbad : ∀ cause, length = .error cause → bad (.length (.unbounded cause)) e) :
    Ends (lengthOrFault length >>= next) e after bad := by
  cases length with
  | ok n => exact (ends_bind_of_ok rfl).2 (hok n rfl)
  | error cause => exact hbad cause rfl

theorem ends_ensureIntegers
    (hok : Ends (run ()) { e with
      workspace := { e.workspace with integers := e.workspace.integers.grow n.toNat } } after bad)
    (hbad : ∀ cause, e.workspace.integers.ensure e.memory n = .error cause → bad (.length cause) e) :
    Ends (ensureIntegers n >>= run) e after bad := by
  unfold ensureIntegers
  simp only [bind_assoc]
  rw [ends_get]
  cases h : e.workspace.integers.ensure e.memory n with
  | ok integers => exact Buffer.eq_grow_of_ensure h ▸ hok
  | error cause => exact hbad cause h

theorem ends_ensureReals
    (hok : Ends (run ()) { e with
      workspace := { e.workspace with reals := e.workspace.reals.grow n.toNat } } after bad)
    (hbad : ∀ cause, e.workspace.reals.ensure e.memory n = .error cause → bad (.length cause) e) :
    Ends (ensureReals n >>= run) e after bad := by
  unfold ensureReals
  simp only [bind_assoc]
  rw [ends_get]
  cases h : e.workspace.reals.ensure e.memory n with
  | ok reals => exact Buffer.eq_grow_of_ensure h ▸ hok
  | error cause => exact hbad cause h

theorem ends_ensureKeep
    (hok : Ends (run ()) { e with
      workspace := { e.workspace with keep := e.workspace.keep.grow n.toNat } } after bad)
    (hbad : ∀ cause, e.workspace.keep.ensure e.memory n = .error cause → bad (.length cause) e) :
    Ends (ensureKeep n >>= run) e after bad := by
  unfold ensureKeep
  simp only [bind_assoc]
  rw [ends_get]
  cases h : e.workspace.keep.ensure e.memory n with
  | ok keep => exact Buffer.eq_grow_of_ensure h ▸ hok
  | error cause => exact hbad cause h

/-- A length that has been computed. -/
theorem ends_length {length : Except Unbounded Int} {next : Int → EngineM α σ γ}
    (read : length = .ok n) (h : Ends (next n) e after bad) :
    Ends (lengthOrFault length >>= next) e after bad := by
  subst read
  exact (ends_bind_of_ok rfl).2 h

/-! Where memory refuses no length, a buffer gets every length that is not negative. -/

theorem ends_unlimited_integers (unlimited : e.memory = .unlimited) (nonneg : 0 ≤ n)
    (hok : Ends (run ()) { e with
      workspace := { e.workspace with integers := e.workspace.integers.grow n.toNat } } after bad) :
    Ends (ensureIntegers n >>= run) e after bad :=
  ends_ensureIntegers hok fun cause refused => by
    rw [unlimited, Buffer.ensure_unlimited _ nonneg] at refused
    cases refused

theorem ends_unlimited_reals (unlimited : e.memory = .unlimited) (nonneg : 0 ≤ n)
    (hok : Ends (run ()) { e with
      workspace := { e.workspace with reals := e.workspace.reals.grow n.toNat } } after bad) :
    Ends (ensureReals n >>= run) e after bad :=
  ends_ensureReals hok fun cause refused => by
    rw [unlimited, Buffer.ensure_unlimited _ nonneg] at refused
    cases refused

theorem ends_unlimited_keep (unlimited : e.memory = .unlimited) (nonneg : 0 ≤ n)
    (hok : Ends (run ()) { e with
      workspace := { e.workspace with keep := e.workspace.keep.grow n.toNat } } after bad) :
    Ends (ensureKeep n >>= run) e after bad :=
  ends_ensureKeep hok fun cause refused => by
    rw [unlimited, Buffer.ensure_unlimited _ nonneg] at refused
    cases refused

end Bind

/-! ## Pending growth -/

/-- Carries out the growth of the real workspace, if it is pending at the engine `e`. -/
def growReals (e : Engine α σ) : EngineM α σ Unit :=
  if e.pending.real then do
    let reals := e.workspace.reals.length
    ensureReals (← lengthOrFault (grownLength reals reals e.options.growthFactor))
  else pure ()

/-- Carries out the growth of the integer workspace, if it is pending at the engine `e`. -/
def growIntegers (e : Engine α σ) : EngineM α σ Unit :=
  if e.pending.integer then do
    let integers := e.workspace.integers.length
    ensureIntegers (← lengthOrFault (grownLength integers integers e.options.growthFactor))
  else pure ()

/-- Takes note that nothing is pending any more, and reports what has grown since `before`. -/
def settleGrowth (solveIndex : Nat) (before : Workspace α) : EngineM α σ Unit := do
  modify fun e : Engine α σ => { e with pending := .none }
  emitReallocated "scheduled growth applied" solveIndex none before (← get).workspace []

theorem applyPendingGrowth_eq (solveIndex : Nat) :
    (applyPendingGrowth solveIndex : EngineM α σ Unit) = (do
      let e : Engine α σ ← get
      if e.pending.any then
        growReals e
        growIntegers e
        settleGrowth solveIndex e.workspace) := by
  unfold applyPendingGrowth
  refine bind_congr fun e => ?_
  unfold growReals growIntegers settleGrowth
  cases e.pending.real <;> cases e.pending.integer <;> simp

/-! ## The analysis -/

/-- The engine after the kernel's analysis was called in its buffers. -/
def afterAnalysis (e : Engine α σ) : Engine α σ :=
  let r := e.session.analyse e.pattern e.workspace.integers.words e.workspace.keep.words
  { e with
    session := r.session
    workspace := { e.workspace with integers := ⟨r.iw⟩, keep := ⟨r.keep⟩ } }

theorem ends_callAnalysis {next : AnalysisResult → EngineM α σ γ} {after : γ → Engine α σ → Prop}
    (hok : ∀ result, (e.session.analyse e.pattern e.workspace.integers.words
      e.workspace.keep.words).result = .ok result → Ends (next result) e.afterAnalysis after bad)
    (hbad : ∀ cause, (e.session.analyse e.pattern e.workspace.integers.words
      e.workspace.keep.words).result = .error cause → bad (.kernel cause) e.afterAnalysis) :
    Ends (callAnalysis >>= next) e after bad := by
  unfold callAnalysis
  simp only [bind_assoc]
  rw [ends_get, ends_set]
  cases h : (e.session.analyse e.pattern e.workspace.integers.words
    e.workspace.keep.words).result with
  | ok result => exact hok result h
  | error cause => exact hbad cause h

/-- `e'` is `e` after at most one call of the kernel's analysis, apart from work buffers and at
most one diagnostic. -/
def MayAnalyse (e e' : Engine α σ) : Prop :=
  ∃ session workspace diagnostics, e' = { e with session, workspace, diagnostics } ∧
    (session = e.session ∨ ∃ iw keep, session = (e.session.analyse e.pattern iw keep).session) ∧
    (diagnostics = e.diagnostics ∨ ∃ event, diagnostics = e.diagnostics ++ [event] ∧
      event.code = "E_LIN_STRUCTURE_INVALID")

/-- `e'` is `e` after an analysis that the kernel accepted. -/
def Analyses (e e' : Engine α σ) : Prop :=
  ∃ iw keep result workspace, let r := e.session.analyse e.pattern iw keep
    r.result = .ok result ∧ result.accepted ∧ workspace.keep.words = r.keep ∧
      e.nonzeros ≤ workspace.reals.length ∧
      e' = { e with session := r.session, workspace, phase := .symbolicDone }

theorem ends_analyse (solveIndex : Nat) (e : Engine α σ) :
    Ends (analyse solveIndex) e
      (fun refused e' => match refused with
        | none => Analyses e e'
        | some outcome => outcome = .fatalError ∧ MayAnalyse e e')
      (fun _ e' => MayAnalyse e e') := by
  unfold analyse
  rw [ends_get]
  refine ends_lengthOrFault (fun n _ => ?_) fun cause _ => ⟨_, _, _, rfl, .inl rfl, .inl rfl⟩
  refine ends_ensureIntegers ?_ fun cause _ => ⟨_, _, _, rfl, .inl rfl, .inl rfl⟩
  refine ends_ensureKeep ?_ fun cause _ => ⟨_, _, _, rfl, .inl rfl, .inl rfl⟩
  refine ends_callAnalysis (fun result answered => ?_) fun cause _ =>
    ⟨_, _, _, rfl, .inr ⟨_, _, rfl⟩, .inl rfl⟩
  split
  · next accepted =>
    refine ends_lengthOrFault (fun n _ => ?_) fun cause _ =>
      ⟨_, _, _, rfl, .inr ⟨_, _, rfl⟩, .inl rfl⟩
    refine ends_ensureIntegers ?_ fun cause _ =>
      ⟨_, _, _, rfl, .inr ⟨_, _, rfl⟩, .inl rfl⟩
    refine ends_lengthOrFault (fun n _ => ?_) fun cause _ =>
      ⟨_, _, _, rfl, .inr ⟨_, _, rfl⟩, .inl rfl⟩
    refine ends_ensureReals ?_ fun cause _ =>
      ⟨_, _, _, rfl, .inr ⟨_, _, rfl⟩, .inl rfl⟩
    rw [ends_modify]
    refine ⟨_, _, result, _, answered, accepted, rfl, ?_, rfl⟩
    simp only [Buffer.length_grow]
    omega
  · refine (ends_emit_event ..).bind ?_ ?_
    · rintro - _ ⟨event, rfl, code, -⟩
      exact ⟨rfl, _, _, _, rfl, .inr ⟨_, _, rfl⟩, .inr ⟨event, rfl, code⟩⟩
    · rintro - _ rfl
      exact ⟨_, _, _, rfl, .inr ⟨_, _, rfl⟩, .inl rfl⟩

/-! ## Solving -/

/-- The engine after the kernel was asked to solve for a right-hand side. -/
def afterBacksolve (rhs : DenseVector α) (e : Engine α σ) : Engine α σ :=
  let r := e.session.backsolve e.dim rhs.entries e.workspace.reals.words e.workspace.integers.words
  { e with
    session := r.session
    workspace := { e.workspace with reals := ⟨r.a⟩, integers := ⟨r.iw⟩ } }

theorem ends_callSolve {rhs : DenseVector α} {next : BacksolveResult α → EngineM α σ γ}
    {after : γ → Engine α σ → Prop}
    (hok : ∀ result, (e.session.backsolve e.dim rhs.entries e.workspace.reals.words
      e.workspace.integers.words).result = .ok result →
      Ends (next result) (e.afterBacksolve rhs) after bad)
    (hbad : ∀ cause, (e.session.backsolve e.dim rhs.entries e.workspace.reals.words
      e.workspace.integers.words).result = .error cause → bad (.kernel cause) (e.afterBacksolve rhs)) :
    Ends (callSolve rhs >>= next) e after bad := by
  unfold callSolve
  simp only [bind_assoc]
  rw [ends_get, ends_set]
  cases h : (e.session.backsolve e.dim rhs.entries e.workspace.reals.words
    e.workspace.integers.words).result with
  | ok result => exact hok result h
  | error cause => exact hbad cause h

/-! ## Whole calls -/

/-- Checks the inertia of the factors. -/
def checkInertia (demand : InertiaDemand) (solveIndex : Nat) :
    EngineM α σ (Option Outcome) := do
  let e : Engine α σ ← get
  match demand with
  | none => return none
  | some expected =>
    if e.negative = some expected then return none
    else
      emitWrongInertia e.negative expected solveIndex
      return some .wrongInertia

/-- The check of the inertia goes on, or it reports what it has found and ends the call. -/
theorem ends_checkInertia_of {demand : InertiaDemand} {solveIndex : Nat}
    {done : Option Outcome → Engine α σ → Prop}
    (met : (∀ expected, demand = some expected → e.negative = some expected) → done none e)
    (unmet : ∀ expected, demand = some expected → e.negative ≠ some expected →
      Ends (emitWrongInertia e.negative expected solveIndex) e
        (fun _ => done (some .wrongInertia)) bad) :
    Ends (checkInertia demand solveIndex) e done bad := by
  unfold checkInertia
  rw [ends_get]
  cases demand with
  | none => exact met nofun
  | some expected =>
    dsimp only
    split
    · next found =>
      refine met ?_
      rintro _ ⟨⟩
      exact found
    · next other => exact (unmet expected rfl other).bind (fun _ _ h => h) fun _ _ h => h

theorem ends_checkInertia (demand : InertiaDemand) (solveIndex : Nat) (e : Engine α σ) :
    Ends (checkInertia demand solveIndex) e
      (fun _ e' => ∃ diagnostics, e' = { e with diagnostics }) (fun _ e' => e' = e) := by
  refine ends_checkInertia_of (fun _ => ⟨_, rfl⟩) fun expected _ _ => ?_
  unfold emitWrongInertia
  exact ends_emit ..

/-- A preparation has three stages, and each of them may end the call: the analysis, the
factorization of the present values, and the check of the inertia. -/
theorem ends_prepare_by {m : MatrixView α} {demand : InertiaDemand} {solveIndex : Nat}
    (front late : Engine α σ → Prop) {done : Option Outcome → Engine α σ → Prop}
    (analysis : Ends
      (if (captureIfNew m e).phase = .structureKnown then analyse solveIndex else pure none)
      (captureIfNew m e)
      (fun refused e' => match refused with
        | none => front (noteValues m e')
        | some outcome => done (some outcome) e') bad)
    (factors : ∀ e', front e' →
      Ends (if e'.phase = .factorized then pure none else factorize m solveIndex) e'
        (fun failed e' => match failed with
          | none => late e'
          | some outcome => done (some outcome) e') bad)
    (check : ∀ e', late e' → Ends (checkInertia demand solveIndex) e' done bad) :
    Ends (prepare m demand solveIndex) e done bad := by
  unfold prepare
  rw [ends_modify, ends_get]
  dsimp only
  refine ends_ite (analysis.bind ?_ fun _ _ h => h)
  rintro (_ | outcome) e₁ h₁
  · rw [if_neg (by simp), ends_modify, ends_get]
    refine ends_ite ((factors _ h₁).bind ?_ fun _ _ h => h)
    rintro (_ | outcome) e₂ h₂
    · rw [if_neg (by simp)]
      exact check e₂ h₂
    · rw [if_pos Option.isSome_some]
      exact h₂
  · rw [if_pos Option.isSome_some]
    exact h₁

/-- The same where the check of the inertia adds nothing to what is known. -/
theorem ends_prepare_of {m : MatrixView α} {demand : InertiaDemand} {solveIndex : Nat}
    (front : Engine α σ → Prop) {done : Option Outcome → Engine α σ → Prop}
    (analysis : Ends
      (if (captureIfNew m e).phase = .structureKnown then analyse solveIndex else pure none)
      (captureIfNew m e)
      (fun refused e' => match refused with
        | none => front (noteValues m e')
        | some outcome => done (some outcome) e') bad)
    (factors : ∀ e', front e' →
      Ends (if e'.phase = .factorized then pure none else factorize m solveIndex) e' done bad)
    (check : ∀ e', done none e' → Ends (checkInertia demand solveIndex) e' done bad) :
    Ends (prepare m demand solveIndex) e done bad := by
  refine ends_prepare_by front (done none) analysis (fun e₁ h₁ => ?_) check
  refine (factors e₁ h₁).mono ?_ fun _ _ h => h
  rintro (_ | outcome) e₂ h₂ <;> exact h₂

theorem conclude_unsuccessful (result : FactorizationResult) (k i : Nat) (e : Engine α σ) :
    Ends (conclude result k i) e (fun ended _ => ended ≠ some .success) (fun _ _ => True) := by
  unfold conclude
  rw [ends_get]
  split
  · rw [ends_set]
    refine (ends_trivial _ _).bind (fun _ e' _ => ?_) fun _ _ _ => trivial
    rw [ends_modify]
    exact nofun
  · rw [ends_set]
    exact (ends_trivial _ _).bind (fun _ _ _ => nofun) fun _ _ _ => trivial
  · rw [ends_set]
    exact (ends_trivial _ _).bind (fun _ _ _ => nofun) fun _ _ _ => trivial

/-- A preparation that ends a call ends it without success. -/
theorem prepare_unsuccessful (m : MatrixView α) (demand : InertiaDemand) (k : Nat)
    (e : Engine α σ) :
    Ends (prepare m demand k) e (fun ended _ => ended ≠ some .success) (fun _ _ => True) := by
  refine ends_prepare_of (fun _ => True) ?_ (fun e₁ _ => ?_) fun e₂ _ => ?_
  · split
    · refine (ends_analyse k _).mono ?_ fun _ _ _ => trivial
      rintro (_ | outcome) e₁ refused
      · trivial
      · obtain ⟨rfl, -⟩ := refused
        exact nofun
    · trivial
  · split
    · exact nofun
    · unfold factorize
      refine (ends_trivial _ _).bind (fun _ _ _ => ?_) fun _ _ _ => trivial
      refine (ends_trivial _ _).bind ?_ fun _ _ _ => trivial
      rintro (_ | ⟨result, i⟩) e₂ -
      · exact nofun
      · exact conclude_unsuccessful result k i e₂
  · refine ends_checkInertia_of (fun _ => nofun) fun expected _ _ => ?_
    exact (ends_trivial _ _).mono (fun _ _ _ => nofun) fun _ _ _ => trivial

/-- An accepted call prepares, and solves if that ends without an outcome. -/
theorem multiSolve_of_prepare {m : MatrixView α} {rhs solutions : List (DenseVector α)}
    {demand : InertiaDemand} (ready : Engine α σ → Prop)
    (holds : SolveAnswer α → Engine α σ → Prop)
    (accepted : e.usageFault? m rhs solutions demand = none)
    (prepared : Ends (prepare m demand e.solveCount) e.beginCall
      (fun ended e' => match ended with
        | none => ready e'
        | some outcome => holds ⟨.ok outcome, solutions⟩ e')
      (fun fault => holds ⟨.error fault, solutions⟩))
    (solved : ∀ e', ready e' → holds (backsolve e.solveCount 0 rhs solutions e').1
      (backsolve e.solveCount 0 rhs solutions e').2) :
    holds (e.multiSolve m rhs solutions demand).1 (e.multiSolve m rhs solutions demand).2 := by
  unfold Ends at prepared
  simp only [multiSolve, accepted]
  generalize exec (prepare m demand e.solveCount) e.beginCall = ended at prepared ⊢
  rcases ended with ⟨fault | _ | outcome, e'⟩
  · exact prepared
  · exact solved e' prepared
  · exact prepared

/-! ## What is told of the inertia -/

/-- What an engine tells of the inertia is what it has noted with its factors. -/
theorem negativeEigenvalues_eq_ok {n : Int} : e.negativeEigenvalues = .ok n ↔
    e.providesInertia ∧ e.phase = .factorized ∧ e.negative = some n := by
  unfold negativeEigenvalues
  cases e.providesInertia <;> cases e.phase <;> cases e.negative <;> simp

/-! ## Raising the tolerance -/

/-- An engine whose quality is increased is left as it is, or it gets a tolerance and its factors
are out of date; then this may be reported. -/
theorem exec_increaseQuality_cases {α σ : Type} [RealScalar α] [Printable α] (e : Engine α σ) :
    (exec increaseQuality e).2 = e ∨ ∃ tolerance diagnostics, (exec increaseQuality e).2 =
      { e with
        tolerance
        session := e.session.withTolerance tolerance
        phase := e.phase.stale
        diagnostics } := by
  suffices Ends increaseQuality e
      (fun _ e' => e' = e ∨ ∃ tolerance diagnostics, e' = { e with
        tolerance, session := e.session.withTolerance tolerance, phase := e.phase.stale, diagnostics })
      (fun _ e' => e' = e ∨ ∃ tolerance diagnostics, e' = { e with
        tolerance, session := e.session.withTolerance tolerance, phase := e.phase.stale, diagnostics })
    from this.always
  unfold increaseQuality
  rw [ends_get]
  dsimp only
  split
  · exact .inl rfl
  · rw [ends_set]
    refine (ends_emit ..).bind ?_ ?_
    · rintro - _ ⟨diagnostics, rfl⟩
      exact .inr ⟨_, diagnostics, rfl⟩
    · rintro - _ rfl
      exact .inr ⟨_, _, rfl⟩

end Engine

end SymSolve
