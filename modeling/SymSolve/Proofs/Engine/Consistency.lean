import SymSolve.Proofs.Engine.Course
import SymSolve.Proofs.Engine.Reached

/-!
# What each phase promises

The phase of an engine tells which of its fields are in use (`Consistent`): without a structure
all of them are blank, with a structure alone there are indices and nothing else, and from the
analysis on the workspaces are `Ample`.

**Theorem (`phases_keep_promises`).** Every engine that a caller can get to keeps the promises of
its phase, whatever the kernel answered and however the calls before it ended. So a buffer is
always long enough for the values, and no workspace gets shorter before the structure is reset.

A call is followed from the captured structure on: `Leads` is a part of it that goes on, `Closes`
one that ends the call.
-/

namespace SymSolve

theorem Phase.analysed_of_ne {p : Phase} (known : p ≠ uninitialized) (old : p ≠ structureKnown) :
    p.Analysed := by
  cases p
  case uninitialized => exact known rfl
  case structureKnown => exact old rfl
  all_goals trivial

theorem Phase.analysed_of_late {p : Phase} (late : p = factorized ∨ p = factorizationStale) :
    p.Analysed := by
  rcases late with rfl | rfl <;> trivial

theorem Phase.eq_of_stale {p q : Phase} (early : q = uninitialized ∨ q = structureKnown)
    (h : p.stale = q) : p = q := by
  cases p <;> rcases early with rfl | rfl <;> first | rfl | cases h

theorem Phase.Analysed.waiting {p : Phase} (h : p.Analysed) (out : p ≠ factorized) : p.Waiting := by
  cases p
  case factorized => exact out rfl
  all_goals exact h

namespace Engine

variable {α σ : Type} [Scalar α]

/-- Nothing is captured. -/
structure Blank (e : Engine α σ) : Prop where
  dim : e.dim = 0
  nonzeros : e.nonzeros = 0
  integers : e.workspace.integers.length = 0
  reals : e.workspace.reals.length = 0
  keep : e.workspace.keep.length = 0
  pending : e.pending = .none
  negative : e.negative = none
  matrixTag : e.matrixTag = 0

/-- A structure is captured, and nothing was made of it. -/
structure Unread (e : Engine α σ) : Prop where
  rows : e.pattern.rows.length = e.nonzeros
  cols : e.pattern.cols.length = e.nonzeros
  reals : e.workspace.reals.length = 0
  pending : e.pending = .none
  negative : e.negative = none

/-- The engine keeps the promises of its phase. -/
structure Consistent (e : Engine α σ) : Prop where
  blank : e.phase = .uninitialized → Blank e
  unread : e.phase = .structureKnown → Unread e
  ample : e.phase.Analysed → Ample e
  pending : e.pending.any → e.phase = .factorized ∨ e.phase = .factorizationStale
  inertia : e.phase = .factorized → e.negative.isSome

variable {k : Nat} {failure : Option String} {m : MatrixView α} {e e' e'' : Engine α σ}

theorem Consistent.of_ample (ample : Ample e) (analysed : e.phase.Analysed)
    (pending : e.pending.any → e.phase = .factorized ∨ e.phase = .factorizationStale)
    (inertia : e.phase = .factorized → e.negative.isSome) : Consistent e where
  blank new := by simp [new, Phase.Analysed] at analysed
  unread new := by simp [new, Phase.Analysed] at analysed
  ample _ := ample
  pending := pending
  inertia := inertia

theorem Consistent.of_unread (unread : Unread e) (phase : e.phase = .structureKnown) :
    Consistent e where
  blank new := by simp [phase] at new
  unread _ := unread
  ample analysed := by simp [phase, Phase.Analysed] at analysed
  pending due := by simp [unread.pending, PendingGrowth.any, PendingGrowth.none] at due
  inertia late := by simp [phase] at late

theorem Consistent.of_blank (blank : Blank e) (phase : e.phase = .uninitialized) :
    Consistent e where
  blank _ := blank
  unread new := by simp [phase] at new
  ample analysed := by simp [phase, Phase.Analysed] at analysed
  pending due := by simp [blank.pending, PendingGrowth.any, PendingGrowth.none] at due
  inertia late := by simp [phase] at late

/-- Once the structure is analysed, nothing but the notes matters. -/
theorem Consistent.of_notes (h : Consistent e) (analysed : e.phase.Analysed)
    (during : During k failure e e') (notes : e'.notes = e.notes) : Consistent e' := by
  have phase : e'.phase = e.phase := congrArg Notes.phase notes
  have pending : e'.pending = e.pending := congrArg Notes.pending notes
  have negative : e'.negative = e.negative := congrArg Notes.negative notes
  refine .of_ample ((h.ample analysed).during during) (phase ▸ analysed) ?_ ?_
  · rw [phase, pending]
    exact h.pending
  · rw [phase, negative]
    exact h.inertia

theorem blank_resetStructure (e : Engine α σ) : Blank e.resetStructure :=
  ⟨rfl, rfl, rfl, rfl, rfl, rfl, rfl, rfl⟩

theorem consistent_resetStructure (e : Engine α σ) : Consistent e.resetStructure :=
  .of_blank (blank_resetStructure e) rfl

theorem consistent_create {memory : Memory} {options : Options α} {kernel : Kernel α σ} {state : σ}
    {solverId : String} {providesInertia : Bool}
    (created : create memory options kernel state solverId providesInertia = .ok e) :
    Consistent e := by
  unfold create at created
  split at created <;> cases created
  exact .of_blank ⟨rfl, rfl, rfl, rfl, rfl, rfl, rfl, rfl⟩ rfl

/-- Factors may go out of date. -/
theorem Consistent.stale (h : Consistent e) (tolerance : α) (session : Session α σ)
    (diagnostics : List (Event α)) :
    Consistent { e with tolerance, session, phase := e.phase.stale, diagnostics } where
  blank new := { h.blank (Phase.eq_of_stale (.inl rfl) new) with }
  unread fresh := { h.unread (Phase.eq_of_stale (.inr rfl) fresh) with }
  ample analysed := { h.ample (Phase.analysed_stale.1 analysed) with }
  pending due := by
    rcases h.pending due with late | late
    · exact .inr (by simp only [late, Phase.stale])
    · exact .inr (by simp only [late, Phase.stale])
  inertia late := absurd late e.phase.stale_ne_factorized

/-! ## Capturing -/

theorem Consistent.captured (h : Consistent e) (paired : m.cols.length = m.rows.length) :
    Consistent (e.captured m) ∧ e.workspace.GrowsTo (e.captured m).workspace := by
  by_cases new : e.phase = .uninitialized
  · have blank := h.blank new
    rw [captured_of_new new]
    refine ⟨.of_unread ⟨?_, ?_, rfl, rfl, rfl⟩ rfl, ?_, ?_, ?_⟩
    · exact List.length_map _
    · exact (List.length_map _).trans paired
    · exact Nat.le_of_eq blank.integers
    · exact Nat.le_of_eq blank.reals
    · exact Nat.le_of_eq blank.keep
  · rw [captured_of_known new]
    exact ⟨⟨fun new => { h.blank new with }, fun fresh => { h.unread fresh with },
      fun analysed => { h.ample analysed with }, h.pending, h.inertia⟩, .refl _⟩

/-! ## Parts of a call -/

/-- A part of the call `k` that goes on. -/
structure Leads (k : Nat) (e e' : Engine α σ) : Prop where
  during : During k none e e'
  consistent : Consistent e → Consistent e'

theorem Leads.refl (e : Engine α σ) : Leads k e e := ⟨.refl e, id⟩

theorem Leads.trans (h : Leads k e e') (h' : Leads k e' e'') : Leads k e e'' :=
  ⟨h.during.trans h'.during, h'.consistent ∘ h.consistent⟩

/-- How the call `k` ends: with an outcome that agrees with the phase and the error, or with a
fault that no report has caused, nor a buffer that was too short. -/
def Closes (k : Nat) (m : MatrixView α) (e : Engine α σ) :
    Except Fault Outcome → Engine α σ → Prop
  | .ok outcome, e' => (∃ failure, Tells outcome e'.phase failure ∧ During k failure e e') ∧
    (Consistent e → Consistent e')
  | .error fault, e' => During k none e e' ∧
    fault.Excused (Consistent e ∧ m.values.length = e.nonzeros) ∧ (Consistent e → Consistent e')

theorem Closes.of_leads {result : Except Fault Outcome} (first : Leads k e e')
    (h : Closes k m e' result e'') : Closes k m e result e'' := by
  cases result with
  | ok outcome =>
    obtain ⟨⟨failure, tells, during⟩, consistent⟩ := h
    exact ⟨⟨failure, tells, first.during.trans during⟩, consistent ∘ first.consistent⟩
  | error fault =>
    obtain ⟨during, excused, consistent⟩ := h
    refine ⟨first.during.trans during, excused.mono ?_, consistent ∘ first.consistent⟩
    exact fun ⟨start, fits⟩ => ⟨first.consistent start, fits.trans first.during.steady.nonzeros.symm⟩

/-- A part of the call `k` that goes on with `holds`, or ends the call with an outcome. -/
def Stage (k : Nat) (m : MatrixView α) (e : Engine α σ) (holds : Engine α σ → Prop) :
    Option Outcome → Engine α σ → Prop
  | none, e' => Leads k e e' ∧ holds e'
  | some outcome, e' => Closes k m e (.ok outcome) e'

theorem Consistent.unread_of_same (h : Consistent e) (phase : e.phase = .structureKnown)
    (during : During k failure e e') (notes : e'.notes = e.notes)
    (reals : e'.workspace.reals = e.workspace.reals) : Consistent e' := by
  have unread := h.unread phase
  have pattern := during.steady.pattern
  have nonzeros := during.steady.nonzeros
  refine .of_unread ⟨?_, ?_, ?_, ?_, ?_⟩ ((congrArg Notes.phase notes).trans phase)
  · rw [pattern, nonzeros, unread.rows]
  · rw [pattern, nonzeros, unread.cols]
  · rw [reals, unread.reals]
  · exact (congrArg Notes.pending notes).trans unread.pending
  · exact (congrArg Notes.negative notes).trans unread.negative

theorem stage_analysis (named : e.solverId ≠ "") (known : e.phase ≠ .uninitialized)
    (m : MatrixView α) :
    Ends (if e.phase = .structureKnown then analyse k else pure none) e
      (Stage k m e fun e' => e'.phase.Analysed) (fun fault => Closes k m e (.error fault)) := by
  split
  · next fresh =>
    refine (analyse_during named).mono ?_ ?_
    · rintro (_ | outcome) e'
      · rintro ⟨during, notes, ample⟩
        have phase : e'.phase = .symbolicDone := congrArg Notes.phase notes
        have pending : e'.pending = e.pending := congrArg Notes.pending notes
        have analysed : e'.phase.Analysed := by rw [phase]; trivial
        refine ⟨⟨during, fun start => .of_ample ample analysed ?_ ?_⟩, analysed⟩
        · rw [pending, (start.unread fresh).pending]
          exact nofun
        · simp [phase]
      · rintro ⟨rfl, during, notes, reals⟩
        have phase : e'.phase = .structureKnown := (congrArg Notes.phase notes).trans fresh
        exact ⟨⟨_, phase ▸ .structureInvalid, during⟩, fun start =>
          start.unread_of_same fresh during notes reals⟩
    · rintro fault e' ⟨broken, reals⟩
      exact ⟨broken.during, broken.excused.mono fun _ => trivial, fun start =>
        start.unread_of_same fresh broken.during broken.notes reals⟩
  · next old =>
    exact ⟨.refl e, Phase.analysed_of_ne known old⟩

theorem leads_noteValues (m : MatrixView α) (analysed : e.phase.Analysed) :
    Leads k e (noteValues m e) ∧ (noteValues m e).phase.Analysed := by
  unfold noteValues
  split
  · have analysed' := Phase.analysed_stale.2 analysed
    refine ⟨⟨(During.refl e).note _ _ _ _, fun start => .of_ample ?_ analysed' ?_ ?_⟩, analysed'⟩
    · exact (start.ample analysed).during ((During.refl (k := k) e).note _ _ _ _)
    · intro due
      rcases start.pending due with late | late
      · exact .inr (by simp only [late, Phase.stale])
      · exact .inr (by simp only [late, Phase.stale])
    · exact fun late => absurd late e.phase.stale_ne_factorized
  · exact ⟨.refl e, analysed⟩

theorem stage_factorize (named : e.solverId ≠ "") (waiting : e.phase.Waiting)
    (m : MatrixView α) :
    Ends (factorize m k) e (Stage k m e fun e' => e'.phase = .factorized)
      (fun fault => Closes k m e (.error fault)) := by
  have analysed := waiting.analysed
  refine (factorize_during named m).mono ?_ ?_
  · rintro (_ | outcome) e' ⟨e₁, grown, cleared, concludes⟩
    · obtain ⟨during, pending, negative, notes⟩ := concludes
      have phase : e'.phase = .factorized := congrArg Notes.phase notes
      have noted : e'.negative = some negative := congrArg Notes.negative notes
      have all := grown.trans during
      refine ⟨⟨all, fun start => .of_ample ((start.ample analysed).during all) ?_ ?_ ?_⟩, phase⟩
      · exact Phase.analysed_of_late (.inl phase)
      · exact fun _ => .inl phase
      · exact fun _ => noted ▸ rfl
    · obtain ⟨failure, tells, during, notes⟩ := concludes
      have phase : e'.phase = .factorizationStale := congrArg Notes.phase notes
      have all := grown.trans during
      refine ⟨⟨failure, phase ▸ tells, all⟩, fun start =>
        .of_ample ((start.ample analysed).during all) ?_ ?_ ?_⟩
      · exact Phase.analysed_of_late (.inr phase)
      · exact fun _ => .inr phase
      · simp [phase]
  · rintro fault e' ⟨e₁, grown, same, broken⟩
    -- the fault may stand before the end of pending growth or after it
    have phase : e₁.phase = e.phase := by
      rcases same with same | same <;> exact congrArg Notes.phase same
    have consistent (start : Consistent e) : Consistent e₁ := by
      rcases same with same | same
      · exact start.of_notes analysed grown same
      · refine .of_ample ((start.ample analysed).during grown) (phase ▸ analysed) ?_ ?_
        · rw [show e₁.pending = .none from congrArg Notes.pending same]
          exact nofun
        · rw [phase]
          exact fun late => absurd late waiting.not_factorized
    refine ⟨grown.trans broken.during, broken.excused.mono ?_, fun start =>
      (consistent start).of_notes (phase ▸ analysed) broken.during broken.notes⟩
    rintro ⟨start, fits⟩
    rw [fits]
    exact Nat.le_trans (start.ample analysed).reals grown.grows.reals

/-- The check of the inertia. -/
theorem stage_demand (named : e.solverId ≠ "") (late : e.phase = .factorized) (m : MatrixView α)
    (demand : InertiaDemand) :
    Ends (checkInertia demand k) e (Stage k m e fun e' => e'.phase = .factorized)
      (fun fault => Closes k m e (.error fault)) := by
  refine ends_checkInertia_of (fun _ => ⟨.refl e, late⟩) fun expected _ _ => ?_
  refine (ends_emitWrongInertia named e.negative expected).mono ?_ (by simp)
  rintro - _ ⟨diagnostics, rfl, reported⟩
  exact ⟨⟨_, late ▸ .wrongInertia, reported⟩, fun start =>
    start.of_notes (Phase.analysed_of_late (.inl late)) reported rfl⟩

theorem Stage.of_leads {holds : Engine α σ → Prop} {outcome : Option Outcome}
    (first : Leads k e e') (h : Stage k m e' holds outcome e'') :
    Stage k m e holds outcome e'' := by
  cases outcome with
  | none => exact ⟨first.trans h.1, h.2⟩
  | some outcome =>
    have closed : Closes k m e' (.ok outcome) e'' := h
    exact closed.of_leads first

theorem stage_prepare (named : e.solverId ≠ "") (m : MatrixView α) (demand : InertiaDemand) :
    Ends (prepare m demand k) e
      (Stage k m (captureIfNew m e) fun e' => e'.phase = .factorized)
      (fun fault => Closes k m (captureIfNew m e) (.error fault)) := by
  have named : (captureIfNew m e).solverId ≠ "" := by
    unfold captureIfNew
    split <;> exact named
  refine ends_prepare_of
    (fun e' => Leads k (captureIfNew m e) e' ∧ e'.phase.Analysed) ?_ ?_ ?_
  · refine (stage_analysis named (captureIfNew_phase m e) m).mono ?_ fun _ _ h => h
    rintro (_ | outcome) e₁ h₁
    · obtain ⟨first, analysed⟩ := h₁
      obtain ⟨noted, analysed⟩ := leads_noteValues (k := k) m analysed
      exact ⟨first.trans noted, analysed⟩
    · exact h₁
  · rintro e₁ ⟨first, analysed⟩
    split
    · next late => exact ⟨first, late⟩
    · next out =>
      have named₁ : e₁.solverId ≠ "" := first.during.steady.solverId ▸ named
      exact (stage_factorize named₁ (analysed.waiting out) m).mono
        (fun _ _ h => h.of_leads first) fun _ _ h => h.of_leads first
  · rintro e₂ ⟨first, late⟩
    exact (stage_demand (first.during.steady.solverId ▸ named) late m demand).mono
      (fun _ _ h => h.of_leads first) fun _ _ h => h.of_leads first

theorem Answers.closes {result : Except Fault Outcome} (late : e.phase = .factorized)
    (m : MatrixView α) (h : Answers k e result e') : Closes k m e result e' := by
  have analysed := Phase.analysed_of_late (.inl late)
  cases result with
  | ok outcome =>
    obtain ⟨failure, tells, during, notes⟩ := h
    have phase : e'.phase = e.phase := congrArg Notes.phase notes
    exact ⟨⟨failure, (phase.trans late) ▸ tells, during⟩, fun start =>
      start.of_notes analysed during notes⟩
  | error fault =>
    exact ⟨h.during, h.excused.mono fun _ => trivial, fun start =>
      start.of_notes analysed h.during h.notes⟩

/-- **How a call ends.** -/
theorem multiSolve_closes (named : e.solverId ≠ "") {rhs solutions : List (DenseVector α)}
    {demand : InertiaDemand} (accepted : e.usageFault? m rhs solutions demand = none) :
    Closes e.solveCount m (e.captured m) (e.multiSolve m rhs solutions demand).1.result
      (e.multiSolve m rhs solutions demand).2 := by
  refine multiSolve_of_prepare
    (fun e₁ => Leads e.solveCount (e.captured m) e₁ ∧ e₁.phase = .factorized)
    (fun answer => Closes e.solveCount m (e.captured m) answer.result) accepted ?_ ?_
  · refine (stage_prepare (e := e.beginCall) named m demand).mono ?_ fun _ _ h => h
    rintro (_ | outcome) e₁ h <;> exact h
  · rintro e₁ ⟨first, late⟩
    have named₁ : e₁.solverId ≠ "" := by
      rw [first.during.steady.solverId]
      exact (solverId_captured m e) ▸ named
    exact ((backsolve_during e.solveCount 0 rhs solutions e₁ named₁).closes late m).of_leads first

/-! ## Whole calls -/

theorem Closes.during {result : Except Fault Outcome} (h : Closes k m e result e') :
    ∃ failure, During k failure e e' := by
  cases result with
  | ok outcome =>
    obtain ⟨⟨failure, -, during⟩, -⟩ := h
    exact ⟨failure, during⟩
  | error fault => exact ⟨none, h.1⟩

theorem Closes.consistent {result : Except Fault Outcome} (h : Closes k m e result e') :
    Consistent e → Consistent e' := by
  cases result with
  | ok outcome => exact h.2
  | error fault => exact h.2.2

theorem Consistent.multiSolve (h : Consistent e) (named : e.solverId ≠ "")
    (paired : m.cols.length = m.rows.length) (rhs solutions : List (DenseVector α))
    (demand : InertiaDemand) :
    let e' := (e.multiSolve m rhs solutions demand).2
    Consistent e' ∧ e.workspace.GrowsTo e'.workspace := by
  cases used : e.usageFault? m rhs solutions demand with
  | some cause =>
    rw [multiSolve_of_rejected used]
    exact ⟨h, .refl _⟩
  | none =>
    have closes := multiSolve_closes named used
    obtain ⟨failure, during⟩ := closes.during
    obtain ⟨captured, grown⟩ := h.captured paired
    exact ⟨closes.consistent captured, grown.trans during.grows⟩

/-- An analysed structure stays so in every call. -/
theorem analysed_multiSolve (named : e.solverId ≠ "") (analysed : e.phase.Analysed)
    {rhs solutions : List (DenseVector α)} {demand : InertiaDemand}
    (accepted : e.usageFault? m rhs solutions demand = none) :
    (e.multiSolve m rhs solutions demand).2.phase.Analysed := by
  let Kept (e' : Engine α σ) : Prop := e'.phase.Analysed ∧ e'.solverId ≠ ""
  have known : e.beginCall.phase ≠ .uninitialized := fun new => by
    have analysed : e.beginCall.phase.Analysed := analysed
    rw [new] at analysed
    exact analysed
  have prepared : Ends (prepare m demand e.solveCount) e.beginCall (fun _ => Kept) (fun _ => Kept) := by
    refine ends_prepare_of Kept ?_ (fun e₁ h₁ => ?_) fun e₂ h₂ => ?_
    · rw [captureIfNew_of_ne known, if_neg fun fresh => by
        have analysed : e.beginCall.phase.Analysed := analysed
        rw [fresh] at analysed
        exact analysed]
      obtain ⟨noted, analysed⟩ := leads_noteValues (k := 0) (e := e.beginCall) m analysed
      exact ⟨analysed, noted.during.steady.solverId ▸ named⟩
    · split
      · exact h₁
      · refine (factorize_during (k := e.solveCount) h₁.2 m).mono ?_ ?_
        · rintro (_ | outcome) e₂ ⟨e₃, grown, -, concludes⟩
          · obtain ⟨during, _, _, notes⟩ := concludes
            have late : e₂.phase = .factorized := congrArg Notes.phase notes
            exact ⟨Phase.analysed_of_late (.inl late), (grown.trans during).steady.solverId ▸ h₁.2⟩
          · obtain ⟨_, -, during, notes⟩ := concludes
            have late : e₂.phase = .factorizationStale := congrArg Notes.phase notes
            exact ⟨Phase.analysed_of_late (.inr late), (grown.trans during).steady.solverId ▸ h₁.2⟩
        · rintro fault e₂ ⟨e₃, grown, same, broken⟩
          have phase : e₂.phase = e₁.phase := by
            rw [show e₂.phase = e₃.phase from congrArg Notes.phase broken.notes]
            rcases same with same | same <;> exact congrArg Notes.phase same
          exact ⟨phase ▸ h₁.1, (grown.trans broken.during).steady.solverId ▸ h₁.2⟩
    · refine (ends_checkInertia demand e.solveCount e₂).mono ?_ ?_
      · rintro - _ ⟨diagnostics, rfl⟩
        exact h₂
      · rintro - _ rfl
        exact h₂
  refine multiSolve_of_prepare Kept (fun _ e' => e'.phase.Analysed) accepted ?_
    fun e₁ h₁ => ?_
  · refine prepared.mono ?_ fun _ _ h => h.1
    rintro (_ | outcome) e₁ h
    · exact h
    · exact h.1
  · have answers := backsolve_during e.solveCount 0 rhs solutions e₁ h₁.2
    have notes : (backsolve e.solveCount 0 rhs solutions e₁).2.notes = e₁.notes := by
      generalize (backsolve e.solveCount 0 rhs solutions e₁).1.result = result at answers
      cases result with
      | ok outcome =>
        obtain ⟨_, -, -, notes⟩ := answers
        exact notes
      | error fault => exact answers.notes
    rw [show (backsolve e.solveCount 0 rhs solutions e₁).2.phase = e₁.phase from
      congrArg Notes.phase notes]
    exact h₁.1

/-- The engines were made with the same. -/
structure SameMake (e e' : Engine α σ) : Prop where
  memory : e'.memory = e.memory
  options : e'.options = e.options
  solverId : e'.solverId = e.solverId
  providesInertia : e'.providesInertia = e.providesInertia

theorem SameMake.refl (e : Engine α σ) : SameMake e e := ⟨rfl, rfl, rfl, rfl⟩

theorem SameMake.trans (h : SameMake e e') (h' : SameMake e' e'') : SameMake e e'' :=
  ⟨h'.memory.trans h.memory, h'.options.trans h.options, h'.solverId.trans h.solverId,
    h'.providesInertia.trans h.providesInertia⟩

theorem Steady.sameMake (h : Steady e e') : SameMake e e' :=
  ⟨h.memory, h.options, h.solverId, h.providesInertia⟩

theorem sameMake_captured (m : MatrixView α) (e : Engine α σ) : SameMake e (e.captured m) := by
  unfold captured captureIfNew
  split <;> exact ⟨rfl, rfl, rfl, rfl⟩

/-- A call changes nothing that the engine was made with, and no control word. -/
theorem made_multiSolve (named : e.solverId ≠ "") (m : MatrixView α)
    (rhs solutions : List (DenseVector α)) (demand : InertiaDemand) :
    let e' := (e.multiSolve m rhs solutions demand).2
    SameMake e e' ∧ e'.session.kernel = e.session.kernel ∧
      e'.session.controls = e.session.controls ∧ e'.tolerance = e.tolerance := by
  cases used : e.usageFault? m rhs solutions demand with
  | some cause =>
    rw [multiSolve_of_rejected used]
    exact ⟨.refl e, rfl, rfl, rfl⟩
  | none =>
    obtain ⟨failure, during⟩ := (multiSolve_closes named used).during
    have steady := during.steady
    have session := session_captured m e
    exact ⟨(sameMake_captured m e).trans steady.sameMake,
      steady.kernel.trans (congrArg Session.kernel session),
      steady.controls.trans (congrArg Session.controls session),
      steady.tolerance.trans (tolerance_captured m e)⟩

theorem nonzeros_captured {rhs solutions : List (DenseVector α)} {demand : InertiaDemand}
    (accepted : Accepted e m rhs solutions demand) : (e.captured m).nonzeros = m.nonzeros := by
  by_cases new : e.phase = .uninitialized
  · rw [captured_of_new new]
    rfl
  · rw [captured_of_known new]
    exact (accepted.sameCount new).symm

/-- A call never finds the buffer too short for the values. -/
theorem Consistent.fits (h : Consistent e) (named : e.solverId ≠ "")
    (paired : m.cols.length = m.rows.length) (counted : m.values.length = m.nonzeros)
    (rhs solutions : List (DenseVector α)) (demand : InertiaDemand) :
    (e.multiSolve m rhs solutions demand).1.result ≠ .error (.view .shortOutput) := by
  intro short
  cases used : e.usageFault? m rhs solutions demand with
  | some cause =>
    rw [multiSolve_of_rejected used] at short
    cases short
  | none =>
    have closes := multiSolve_closes named used
    rw [short] at closes
    have fits := counted.trans (nonzeros_captured (usageFault?_eq_none.1 used)).symm
    exact closes.2.1 ⟨(h.captured paired).1, fits⟩

end Engine

/-! ## Whole runs -/

namespace World

variable {α σ : Type} [RealScalar α] [Printable α] {w : World α σ}

/-- The engine has a name, calls its kernel with the present tolerance, and keeps the promises of
its phase. -/
structure Regular (k : Kernel α σ) (w : World α σ) : Prop where
  named : w.engine.solverId ≠ ""
  kernel : w.engine.session.kernel = k
  controls : w.engine.session.controls = k.defaultControls.withTolerance w.engine.tolerance
  consistent : w.engine.Consistent

variable {k : Kernel α σ}

omit [Printable α] in
theorem Regular.turns (h : w.Regular k) {action : Action α} {e : Engine α σ}
    (turns : w.Turns action e) :
    Regular k { w with engine := e } ∧ w.engine.SameMake e ∧
      (action ≠ .resetStructure → w.engine.workspace.GrowsTo e.workspace) := by
  cases turns with
  | idle => exact ⟨h, .refl _, fun _ => .refl _⟩
  | @solve place A rhs solutions demand found accepted =>
    obtain ⟨consistent, grown⟩ := h.consistent.multiSolve (m := A.view) h.named
      (by simp [SymTriplets.view]) rhs solutions demand
    obtain ⟨made, kernel, controls, tolerance⟩ := Engine.made_multiSolve h.named A.view rhs
      solutions demand
    refine ⟨⟨made.solverId ▸ h.named, kernel.trans h.kernel, ?_, consistent⟩, made, fun _ => grown⟩
    exact controls.trans (tolerance ▸ h.controls)
  | raise tolerance diagnostics =>
    refine ⟨⟨h.named, h.kernel, ?_, h.consistent.stale ..⟩, ⟨rfl, rfl, rfl, rfl⟩, fun _ => .refl _⟩
    simp only [Session.withTolerance, h.controls, Controls.withTolerance, Vector.set_set]
  | reset =>
    exact ⟨⟨h.named, h.kernel, h.controls, Engine.consistent_resetStructure _⟩,
      ⟨rfl, rfl, rfl, rfl⟩, fun other => absurd rfl other⟩

theorem Regular.step (h : w.Regular k) (action : Action α) :
    (w.step action).Regular k ∧ w.engine.SameMake (w.step action).engine ∧
      (action ≠ .resetStructure → w.engine.workspace.GrowsTo (w.step action).engine.workspace) := by
  obtain ⟨regular, made, grown⟩ := h.turns (w.step_turns action)
  exact ⟨{ regular with }, made, grown⟩

/-- Whatever a caller does, an engine stays regular, and what it was made with never changes. -/
theorem Regular.run (h : w.Regular k) (actions : List (Action α)) :
    (w.run actions).Regular k ∧ w.engine.SameMake (w.run actions).engine ∧
      (.resetStructure ∉ actions →
        w.engine.workspace.GrowsTo (w.run actions).engine.workspace) := by
  induction actions generalizing w with
  | nil => exact ⟨h, .refl _, fun _ => .refl _⟩
  | cons action actions ih =>
    obtain ⟨next, made, grown⟩ := h.step action
    obtain ⟨last, made', grown'⟩ := ih next
    refine ⟨last, made.trans made', fun kept => (grown fun reset => ?_).trans
      (grown' fun reset => kept (List.mem_cons_of_mem _ reset))⟩
    exact kept (reset ▸ List.mem_cons_self)

omit [Printable α] in
theorem regular_start {memory : Memory} {options : Options α} {state : σ} {solverId : String}
    {providesInertia : Bool} {e : Engine α σ}
    (created : Engine.create memory options k state solverId providesInertia = .ok e)
    (tags : TagSource) : (start e tags).Regular k := by
  have consistent := Engine.consistent_create created
  unfold Engine.create at created
  split at created
  · cases created
  · next named =>
    cases created
    exact ⟨named, rfl, rfl, consistent⟩

theorem Arises.regular (h : w.Arises k) : w.Regular k := by
  obtain ⟨memory, options, state, solverId, providesInertia, e, tags, actions, created, rfl⟩ := h
  exact ((regular_start created tags).run actions).1

end World

variable {α σ : Type} [RealScalar α] [Printable α]

/-- **Every phase keeps its promises**, and no workspace gets shorter before a reset. -/
theorem phases_keep_promises {k : Kernel α σ} {w : World α σ} (arises : w.Arises k) :
    w.engine.Consistent ∧
      (w.engine.phase.Analysed → ∀ m : MatrixView α, m.values.length = w.engine.nonzeros →
        ∃ filled, m.fill w.engine.workspace.reals.words = .ok filled) ∧
      (∀ (A : SymTriplets α) (rhs solutions : List (DenseVector α)) (demand : InertiaDemand),
        (w.engine.multiSolve A.view rhs solutions demand).1.result ≠
          .error (.view .shortOutput)) ∧
      ∀ since, .resetStructure ∉ since →
        w.engine.workspace.GrowsTo (w.run since).engine.workspace := by
  have regular := arises.regular
  refine ⟨regular.consistent, fun analysed m counted => ?_, fun A rhs solutions demand => ?_,
    fun since kept => (regular.run since).2.2 kept⟩
  · have long := (regular.consistent.ample analysed).reals
    exact ⟨_, MatrixView.fill_of_le (Nat.le_trans (Nat.le_of_eq counted) long)⟩
  · exact regular.consistent.fits regular.named (by simp [SymTriplets.view]) A.length_values rhs
      solutions demand

/-- A caller who solved with the matrix with the entry 2. -/
def solvedWorld : World ℚ (Recorded ℚ (Script ℚ)) :=
  (World.start (scriptedEngine ⟨[], [], []⟩) ⟨0⟩).run [
    .ofTriplets 1 [0] [0] (some [2]), .multiSolve 0 [⟨[1]⟩] [⟨[0]⟩] none]

theorem phases_keep_promises_solved :
    solvedWorld.engine.phase = .factorized ∧ solvedWorld.engine.negative.isSome ∧
      (∃ filled, (⟨1, [0], [0], [3], 2⟩ : MatrixView ℚ).fill
        solvedWorld.engine.workspace.reals.words = .ok filled) ∧
      solvedWorld.engine.workspace.GrowsTo
        (solvedWorld.run [.setValues 0 [3], .multiSolve 0 [⟨[1]⟩] [⟨[0]⟩] none]).engine.workspace := by
  have late : solvedWorld.engine.phase = .factorized := by decide +kernel
  have arises : solvedWorld.Arises scripted.recorded :=
    ⟨_, _, ⟨⟨[], [], []⟩, []⟩, _, _, scriptedEngine _, ⟨0⟩, _, create_exactEngine .., rfl⟩
  obtain ⟨consistent, fills, -, grows⟩ := phases_keep_promises arises
  refine ⟨late, consistent.inertia late, fills ?_ _ (by decide +kernel), grows _ ?_⟩
  · rw [late]
    trivial
  · simp

end SymSolve
