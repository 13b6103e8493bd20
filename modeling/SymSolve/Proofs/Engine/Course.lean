import SymSolve.Proofs.Engine.Upkeep

/-!
# The course of a call

What the steps of a call do to an engine whatever the kernel answers, and also when the kernel
breaks down: `During k failure e e'` says that the call with the number `k` has taken the engine
from `e` to `e'`. Workspaces have only grown, the reports are warnings of this call, and at most
one error with the code `failure` stands after them. `Engine.notes` are all that a call may
overwrite; each step says what it makes of them.

A call that breaks off with a fault has reported no error (`Breaks`). It never breaks off because
of a report, and never because of a buffer that is long enough for the values.
-/

namespace SymSolve

/-- No workspace has become shorter. -/
structure Workspace.GrowsTo {α : Type} (w w' : Workspace α) : Prop where
  integers : w.integers.length ≤ w'.integers.length
  reals : w.reals.length ≤ w'.reals.length
  keep : w.keep.length ≤ w'.keep.length

namespace Workspace.GrowsTo

variable {α : Type} {w w' w'' : Workspace α}

theorem refl (w : Workspace α) : w.GrowsTo w := ⟨Nat.le_refl _, Nat.le_refl _, Nat.le_refl _⟩

theorem trans (h : w.GrowsTo w') (h' : w'.GrowsTo w'') : w.GrowsTo w'' :=
  ⟨Nat.le_trans h.integers h'.integers, Nat.le_trans h.reals h'.reals,
    Nat.le_trans h.keep h'.keep⟩

theorem grow_integers (w : Workspace α) (n : Nat) :
    w.GrowsTo { w with integers := w.integers.grow n } :=
  ⟨by simp only [Buffer.length_grow]; omega, Nat.le_refl _, Nat.le_refl _⟩

theorem grow_reals [OfNat α 0] (w : Workspace α) (n : Nat) :
    w.GrowsTo { w with reals := w.reals.grow n } :=
  ⟨Nat.le_refl _, by simp only [Buffer.length_grow]; omega, Nat.le_refl _⟩

theorem grow_keep (w : Workspace α) (n : Nat) : w.GrowsTo { w with keep := w.keep.grow n } :=
  ⟨Nat.le_refl _, Nat.le_refl _, by simp only [Buffer.length_grow]; omega⟩

end Workspace.GrowsTo

/-- The event is of that severity and belongs to the call `k`. -/
structure Event.Belongs {α : Type} (k : Nat) (severity : Severity) (event : Event α) : Prop where
  severity : event.severity = severity
  solveIndex : event.solveIndex = some k

/-- The call `k` has added warnings, and one error with the code `failure` if there is one. -/
def Reported {α : Type} (k : Nat) (failure : Option String) (before after : List (Event α)) : Prop :=
  ∃ warnings, ∃ error : Option (Event α), after = before ++ (warnings ++ error.toList) ∧
    (∀ event ∈ warnings, event.Belongs k .warning) ∧ (∀ event ∈ error, event.Belongs k .error) ∧
    error.map Event.code = failure

theorem Reported.trans {α : Type} {k : Nat} {failure : Option String}
    {before between after : List (Event α)} (h : Reported k none before between)
    (h' : Reported k failure between after) : Reported k failure before after := by
  obtain ⟨warnings, error, rfl, warn, -, quiet⟩ := h
  obtain ⟨more, last, rfl, warn', fail, code⟩ := h'
  obtain rfl := Option.map_eq_none_iff.1 quiet
  refine ⟨warnings ++ more, last, by simp, fun event hevent => ?_, fail, code⟩
  rcases List.mem_append.1 hevent with hevent | hevent
  · exact warn event hevent
  · exact warn' event hevent

/-- What a report with that code makes the failure of a call. -/
def Severity.failure? (code : String) : Severity → Option String
  | error => some code
  | warning => none

/-- The call `k` has listed attempts. -/
def Listed {α : Type} (k : Nat) (before after : List (AttemptRecord α)) : Prop :=
  ∃ records, after = before ++ records ∧ ∀ r ∈ records, r.solveIndex = k

theorem Listed.trans {α : Type} {k : Nat} {before between after : List (AttemptRecord α)}
    (h : Listed k before between) (h' : Listed k between after) : Listed k before after := by
  obtain ⟨records, rfl, own⟩ := h
  obtain ⟨more, rfl, own'⟩ := h'
  refine ⟨records ++ more, List.append_assoc .., fun r hr => ?_⟩
  rcases List.mem_append.1 hr with hr | hr
  · exact own r hr
  · exact own' r hr

theorem PendingGrowth.eq_none {p : PendingGrowth} (idle : p.any = false) : p = .none := by
  obtain ⟨_ | _, _ | _⟩ := p <;> first | rfl | cases idle

/-- What an engine notes about the matrix and its factors. -/
structure Notes where
  phase : Phase
  matrixTag : Nat
  pending : PendingGrowth
  negative : Option Int

/-- No step finds the engine used wrongly, a report never fails, and filling a buffer fails only if
the values do not fit. -/
def Fault.Excused (fits : Prop) : Fault → Prop
  | .event _ | .usage _ => False
  | .view .shortOutput => ¬ fits
  | _ => True

theorem Fault.Excused.mono {fits fits' : Prop} (h : fits' → fits) {fault : Fault}
    (excused : fault.Excused fits) : fault.Excused fits' := by
  unfold Excused at *
  split at excused
  · exact excused
  · exact excused
  · exact fun fit => excused (h fit)
  · trivial

namespace Engine

variable {α σ : Type} [Scalar α]

/-- The notes that a call may overwrite. -/
def notes (e : Engine α σ) : Notes := ⟨e.phase, e.matrixTag, e.pending, e.negative⟩

/-- The integer workspace that an analysis starts with. -/
def analysisLength (e : Engine α σ) : Except Unbounded Int :=
  scaledLength e.options.analysisOverestimate (2 * (e.nonzeros : Int) + 3 * e.dim + 1)

/-- The workspaces are as long as an analysis makes them at least. -/
structure Ample (e : Engine α σ) : Prop where
  reals : e.nonzeros ≤ e.workspace.reals.length
  keep : 3 * e.dim ≤ e.workspace.keep.length
  integers : ∃ n, e.analysisLength = .ok n ∧ n ≤ e.workspace.integers.length

/-- The call `k` takes the engine from `e` to `e'` and has reported an error with the code
`failure`, if any. -/
structure During (k : Nat) (failure : Option String) (e e' : Engine α σ) : Prop where
  steady : Steady e e'
  grows : e.workspace.GrowsTo e'.workspace
  reported : Reported k failure e.diagnostics e'.diagnostics
  listed : Listed k e.trace e'.trace

variable {k : Nat} {failure : Option String} {m : MatrixView α} {e e' e'' : Engine α σ}

theorem Steady.dim (h : Steady e e') : e'.dim = e.dim := congrArg Pattern.dim h.pattern

theorem Steady.analysisLength (h : Steady e e') : e'.analysisLength = e.analysisLength := by
  simp only [Engine.analysisLength, h.dim, h.nonzeros, h.options]

theorem During.refl (e : Engine α σ) : During k none e e :=
  ⟨.refl e, .refl _, ⟨[], none, by simp⟩, ⟨[], by simp⟩⟩

theorem During.trans (h : During k none e e') (h' : During k failure e' e'') :
    During k failure e e'' :=
  ⟨h.steady.trans h'.steady, h.grows.trans h'.grows, h.reported.trans h'.reported,
    h.listed.trans h'.listed⟩

theorem During.ample (h : During k failure e e') {n : Int} (length : e.analysisLength = .ok n)
    (integers : n ≤ e'.workspace.integers.length) (reals : e.nonzeros ≤ e'.workspace.reals.length)
    (keep : 3 * e.dim ≤ e'.workspace.keep.length) : Ample e' where
  reals := h.steady.nonzeros ▸ reals
  keep := h.steady.dim ▸ keep
  integers := ⟨n, h.steady.analysisLength.trans length, integers⟩

theorem Ample.during (h : Ample e) (during : During k failure e e') : Ample e' := by
  obtain ⟨n, length, enough⟩ := h.integers
  exact during.ample length (Int.le_trans enough (Int.ofNat_le.2 during.grows.integers))
    (Nat.le_trans h.reals during.grows.reals)
    (Int.le_trans h.keep (Int.ofNat_le.2 during.grows.keep))

/-- Workspaces are replaced by longer ones. -/
theorem During.replace (h : During k none e e') {workspace : Workspace α}
    (longer : e'.workspace.GrowsTo workspace) : During k none e { e' with workspace } :=
  ⟨{ h.steady with }, h.grows.trans longer, h.reported, h.listed⟩

/-- Notes are overwritten. -/
theorem During.note (h : During k failure e e') (phase : Phase) (matrixTag : Nat)
    (pending : PendingGrowth) (negative : Option Int) :
    During k failure e { e' with phase, matrixTag, pending, negative } :=
  ⟨{ h.steady with }, h.grows, h.reported, h.listed⟩

theorem During.noted {phase : Phase} {matrixTag : Nat} {pending : PendingGrowth}
    {negative : Option Int}
    (h : During k failure { e with phase, matrixTag, pending, negative } e') :
    During k failure e e' :=
  ⟨{ h.steady with }, h.grows, h.reported, h.listed⟩

/-- The call `k` breaks off with a fault. `fits` says that the values fit into the buffer. -/
structure Breaks (k : Nat) (fits : Prop) (e : Engine α σ) (fault : Fault) (e' : Engine α σ) :
    Prop where
  during : During k none e e'
  excused : fault.Excused fits
  notes : e'.notes = e.notes

variable {fits fits' : Prop} {fault : Fault}

theorem Breaks.mono (h : Breaks k fits e fault e') (weaker : fits' → fits) :
    Breaks k fits' e fault e' := { h with excused := h.excused.mono weaker }

/-! ## Reports -/

/-- What a report with a code of the catalog adds is settled by what is reported. -/
theorem exec_emit_plain {code message : String} {severity : Severity} {attemptIndex : Option Nat}
    {fields : List (String × Payload α)}
    (graded : (Catalog.canonical.find? code).map CatalogEntry.severity = some severity)
    (text : message ≠ "") (plain : ∀ field ∈ fields, ∃ v, field.2.normalize = .ok v) :
    ∃ entry witness, entry.code = code ∧ entry.severity = severity ∧
      ∀ (k : Nat) (e : Engine α σ), e.solverId ≠ "" →
        exec (emit code message (some k) attemptIndex fields) e =
          (.ok (), { e with diagnostics := e.diagnostics ++
            [.ofEntry entry ⟨message, e.solverId, some k, attemptIndex, witness⟩] }) := by
  obtain ⟨entry, found, rfl⟩ := Option.map_eq_some_iff.1 graded
  have same : entry.code = code := by simpa using List.find?_some found
  obtain ⟨entry', found', same', code', action⟩ := Catalog.find?_of_mem_codes
    (List.mem_map.2 ⟨entry, List.mem_of_find?_eq_some found, same⟩)
  obtain rfl : entry' = entry := by
    rw [same', found] at found'
    exact (Option.some.inj found').symm
  subst same
  obtain ⟨witness, evidence⟩ := Payload.exists_normalize_ofFields plain
  exact ⟨entry', witness, rfl, rfl, fun k e named =>
    exec_emit entry' found code' action text named (fun _ => rfl) evidence⟩

theorem ends_emit_graded {code message : String} {attemptIndex : Option Nat}
    {fields : List (String × Payload α)} (severity : Severity)
    (graded : (Catalog.canonical.find? code).map CatalogEntry.severity = some severity)
    (text : message ≠ "") (named : e.solverId ≠ "")
    (plain : ∀ field ∈ fields, ∃ v, field.2.normalize = .ok v) :
    Ends (emit code message (some k) attemptIndex fields) e
      (fun _ e' => ∃ diagnostics, e' = { e with diagnostics } ∧
        During k (severity.failure? code) e e')
      (fun _ _ => False) := by
  obtain ⟨entry, witness, rfl, rfl, run⟩ := exec_emit_plain (σ := σ) graded text plain
  refine (ends_of_ok (run k e named)).2
    ⟨_, rfl, { Steady.refl e with }, .refl _, ?_, ⟨[], by simp⟩⟩
  cases grave : entry.severity with
  | error =>
    refine ⟨[], some _, rfl, by simp, ?_, rfl⟩
    rintro _ ⟨⟩
    exact ⟨grave, rfl⟩
  | warning =>
    refine ⟨[_], none, rfl, ?_, by simp, rfl⟩
    simpa using ⟨grave, rfl⟩

theorem ends_emitWrongInertia (named : e.solverId ≠ "") (found : Option Int) (expected : Int) :
    Ends (emitWrongInertia found expected k) e
      (fun _ e' => ∃ diagnostics, e' = { e with diagnostics } ∧
        During k (some "E_LIN_WRONG_INERTIA") e e')
      (fun _ _ => False) := by
  unfold emitWrongInertia
  refine ends_emit_graded .error (by decide +kernel) (by simp [toString]) named ?_
  cases found <;> simp [Payload.normalize]

/-! ## Analysis -/

theorem During.after_analysis (h : During k none e e') : During k none e e'.afterAnalysis where
  steady := h.steady.trans { Steady.refl e' with }
  grows := h.grows.trans
    ⟨Nat.le_of_eq (Session.size_analyse_iw ..).symm, Nat.le_refl _,
      Nat.le_of_eq (Session.size_analyse_keep ..).symm⟩
  reported := h.reported
  listed := h.listed

/-- The analysis leaves the real workspace alone until it is done. -/
theorem analyse_during (named : e.solverId ≠ "") :
    Ends (analyse k) e
      (fun refused e' => match refused with
        | none => During k none e e' ∧ e'.notes = { e.notes with phase := .symbolicDone } ∧ Ample e'
        | some outcome => outcome = .fatalError ∧ During k (some "E_LIN_STRUCTURE_INVALID") e e' ∧
          e'.notes = e.notes ∧ e'.workspace.reals = e.workspace.reals)
      (fun fault e' => Breaks k True e fault e' ∧ e'.workspace.reals = e.workspace.reals) := by
  unfold analyse
  rw [ends_get]
  refine ends_lengthOrFault (fun n length => ?_) fun _ _ => ⟨⟨.refl e, trivial, rfl⟩, rfl⟩
  refine ends_ensureIntegers ?_ fun _ _ => ⟨⟨.refl e, trivial, rfl⟩, rfl⟩
  have integers := (During.refl (k := k) e).replace (.grow_integers _ n.toNat)
  refine ends_ensureKeep ?_ fun _ _ => ⟨⟨integers, trivial, rfl⟩, rfl⟩
  let e₁ : Engine α σ := { e with workspace := { e.workspace with
    integers := e.workspace.integers.grow n.toNat
    keep := e.workspace.keep.grow (3 * e.dim).toNat } }
  show Ends _ e₁ _ _
  have grown : During k none e e₁ := integers.replace (.grow_keep _ (3 * e.dim).toNat)
  have long : n ≤ e₁.workspace.integers.length ∧ 3 * e.dim ≤ e₁.workspace.keep.length := by
    simp only [e₁, Buffer.length_grow]
    omega
  have same : e₁.notes = e.notes ∧ e₁.workspace.reals = e.workspace.reals := ⟨rfl, rfl⟩
  -- from here on the call is followed by what is known of `e₁`
  clear_value e₁
  have called := (During.refl (k := k) e₁).after_analysis
  have same : e₁.afterAnalysis.notes = e.notes ∧
      e₁.afterAnalysis.workspace.reals = e.workspace.reals := same
  refine ends_callAnalysis (fun result _ => ?_) fun _ _ =>
    ⟨⟨grown.trans called, trivial, same.1⟩, same.2⟩
  generalize e₁.afterAnalysis = e₂ at called same
  split
  · refine ends_lengthOrFault (fun n' _ => ?_) fun _ _ =>
      ⟨⟨grown.trans called, trivial, same.1⟩, same.2⟩
    refine ends_ensureIntegers ?_ fun _ _ =>
      ⟨⟨grown.trans called, trivial, same.1⟩, same.2⟩
    have more := called.replace (.grow_integers _ n'.toNat)
    refine ends_lengthOrFault (fun reals _ => ?_) fun _ _ =>
      ⟨⟨grown.trans more, trivial, same.1⟩, same.2⟩
    refine ends_ensureReals ?_ fun _ _ =>
      ⟨⟨grown.trans more, trivial, same.1⟩, same.2⟩
    rw [ends_modify]
    have all := more.replace (.grow_reals _ (max (e.nonzeros : Int) reals).toNat)
    have during := grown.trans (all.note .symbolicDone e₂.matrixTag e₂.pending e₂.negative)
    refine ⟨during, congrArg (fun notes : Notes => { notes with phase := .symbolicDone }) same.1,
      during.ample length (Int.le_trans long.1 (Int.ofNat_le.2 all.grows.integers)) ?_
        (Int.le_trans long.2 (Int.ofNat_le.2 all.grows.keep))⟩
    simp only [Buffer.length_grow]
    omega
  · refine (ends_emit_graded .error (by decide +kernel) (by simp [toString])
      ((grown.trans called).steady.solverId ▸ named) (by simp [Payload.normalize])).bind ?_ (by simp)
    rintro - _ ⟨diagnostics, rfl, reported⟩
    exact ⟨rfl, (grown.trans called).trans reported, same⟩

/-! ## Growth -/

/-- The call `k` takes the engine from `e` to `e'` without an error, and the notes stay. -/
structure Proceeds (k : Nat) (e e' : Engine α σ) : Prop where
  during : During k none e e'
  notes : e'.notes = e.notes

theorem Proceeds.refl (e : Engine α σ) : Proceeds k e e := ⟨.refl e, rfl⟩

theorem Proceeds.trans (h : Proceeds k e e') (h' : Proceeds k e' e'') : Proceeds k e e'' :=
  ⟨h.during.trans h'.during, h'.notes.trans h.notes⟩

theorem Proceeds.replace (h : Proceeds k e e') {workspace : Workspace α}
    (longer : e'.workspace.GrowsTo workspace) : Proceeds k e { e' with workspace } :=
  ⟨h.during.replace longer, h.notes⟩

theorem Proceeds.breaks (h : Proceeds k e e') (excused : fault.Excused fits) :
    Breaks k fits e fault e' := ⟨h.during, excused, h.notes⟩

theorem Breaks.trans (first : Proceeds k e e') (h : Breaks k fits e' fault e'') :
    Breaks k fits e fault e'' :=
  ⟨first.during.trans h.during, h.excused, h.notes.trans first.notes⟩

theorem ends_emitReallocated (named : e.solverId ≠ "") (cause : String) (attemptIndex : Option Nat)
    (before after : Workspace α) {more : List (String × Payload α)}
    (plain : ∀ field ∈ more, ∃ v, field.2.normalize = .ok v) :
    Ends (emitReallocated cause k attemptIndex before after more) e (fun _ => Proceeds k e)
      (fun _ _ => False) := by
  unfold emitReallocated
  refine (ends_emit_graded .warning (by decide +kernel) (by simp [toString]) named ?_).mono ?_
    fun _ _ h => h
  · simp only [List.cons_append, List.nil_append, List.forall_mem_cons]
    exact ⟨⟨_, rfl⟩, ⟨_, rfl⟩, plain⟩
  · rintro - _ ⟨diagnostics, rfl, reported⟩
    exact ⟨reported, rfl⟩

theorem growReals_during (e₁ : Engine α σ) :
    Ends (growReals e₁) e (fun _ => Proceeds k e) (Breaks k True e) := by
  unfold growReals
  split
  · refine ends_lengthOrFault (fun n _ => ?_) fun _ _ => (Proceeds.refl e).breaks trivial
    rw [← bind_pure (ensureReals n)]
    exact ends_ensureReals ((Proceeds.refl e).replace (.grow_reals _ _)) fun _ _ =>
      (Proceeds.refl e).breaks trivial
  · exact Proceeds.refl e

theorem growIntegers_during (e₁ : Engine α σ) :
    Ends (growIntegers e₁) e (fun _ => Proceeds k e) (Breaks k True e) := by
  unfold growIntegers
  split
  · refine ends_lengthOrFault (fun n _ => ?_) fun _ _ => (Proceeds.refl e).breaks trivial
    rw [← bind_pure (ensureIntegers n)]
    exact ends_ensureIntegers ((Proceeds.refl e).replace (.grow_integers _ _)) fun _ _ =>
      (Proceeds.refl e).breaks trivial
  · exact Proceeds.refl e

theorem settleGrowth_during (named : e.solverId ≠ "") (before : Workspace α) :
    Ends (settleGrowth k before) e
      (fun _ e' => During k none e e' ∧ e'.notes = { e.notes with pending := .none })
      (fun _ _ => False) := by
  unfold settleGrowth
  rw [ends_modify, ends_get]
  refine (ends_emitReallocated (by exact named) _ _ _ _ (by simp)).mono ?_ fun _ _ h => h
  exact fun _ e' reported => ⟨reported.during.noted, reported.notes⟩

theorem applyPendingGrowth_during (named : e.solverId ≠ "") :
    Ends (applyPendingGrowth k) e
      (fun _ e' => During k none e e' ∧ e'.notes = { e.notes with pending := .none })
      (Breaks k True e) := by
  rw [applyPendingGrowth_eq, ends_get]
  split
  · refine (growReals_during e).bind (fun _ e₁ reals => ?_) fun _ _ h => h
    refine (growIntegers_during e).bind (fun _ e₂ integers => ?_) fun _ _ h => .trans reals h
    have grown := reals.trans integers
    refine (settleGrowth_during (grown.during.steady.solverId ▸ named) _).mono ?_ (by simp)
    rintro - e₃ ⟨settled, cleared⟩
    exact ⟨grown.during.trans settled, cleared.trans (grown.notes ▸ rfl)⟩
  · next idle =>
    exact ⟨.refl e, by simp [notes, PendingGrowth.eq_none (by simpa using idle)]⟩

/-! ## Attempts -/

theorem proceeds_afterFactorization (fits : m.values.length ≤ e.workspace.reals.length) :
    Proceeds k e (e.afterFactorization m) := by
  have filled := length_of_fill (MatrixView.fill_of_le fits)
  refine ⟨⟨{ Steady.refl e with }, ⟨?_, ?_, ?_⟩, ⟨[], none, by simp [afterFactorization]⟩,
    ⟨[], by simp [afterFactorization]⟩⟩, rfl⟩
  · exact Nat.le_of_eq (Session.size_factorize_iw ..).symm
  · exact Nat.le_of_eq (filled.symm.trans (Session.size_factorize_a ..).symm)
  · exact Nat.le_of_eq (Vector.size_toArray _).symm

/-- An attempt hands the buffers to the kernel, and is listed if the kernel gives an answer. -/
theorem attempt_during (m : MatrixView α) (k i : Nat) (e : Engine α σ) :
    Proceeds k e (attempt m k i e).2 ∧ ∀ fault, (attempt m k i e).1 = .error fault →
      fault.Excused (m.values.length ≤ e.workspace.reals.length) := by
  by_cases fits : m.values.length ≤ e.workspace.reals.length
  · have tried := proceeds_afterFactorization (k := k) fits
    rw [attempt_eq fits]
    split
    · refine ⟨tried, ?_⟩
      rintro _ ⟨⟩
      trivial
    · refine ⟨⟨⟨{ tried.during.steady with }, tried.during.grows, tried.during.reported, ?_⟩,
        tried.notes⟩, nofun⟩
      exact tried.during.listed.trans ⟨[_], rfl, by simp⟩
  · have short : m.fill e.workspace.reals.words = .error .shortOutput :=
      if_pos (Nat.lt_of_not_le fits)
    unfold attempt
    rw [short]
    refine ⟨.refl e, ?_⟩
    rintro _ ⟨⟩
    exact fits

theorem relieve_during (named : e.solverId ≠ "") (result : FactorizationResult)
    (required : Requirement) (lengths : Nat × Nat) (i : Nat) :
    Ends (relieve result required lengths k i) e (fun _ => Proceeds k e)
      (fun fault e' => Breaks k True e fault e') := by
  have integers := (Proceeds.refl (k := k) e).replace (.grow_integers _ (lengths.1 : Int).toNat)
  have reals := integers.replace (.grow_reals _ (lengths.2 : Int).toNat)
  unfold relieve
  rw [ends_get]
  refine ends_ensureIntegers ?_ fun _ _ => (Proceeds.refl e).breaks trivial
  refine ends_ensureReals ?_ fun _ _ => integers.breaks trivial
  rw [ends_get]
  refine (ends_emitReallocated ?_ _ _ _ _ ?_).mono ?_ ?_
  · exact named
  · simp [Payload.normalize]
  · exact fun _ _ => reals.trans
  · simp

theorem refuseShortage_during (named : e.solverId ≠ "") (result : FactorizationResult)
    (short : WorkspaceKind) (required : Requirement) (i : Nat) :
    Ends (refuseShortage result short required k i) e
      (fun _ e' => During k (some "E_LIN_KERNEL_FAILED") e e' ∧
        e'.notes = { e.notes with phase := .factorizationStale })
      (fun _ _ => False) := by
  unfold refuseShortage
  rw [ends_get]
  dsimp only
  rw [ends_set]
  refine (ends_emit_graded .error (by decide +kernel) (by simp) (by exact named)
    (by simp [Payload.normalize])).mono ?_ fun _ _ h => h
  rintro - _ ⟨diagnostics, rfl, reported⟩
  exact ⟨reported.noted, rfl⟩

/-- What attempts of the call `k` can come to: a fault, a shortage that cannot be relieved, or a
report that is no shortage. -/
def Attempted (k : Nat) (m : MatrixView α) (e : Engine α σ) :
    Except Fault (Option (FactorizationResult × Nat)) → Engine α σ → Prop
  | .error fault, e' => Breaks k (m.values.length ≤ e.workspace.reals.length) e fault e'
  | .ok none, e' => During k (some "E_LIN_KERNEL_FAILED") e e' ∧
    e'.notes = { e.notes with phase := .factorizationStale }
  | .ok (some _), e' => Proceeds k e e'

theorem Attempted.of_proceeds {answer : Except Fault (Option (FactorizationResult × Nat))}
    (first : Proceeds k e e') (h : Attempted k m e' answer e'') : Attempted k m e answer e'' := by
  rcases answer with fault | _ | _
  · exact (Breaks.trans first h).mono fun fits => Nat.le_trans fits first.during.grows.reals
  · exact ⟨first.during.trans h.1, h.2.trans (first.notes ▸ rfl)⟩
  · exact first.trans h

theorem attempts_during (m : MatrixView α) (k i : Nat) (e : Engine α σ) (named : e.solverId ≠ "") :
    Attempted k m e (attempts m k i e).1 (attempts m k i e).2 := by
  fun_induction attempts m k i e with
  | case1 i e tried fault failed =>
    obtain ⟨attempted, excused⟩ := attempt_during m k i e
    exact attempted.breaks (excused fault failed)
  | case2 i e tried result answered _ => exact (attempt_during m k i e).1
  | case3 i e tried result _ short required _ before cause _ =>
    exact (attempt_during m k i e).1.breaks trivial
  | case4 i e tried result _ short required _ before lengths _ _ enough fault after relieved =>
    have attempted := (attempt_during m k i e).1
    have broken := (relieve_during (attempted.during.steady.solverId ▸ named) result required
      enough i).bad_of_exec relieved
    exact (Breaks.trans attempted broken).mono fun _ => trivial
  | case5 i e tried result _ short required _ before lengths _ _ enough after relieved ih =>
    have attempted := (attempt_during m k i e).1
    have grown := attempted.trans ((relieve_during (attempted.during.steady.solverId ▸ named)
      result required enough i).ok_of_exec relieved)
    exact .of_proceeds grown (ih (grown.during.steady.solverId ▸ named))
  | case6 i e tried result _ short required _ before lengths _ _ refused =>
    have attempted := (attempt_during m k i e).1
    obtain ⟨_, after, run, ended⟩ := (refuseShortage_during (k := k)
      (attempted.during.steady.solverId ▸ named) result short required i).exists_ok
    have done : refused = _ := run
    rw [done]
    exact .of_proceeds attempted ended

theorem ends_attempts_during (named : e.solverId ≠ "") (m : MatrixView α) (i : Nat) :
    Ends (ExceptT.mk (attempts m k i)) e (fun answer => Attempted k m e (.ok answer))
      (fun fault => Attempted k m e (.error fault)) := by
  have attempted := attempts_during m k i e named
  have run : exec (ExceptT.mk (attempts m k i)) e = attempts m k i e := rfl
  rw [Ends, run]
  generalize attempts m k i e = ended at attempted ⊢
  rcases ended with ⟨fault | answer, e'⟩ <;> exact attempted

/-! ## The end of a factorization -/

/-- How a call ends: its outcome, the phase that it leaves, and the code of its error. -/
inductive Tells : Outcome → Phase → Option String → Prop
  | success : Tells .success .factorized none
  | wrongInertia : Tells .wrongInertia .factorized (some "E_LIN_WRONG_INERTIA")
  | singular : Tells .singular .factorizationStale (some "E_LIN_SINGULAR")
  | structureInvalid : Tells .fatalError .structureKnown (some "E_LIN_STRUCTURE_INVALID")
  | kernelFailed : Tells .fatalError .factorizationStale (some "E_LIN_KERNEL_FAILED")
  | backsolveFailed : Tells .fatalError .factorized (some "E_LIN_BACKSOLVE_FAILED")

theorem scheduleGrowth_during (named : e.solverId ≠ "") (result : FactorizationResult) (i : Nat) :
    Ends (scheduleGrowth result k i) e
      (fun _ e' => During k none e e' ∧ ∃ pending, e'.notes = { e.notes with pending })
      (fun _ _ => False) := by
  unfold scheduleGrowth
  rw [ends_get]
  dsimp only
  split
  · rw [ends_set]
    refine (ends_emit_graded .warning (by decide +kernel) (by simp) (by exact named)
      (by simp [Payload.normalize])).mono ?_ fun _ _ h => h
    rintro - _ ⟨diagnostics, rfl, reported⟩
    exact ⟨reported.noted, _, rfl⟩
  · exact ⟨.refl e, e.pending, rfl⟩

/-- What a factorization of the call `k` can come to: current factors, or an outcome. -/
def Concludes (k : Nat) (e : Engine α σ) : Option Outcome → Engine α σ → Prop
  | none, e' => During k none e e' ∧ ∃ pending negative, e'.notes = { e.notes with
      phase := .factorized, pending, negative := some negative }
  | some outcome, e' => ∃ failure, Tells outcome .factorizationStale failure ∧
      During k failure e e' ∧ e'.notes = { e.notes with phase := .factorizationStale }

theorem conclude_during (named : e.solverId ≠ "") (result : FactorizationResult) (i : Nat) :
    Ends (conclude result k i) e (Concludes k e) (fun _ _ => False) := by
  unfold conclude
  rw [ends_get]
  split
  · rw [ends_set]
    refine (scheduleGrowth_during (by exact named) result i).bind ?_ (by simp)
    rintro - e₁ ⟨scheduled, pending, notes⟩
    rw [ends_modify]
    refine ⟨scheduled.noted.note _ _ _ _, pending, result.negative, ?_⟩
    exact congrArg (fun notes : Notes => { notes with phase := .factorized }) notes
  · rw [ends_set]
    refine (ends_emit_graded .error (by decide +kernel) (by simp [toString]) (by exact named)
      (by simp [Payload.normalize])).bind ?_ (by simp)
    rintro - _ ⟨diagnostics, rfl, reported⟩
    exact ⟨_, .singular, reported.noted, rfl⟩
  · rw [ends_set]
    refine (ends_emit_graded .error (by decide +kernel) (by simp [toString]) (by exact named)
      (by simp [Payload.normalize])).bind ?_ (by simp)
    rintro - _ ⟨diagnostics, rfl, reported⟩
    exact ⟨_, .kernelFailed, reported.noted, rfl⟩

theorem factorize_during (named : e.solverId ≠ "") (m : MatrixView α) :
    Ends (factorize m k) e
      (fun outcome e' => ∃ e₁, During k none e e₁ ∧ e₁.notes = { e.notes with pending := .none } ∧
        Concludes k e₁ outcome e')
      (fun fault e' => ∃ e₁, During k none e e₁ ∧
        (e₁.notes = e.notes ∨ e₁.notes = { e.notes with pending := .none }) ∧
        Breaks k (m.values.length ≤ e₁.workspace.reals.length) e₁ fault e') := by
  unfold factorize
  refine (applyPendingGrowth_during named).bind ?_ fun fault e' broken =>
    ⟨e, .refl e, .inl rfl, broken.mono fun _ => trivial⟩
  rintro - e₁ ⟨grown, cleared⟩
  refine (ends_attempts_during (grown.steady.solverId ▸ named) m 0).bind ?_ fun fault e' broken =>
    ⟨e₁, grown, .inr cleared, broken⟩
  rintro (_ | ⟨result, i⟩) e₂ attempted
  · exact ⟨e₁, grown, cleared, _, .kernelFailed, attempted⟩
  · have proceeds : Proceeds k e₁ e₂ := attempted
    refine (conclude_during ((grown.trans proceeds.during).steady.solverId ▸ named) result i).mono
      ?_ (by simp)
    intro outcome e₃ concludes
    exact ⟨e₂, grown.trans proceeds.during, proceeds.notes.trans cleared, concludes⟩

/-! ## Solving -/

theorem proceeds_afterBacksolve (rhs : DenseVector α) (e : Engine α σ) :
    Proceeds k e (e.afterBacksolve rhs) := by
  refine ⟨⟨{ Steady.refl e with
      kernel := Session.kernel_backsolve ..
      controls := Session.controls_backsolve .. }, ⟨?_, ?_, Nat.le_refl _⟩,
    ⟨[], none, by simp [afterBacksolve]⟩, ⟨[], by simp [afterBacksolve]⟩⟩, rfl⟩
  · exact Nat.le_of_eq (Session.size_backsolve_iw ..).symm
  · exact Nat.le_of_eq (Session.size_backsolve_a ..).symm

/-- The call `k` ends with an answer: an outcome with its phase and its error, or a fault. The
notes stay. -/
def Answers (k : Nat) (e : Engine α σ) : Except Fault Outcome → Engine α σ → Prop
  | .error fault, e' => Breaks k True e fault e'
  | .ok outcome, e' => ∃ failure, Tells outcome .factorized failure ∧ During k failure e e' ∧
    e'.notes = e.notes

theorem Answers.of_proceeds {result : Except Fault Outcome} (first : Proceeds k e e')
    (h : Answers k e' result e'') : Answers k e result e'' := by
  cases result with
  | error fault => exact .trans first h
  | ok outcome =>
    obtain ⟨failure, tells, during, notes⟩ := h
    exact ⟨failure, tells, first.during.trans during, notes.trans first.notes⟩

theorem solveOne_during (named : e.solverId ≠ "") (index : Nat) (rhs solution : DenseVector α) :
    Ends (solveOne k index rhs solution) e
      (fun solved e' => During k (if solved.isSome then none else some "E_LIN_BACKSOLVE_FAILED") e e' ∧
        e'.notes = e.notes)
      (fun fault e' => Breaks k True e fault e') := by
  have solved := proceeds_afterBacksolve (k := k) rhs e
  unfold solveOne
  refine ends_callSolve (fun result _ => ?_) fun _ _ => solved.breaks trivial
  split
  · refine (ends_emit_graded .error (by decide +kernel) (by simp [toString])
      (solved.during.steady.solverId ▸ named) (by simp [Payload.normalize])).bind ?_ (by simp)
    rintro - _ ⟨diagnostics, rfl, reported⟩
    exact ⟨solved.during.trans reported, solved.notes⟩
  · next x _ =>
    cases written : solution.set x with
    | error cause =>
      refine solved.breaks ?_
      simp only [DenseVector.set] at written
      split at written
      · cases written
        trivial
      · cases written
    | ok y => exact ⟨solved.during, solved.notes⟩

theorem backsolve_during (k index : Nat) (rhs solutions : List (DenseVector α))
    (e : Engine α σ) (named : e.solverId ≠ "") :
    Answers k e (backsolve k index rhs solutions e).1.result
      (backsolve k index rhs solutions e).2 := by
  fun_induction backsolve k index rhs solutions e with
  | case1 index b more x solutions e fault after solved =>
    exact (solveOne_during named index b x).bad_of_exec solved
  | case2 index b more x solutions e after solved =>
    have failed := (solveOne_during (k := k) named index b x).ok_of_exec solved
    exact ⟨_, .backsolveFailed, failed⟩
  | case3 index b more x solutions e x' after solved answer last rest ih =>
    obtain ⟨first, notes⟩ := (solveOne_during (k := k) named index b x).ok_of_exec solved
    rw [rest] at ih
    exact .of_proceeds ⟨first, notes⟩ (ih (first.steady.solverId ▸ named))
  | case4 => exact ⟨none, .success, .refl _, rfl⟩

end Engine

end SymSolve
