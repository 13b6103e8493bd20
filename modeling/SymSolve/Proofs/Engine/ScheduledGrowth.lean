import SymSolve.Proofs.Engine.PendingGrowth
import SymSolve.Proofs.Engine.Tolerance

/-!
# Scheduled growth

What a factorization makes pending is carried out before the next one, whatever a caller does in
between.

**Theorem (`scheduled_growth_is_applied_once`).** Growth is pending as the last factorization left
it: only a success leaves any, and this is reported, once for each time. The first attempt of the
next factorization gets all that is due and finds nothing pending any more. Until then nothing but a
reset clears it.

A call is followed from the captured structure on, and what it does about growth is told of its
factorizations alone (`Advances`); a stretch of a run without factorizations holds what is pending
(`Held`).
-/

namespace SymSolve

namespace Engine

/-! ## Whole calls -/

section Calls

variable {K σ : Type} [Field K] [LinearOrder K] [IsStrictOrderedRing K] [FloorRing K]
variable {k : Kernel K σ} {m : MatrixView K} {solveIndex : Nat}
variable {e e' c : Engine K (Recorded K σ)} {fs : List (FactorizeCall K)}

/-- What has come of a call so far: it did about growth what it should, unless it found no room for
the values. -/
def Minds (m : MatrixView K) (solveIndex : Nat) (c : Engine K (Recorded K σ))
    (r : Except Fault (Option Outcome)) (e' : Engine K (Recorded K σ)) : Prop :=
  r = .error (.view .shortOutput) ∨ ∃ fs, Schedules m solveIndex c fs e'

omit [IsStrictOrderedRing K] in
theorem Minds.goes_on {r : Except Fault (Option Outcome)} (h : Minds m solveIndex c (.ok none) e)
    (stays : Stays e e') : Minds m solveIndex c r e' := by
  rcases h with ⟨⟨⟩⟩ | ⟨fs, schedules⟩
  exact .inr ⟨fs, schedules.stays stays⟩

omit [IsStrictOrderedRing K] in
/-- A call comes to its factorization, or its analysis ends it. -/
theorem ends_fronts (recorded : c.session.kernel = k.recorded) (m : MatrixView K) (solveIndex : Nat) :
    Ends (if c.phase = .structureKnown then analyse solveIndex else pure none) c
      (fun refused e' => match refused with
        | none => Fronts c (noteValues m e')
        | some _ => Postpones c e' ∧ ¬ c.phase.Analysed)
      (fun _ e' => Postpones c e' ∧ ¬ c.phase.Analysed) := by
  have untouched : Untouched Aside (Postpones c) := untouched_postpones recorded
  split
  · next fresh =>
    have early : ¬ c.phase.Analysed := by rw [fresh]; exact id
    refine (untouched.analyse (unsized_postpones c) untouched.analysed ⟨.inr rfl, by decide⟩
      solveIndex c (.refl c)).mono ?_ fun _ _ postpones => ⟨postpones, early⟩
    rintro (_ | outcome) e₁ postpones
    · exact ⟨untouched.noteValues postpones, fun analysed => absurd analysed early⟩
    · exact ⟨postpones, early⟩
  · have stays := (unmoved_stays c).noteValues (m := m) (.refl c)
    exact ⟨stays.toPostpones, fun _ => stays⟩

theorem minds_prepare (recorded : (captureIfNew m e).session.kernel = k.recorded)
    (named : (captureIfNew m e).solverId ≠ "") (demand : InertiaDemand) :
    Ends (prepare m demand solveIndex) e
      (fun outcome => Minds m solveIndex (captureIfNew m e) (.ok outcome))
      (fun fault => Minds m solveIndex (captureIfNew m e) (.error fault)) := by
  let c := captureIfNew m e
  refine ends_prepare_of (Fronts c) ?_ (fun e₁ fronts => ?_) fun e₂ minds => ?_
  · refine (ends_fronts recorded m solveIndex).mono ?_ fun _ _ ⟨postpones, early⟩ =>
      .inr ⟨[], schedules_nil postpones fun analysed => absurd analysed early⟩
    rintro (_ | outcome) e₁ h
    · exact h
    · exact .inr ⟨[], schedules_nil h.1 fun analysed => absurd analysed h.2⟩
  · split
    · exact .inr ⟨[], schedules_nil fronts.postpones fun analysed => (fronts.stays analysed).held⟩
    · refine (schedules_factorize recorded named fronts).mono (fun _ _ => .inr) ?_
      rintro fault e₂ (rfl | schedules)
      · exact .inl rfl
      · exact .inr schedules
  · exact ((unmoved_stays e₂).checkInertia ⟨.inr rfl, by decide⟩ demand solveIndex e₂
      (.refl e₂)).mono (fun _ _ => minds.goes_on) fun _ _ => minds.goes_on

/-- **What a call does about growth.** -/
theorem minds_multiSolve (recorded : e.session.kernel = k.recorded) (named : e.solverId ≠ "")
    {rhs solutions : List (DenseVector K)} {demand : InertiaDemand}
    (accepted : e.usageFault? m rhs solutions demand = none) :
    let called := e.multiSolve m rhs solutions demand
    Minds m e.solveCount (e.captured m) (called.1.result.map some) called.2 := by
  have recorded : (e.captured m).session.kernel = k.recorded := session_captured m e ▸ recorded
  have named : (e.captured m).solverId ≠ "" := solverId_captured m e ▸ named
  refine multiSolve_of_prepare (Minds m e.solveCount (e.captured m) (.ok none))
    (fun answer => Minds m e.solveCount (e.captured m) (answer.result.map some)) accepted ?_
    fun e₁ minds => ?_
  · refine (minds_prepare (e := e.beginCall) recorded named demand).mono ?_ fun _ _ h => h
    rintro (_ | outcome) e₁ h <;> exact h
  · have recorded : e₁.session.kernel = k.recorded := by
      rcases minds with ⟨⟨⟩⟩ | ⟨fs, schedules⟩
      exact (congrArg Tally.kernel schedules.tally).trans recorded
    exact minds.goes_on ((untouched_stays recorded).backsolve ⟨.inr rfl, by decide⟩ e.solveCount 0
      rhs solutions (.refl e₁))

/-- The factorizations that the kernel was called for. -/
def factorizations {α : Type} [Scalar α] (e : Engine α (Recorded α σ)) : List (FactorizeCall α) :=
  e.calls.filterMap KernelCall.factorization?

/-- On the way from `e` to `e'` the factorizations `fs` were made, with one of the `matrices`. -/
structure Advances (matrices : List (SymTriplets K)) (e : Engine K (Recorded K σ))
    (fs : List (FactorizeCall K)) (e' : Engine K (Recorded K σ)) : Prop where
  factorizations : e'.factorizations = e.factorizations ++ fs
  /-- Growth is pending as the last one of them left it. -/
  pending : e'.pending = e.leaves fs
  /-- It was reported if and only if there is any. -/
  reported : e'.schedule = e.schedule ∧ fs = [] ∨ e'.schedule = e.notices e.solveCount fs
  /-- They were attempted while nothing was pending. -/
  attempted : fs ≠ [] → ∃ A ∈ matrices, ∃ e₁ : Engine K (Recorded K σ), e₁.pending = .none ∧
    e₁.factorizations = e.factorizations ∧
    (attempts A.view e.solveCount 0 e₁).2.pending = .none ∧
    (attempts A.view e.solveCount 0 e₁).2.factorizations = e.factorizations ++ fs
  /-- The first one got what was due. -/
  first : e.phase.Analysed → ∀ f ∈ fs.head?, ¬ e.Blocked ∧
    ∀ kind, f.workspace.lengthOf kind = e.dueLength kind
  /-- Without any, all is as it was. -/
  held : e.phase.Analysed → fs = [] → Held e e'
  analysed : e.phase.Analysed → e'.phase.Analysed

omit [IsStrictOrderedRing K] in
theorem advances_idle {matrices : List (SymTriplets K)} (calls : e'.calls = e.calls)
    (schedule : e'.schedule = e.schedule) (held : Held e e')
    (analysed : e.phase.Analysed → e'.phase.Analysed) : Advances matrices e [] e' where
  factorizations := by
    rw [Engine.factorizations, calls, List.append_nil]
    rfl
  pending := held.pending
  reported := .inl ⟨schedule, rfl⟩
  attempted other := absurd rfl other
  first _ := nofun
  held _ _ := held
  analysed := analysed

omit [IsStrictOrderedRing K] in
theorem schedule_captured (m : MatrixView K) (e : Engine K (Recorded K σ)) :
    (e.captured m).schedule = [] := by
  have same : (e.captured m).diagnostics = e.beginCall.diagnostics := by
    unfold captured captureIfNew
    split <;> rfl
  simp only [schedule, same, beginCall, List.filter_filter, List.filter_eq_nil_iff,
    Event.isSchedule]
  intro event _
  cases event.solveIndex <;> simp

omit [IsStrictOrderedRing K] in
theorem factorizations_captured (m : MatrixView K) (e : Engine K (Recorded K σ)) :
    (e.captured m).tally.factorizations = e.factorizations := by
  show ((e.captured m).session.state.calls.filterMap _) = _
  rw [session_captured]
  rfl

omit [IsStrictOrderedRing K] in
theorem Consistent.pending_captured (h : Consistent e) (m : MatrixView K) :
    (e.captured m).pending = e.pending := by
  by_cases new : e.phase = .uninitialized
  · rw [captured_of_new new, (h.blank new).pending]
    rfl
  · rw [captured_of_known new]
    rfl

theorem advances_multiSolve (recorded : e.session.kernel = k.recorded)
    (named : e.solverId ≠ "") (consistent : e.Consistent) {matrices : List (SymTriplets K)}
    {A : SymTriplets K} (hA : A ∈ matrices) {rhs solutions : List (DenseVector K)}
    {demand : InertiaDemand} (accepted : e.usageFault? A.view rhs solutions demand = none) :
    ∃ fs, Advances matrices e fs (e.multiSolve A.view rhs solutions demand).2 := by
  have fits := consistent.fits named (by simp [SymTriplets.view]) A.length_values rhs solutions demand
  rcases minds_multiSolve recorded named accepted with short | ⟨fs, schedules⟩
  · refine absurd ?_ fits
    cases result : (e.multiSolve A.view rhs solutions demand).1.result with
    | error fault =>
      rw [result] at short
      exact congrArg _ (Except.error.inj short)
    | ok outcome =>
      rw [result] at short
      cases short
  have made := sameMake_captured A.view e
  have before := factorizations_captured A.view e
  have begun (analysed : e.phase.Analysed) : Held e (e.captured A.view) := by
    rw [captured_of_analysed analysed]
    exact ⟨rfl, rfl, rfl, rfl, .inl rfl⟩
  have phase (analysed : e.phase.Analysed) : (e.captured A.view).phase.Analysed := by
    rw [captured_of_analysed analysed]
    exact analysed
  have added : ((e.captured A.view).tally.ran e.solveCount 0 fs).factorizations =
      e.factorizations ++ fs := congrArg (· ++ fs) before
  refine ⟨fs, ?_, ?_, .inr ?_, fun made => ?_, fun analysed f hf => ?_, fun analysed none => ?_,
    fun analysed => analysed_multiSolve named analysed accepted⟩
  · exact (congrArg Tally.factorizations schedules.tally).trans added
  · rw [schedules.pending, leaves, leaves, made.options, consistent.pending_captured]
  · rw [schedules.schedule, schedule_captured, List.nil_append, notices, notices, made.options,
      made.solverId]
  · obtain ⟨e₁, clear, same, kept, counted⟩ := schedules.attempted made
    exact ⟨A, hA, e₁, clear, (congrArg Tally.factorizations same).trans before, kept,
      (congrArg Tally.factorizations counted).trans added⟩
  · obtain ⟨free, lengths⟩ := schedules.first (phase analysed) f hf
    have free : ¬ e.Blocked := fun blocked => free ((begun analysed).blocked_iff.2 blocked)
    exact ⟨free, fun kind => (lengths kind).trans ((begun analysed).due free kind)⟩
  · exact (begun analysed).trans (schedules.held (phase analysed) none)

end Calls

end Engine

/-! ## Whole runs -/

section Reached

open Engine

variable {K σ : Type} [Field K] [LinearOrder K] [IsStrictOrderedRing K] [FloorRing K]
variable [Powers K] [Printable K] {k : Kernel K σ}

namespace World

variable {w : World K (Recorded K σ)}

/-- **What an action does about growth.** -/
theorem Reached.advances (reached : w.Reached k) {action : Action K}
    (kept : action ≠ .resetStructure) :
    ∃ fs, Advances w.matrices w.engine fs (w.step action).engine := by
  have regular := reached.arises.regular
  by_cases raising : action = .increaseQuality
  · subst raising
    show ∃ fs, Advances w.matrices w.engine fs (w.engine.exec increaseQuality).2
    rw [exec_increaseQuality regular.named]
    split
    · exact ⟨[], advances_idle rfl rfl ⟨rfl, rfl, rfl, rfl, .inl rfl⟩ id⟩
    · have unscheduled : w.engine.raised.schedule = w.engine.schedule :=
        schedule_report qualityIncreased (by decide) _ w.engine
      exact ⟨[], advances_idle rfl unscheduled ⟨rfl, rfl, rfl, rfl, .inl rfl⟩
        Phase.analysed_stale.2⟩
  have turns := w.step_turns action
  generalize (w.step action).engine = e at turns
  cases turns with
  | idle => exact ⟨[], advances_idle rfl rfl ⟨rfl, rfl, rfl, rfl, .inl rfl⟩ id⟩
  | solve found accepted =>
    exact advances_multiSolve regular.kernel regular.named regular.consistent
      (List.mem_of_getElem? found) accepted
  | raise => exact absurd rfl raising
  | reset => exact absurd rfl kept

theorem Reached.exists_factorizations (reached : w.Reached k) {actions : List (Action K)}
    (kept : .resetStructure ∉ actions) :
    ∃ fs, (w.run actions).engine.factorizations = w.engine.factorizations ++ fs := by
  induction actions generalizing w with
  | nil => exact ⟨[], (List.append_nil _).symm⟩
  | cons action actions ih =>
    rw [List.mem_cons, not_or] at kept
    obtain ⟨fs, advances⟩ := reached.advances (Ne.symm kept.1)
    obtain ⟨fs', added⟩ := ih (reached.step action) kept.2
    refine ⟨fs ++ fs', ?_⟩
    rw [← List.append_assoc, ← advances.factorizations]
    exact added

/-- **Until the next factorization** growth stays pending. -/
theorem Reached.held (reached : w.Reached k) (analysed : w.engine.phase.Analysed)
    {since : List (Action K)} (kept : .resetStructure ∉ since)
    (idle : (w.run since).engine.factorizations = w.engine.factorizations) :
    Held w.engine (w.run since).engine ∧ (w.run since).engine.phase.Analysed := by
  induction since generalizing w with
  | nil => exact ⟨⟨rfl, rfl, rfl, rfl, .inl rfl⟩, analysed⟩
  | cons action since ih =>
    rw [List.mem_cons, not_or] at kept
    obtain ⟨fs, advances⟩ := reached.advances (Ne.symm kept.1)
    obtain ⟨fs', added⟩ := (reached.step action).exists_factorizations kept.2
    have all : w.engine.factorizations ++ (fs ++ fs') = w.engine.factorizations := by
      rw [← List.append_assoc, ← advances.factorizations, ← added]
      exact idle
    obtain ⟨none, none'⟩ := List.append_eq_nil_iff.1 (List.append_right_eq_self.1 all)
    rw [none'] at added
    obtain ⟨held, analysed'⟩ := ih (reached.step action) (advances.analysed analysed) kept.2
      (added.trans (List.append_nil _))
    exact ⟨(advances.held analysed none).trans held, analysed'⟩

end World

/-- **Scheduled growth is applied once.** -/
theorem scheduled_growth_is_applied_once {w : World K (Recorded K σ)} (reached : w.Reached k) :
    (∀ action, action ≠ .resetStructure →
      ∃ fs, Advances w.matrices w.engine fs (w.step action).engine) ∧
    (w.step .resetStructure).engine.pending = .none ∧
    (w.engine.pending.any → w.engine.phase.Analysed) ∧
    (w.engine.phase.Analysed → ∀ since, .resetStructure ∉ since →
      (w.run since).engine.factorizations = w.engine.factorizations →
      (w.run since).engine.pending = w.engine.pending ∧
      ∀ action f rest, ((w.run since).step action).engine.factorizations =
          w.engine.factorizations ++ f :: rest →
        ∀ kind, f.workspace.lengthOf kind = w.engine.dueLength kind) := by
  refine ⟨fun action kept => reached.advances kept, rfl, fun due => ?_,
    fun analysed since kept idle => ?_⟩
  · exact Phase.analysed_of_late (reached.arises.regular.consistent.pending due)
  obtain ⟨held, analysed'⟩ := reached.held analysed kept idle
  refine ⟨held.pending, fun action f rest made => ?_⟩
  have last : action ≠ .resetStructure := by
    rintro rfl
    have same : (w.run since).engine.factorizations = w.engine.factorizations ++ f :: rest := made
    rw [idle] at same
    exact List.cons_ne_nil _ _ (List.append_right_eq_self.1 same.symm)
  obtain ⟨fs, advances⟩ := (reached.run since).advances last
  have split : fs = f :: rest := by
    have all := advances.factorizations.symm.trans made
    rw [idle] at all
    exact List.append_cancel_left all
  obtain ⟨free, lengths⟩ := advances.first analysed' f (split ▸ rfl)
  exact fun kind => (lengths kind).trans (held.due (mt held.blocked_iff.2 free) kind)

end Reached

/-! ## A run -/

/-- A call whose factorization is a success goes on to solve. -/
theorem Engine.multiSolve_of_success {α σ : Type} [Scalar α] {e e₁ e₂ e₃ e₄ : Engine α σ}
    {m : MatrixView α} {rhs solutions : List (DenseVector α)} {r : FactorizationResult} {n i : Nat}
    (count : e.solveCount = n) (accepted : e.usageFault? m rhs solutions none = none)
    (analysed : exec (if (e.captured m).phase = .structureKnown then analyse n else pure none)
      (e.captured m) = (.ok none, e₁))
    (due : (noteValues m e₁).phase ≠ .factorized)
    (grown : exec (applyPendingGrowth n) (noteValues m e₁) = (.ok (), e₂))
    (attempted : attempts m n 0 e₂ = (.ok (some (r, i)), e₃))
    (concluded : exec (conclude r n i) e₃ = (.ok none, e₄)) :
    e.multiSolve m rhs solutions none = backsolve n 0 rhs solutions e₄ := by
  subst count
  have factorized : exec (factorize m e.solveCount) (noteValues m e₁) = (.ok none, e₄) := by
    have run : exec (ExceptT.mk (attempts m e.solveCount 0)) e₂ = attempts m e.solveCount 0 e₂ := rfl
    unfold factorize
    rw [exec_bind, grown]
    dsimp only
    rw [exec_bind, run, attempted]
    exact concluded
  have prepared : Ends (prepare m none e.solveCount) e.beginCall
      (fun ended e' => ended = none ∧ e' = e₄) (fun _ _ => False) := by
    refine ends_prepare_of (fun e' => e' = noteValues m e₁)
      ((ends_of_ok analysed).2 rfl) ?_ ?_
    · rintro _ rfl
      rw [if_neg due]
      exact (ends_of_ok factorized).2 ⟨rfl, rfl⟩
    · rintro _ ⟨-, rfl⟩
      exact ⟨rfl, rfl⟩
  obtain ⟨_, _, run, rfl, rfl⟩ := prepared.exists_ok
  simp only [multiSolve, accepted, run]

theorem World.engine_multiSolve {α σ : Type} [Scalar α] {w : World α σ} {place : Nat}
    {A : SymTriplets α} (found : w.matrices[place]? = some A) (rhs solutions : List (DenseVector α))
    (demand : InertiaDemand) : (w.multiSolve place rhs solutions demand).engine =
      (w.engine.multiSolve A.view rhs solutions demand).2 := by
  unfold multiSolve
  rw [found]

open Engine

/-- A kernel that compresses the real workspace twelve times when it factorizes first. -/
def compressing : Script ℚ :=
  ⟨[], [KernelInfo.toRaw { rank := 1, realCompressions := 12 }], []⟩

/-- A caller of that kernel with the matrix with the entry 2. -/
def openedWorld : World ℚ (Recorded ℚ (Script ℚ)) :=
  (World.start (scriptedEngine compressing) ⟨0⟩).run [.ofTriplets 1 [0] [0] (some [2])]

theorem openedWorld_matrices : 0 < openedWorld.matrices.length := by decide +kernel

/-- The matrix with the entry 2. -/
def openedMatrix : SymTriplets ℚ := openedWorld.matrices.get ⟨0, openedWorld_matrices⟩

/-- The engine with the matrix with the entry 2 analysed. -/
def analysedEngine : Engine ℚ (Recorded ℚ (Script ℚ)) :=
  (exec (analyse 0) (openedWorld.engine.captured openedMatrix.view)).2

/-- The engine before its first factorization is attempted. -/
def dueEngine : Engine ℚ (Recorded ℚ (Script ℚ)) :=
  (exec (applyPendingGrowth 0) (noteValues openedMatrix.view analysedEngine)).2

/-- The engine after its first factorization was attempted. -/
def compressedAttempt : Engine ℚ (Recorded ℚ (Script ℚ)) :=
  (attempts openedMatrix.view 0 0 dueEngine).2

/-- The engine after the call that compressed. -/
def compressedEngine : Engine ℚ (Recorded ℚ (Script ℚ)) :=
  (backsolve 0 0 [⟨[1]⟩] [⟨[0]⟩]
    (compressedAttempt.afterSuccess ⟨.success, 0, 1, 12, 0, 0, 0⟩ 0 0)).2

theorem compressedEngine_called :
    (openedWorld.engine.multiSolve openedMatrix.view [⟨[1]⟩] [⟨[0]⟩] none).2 = compressedEngine := by
  have analysed : exec (if (openedWorld.engine.captured openedMatrix.view).phase = .structureKnown
      then analyse 0 else pure none) (openedWorld.engine.captured openedMatrix.view) =
        (.ok none, analysedEngine) := Prod.ext (by decide +kernel) rfl
  have grown : exec (applyPendingGrowth 0) (noteValues openedMatrix.view analysedEngine) =
    (.ok (), dueEngine) := Prod.ext (by decide +kernel) rfl
  have attempted : attempts openedMatrix.view 0 0 dueEngine =
      (.ok (some (⟨.success, 0, 1, 12, 0, 0, 0⟩, 0)), compressedAttempt) :=
    Prod.ext (by decide +kernel) rfl
  have concluded := exec_conclude_of_success (e := compressedAttempt)
    (r := ⟨.success, 0, 1, 12, 0, 0, 0⟩) (by decide +kernel) (by decide +kernel) rfl 0 0
  exact congrArg Prod.snd (multiSolve_of_success (by decide +kernel) (by decide +kernel) analysed
    (by decide +kernel) grown attempted concluded)

/-- The caller has solved. -/
def compressedWorld : World ℚ (Recorded ℚ (Script ℚ)) :=
  openedWorld.step (.multiSolve 0 [⟨[1]⟩] [⟨[0]⟩] none)

theorem compressedWorld_engine : compressedWorld.engine = compressedEngine :=
  (World.engine_multiSolve (List.getElem?_eq_getElem openedWorld_matrices) ..).trans
    compressedEngine_called

/-- The caller has made the entry 3. -/
def recoveredWorld : World ℚ (Recorded ℚ (Script ℚ)) := compressedWorld.run [.setValues 0 [3]]

theorem recoveredWorld_engine : recoveredWorld.engine = compressedEngine :=
  (compressedWorld.engine_revise 0 [3]).trans compressedWorld_engine

theorem recoveredWorld_matrices : 0 < recoveredWorld.matrices.length := by decide +kernel

/-- The matrix with the entry 3. -/
def recoveredMatrix : SymTriplets ℚ := recoveredWorld.matrices.get ⟨0, recoveredWorld_matrices⟩

/-- The engine with the entry 3, before the growth that is due. -/
def notedEngine : Engine ℚ (Recorded ℚ (Script ℚ)) :=
  noteValues recoveredMatrix.view (compressedEngine.captured recoveredMatrix.view)

/-- The engine with the real workspace grown. -/
def realsEngine : Engine ℚ (Recorded ℚ (Script ℚ)) := (exec (growReals notedEngine) notedEngine).2

/-- The engine with both workspaces as long as they should be. -/
def integersEngine : Engine ℚ (Recorded ℚ (Script ℚ)) :=
  (exec (growIntegers notedEngine) realsEngine).2

/-- The engine after the growth. -/
def grownEngine : Engine ℚ (Recorded ℚ (Script ℚ)) :=
  integersEngine.afterGrowth 1 notedEngine.workspace

theorem exec_grownEngine : exec (applyPendingGrowth 1) notedEngine = (.ok (), grownEngine) := by
  have reals : exec (growReals notedEngine) notedEngine = (.ok (), realsEngine) :=
    Prod.ext (by decide +kernel) rfl
  have integers : exec (growIntegers notedEngine) realsEngine = (.ok (), integersEngine) :=
    Prod.ext (by decide +kernel) rfl
  exact exec_applyPendingGrowth (by decide +kernel) reals integers (by decide +kernel) 1

/-- The engine after its second factorization was attempted. -/
def recoveredAttempt : Engine ℚ (Recorded ℚ (Script ℚ)) :=
  (attempts recoveredMatrix.view 1 0 grownEngine).2

/-- The engine after the call for the entry 3. -/
def recoveredEngine : Engine ℚ (Recorded ℚ (Script ℚ)) :=
  (backsolve 1 0 [⟨[1]⟩] [⟨[0]⟩]
    (recoveredAttempt.afterSuccess ⟨.success, 0, 1, 0, 0, 0, 0⟩ 1 0)).2

theorem recoveredEngine_called :
    (compressedEngine.multiSolve recoveredMatrix.view [⟨[1]⟩] [⟨[0]⟩] none).2 = recoveredEngine := by
  have analysed : exec (if (compressedEngine.captured recoveredMatrix.view).phase = .structureKnown
      then analyse 1 else pure none)
        (compressedEngine.captured recoveredMatrix.view) =
          (.ok none, compressedEngine.captured recoveredMatrix.view) := by
    rw [if_neg (by decide +kernel)]
    rfl
  have attempted : attempts recoveredMatrix.view 1 0 grownEngine =
      (.ok (some (⟨.success, 0, 1, 0, 0, 0, 0⟩, 0)), recoveredAttempt) :=
    Prod.ext (by decide +kernel) rfl
  have concluded := exec_conclude_of_success (e := recoveredAttempt)
    (r := ⟨.success, 0, 1, 0, 0, 0, 0⟩) (by decide +kernel) (by decide +kernel) rfl 1 0
  exact congrArg Prod.snd (multiSolve_of_success (by decide +kernel) (by decide +kernel) analysed
    (by decide +kernel) exec_grownEngine attempted concluded)

/-- The call for the entry 3. -/
def recovery : Action ℚ := .multiSolve 0 [⟨[1]⟩] [⟨[0]⟩] none

theorem recoveredWorld_called : (recoveredWorld.step recovery).engine = recoveredEngine := by
  rw [← recoveredEngine_called, ← recoveredWorld_engine]
  exact World.engine_multiSolve (List.getElem?_eq_getElem recoveredWorld_matrices) ..

theorem compressedWorld_reached : compressedWorld.Reached scripted :=
  (reached_scripted compressing [.ofTriplets 1 [0] [0] (some [2])]).step _

/-- The growth waits while the entry is changed. -/
theorem scheduled_growth_is_applied_once_compressed :
    compressedWorld.engine.pending = ⟨true, false⟩ ∧
      recoveredWorld.engine.pending = ⟨true, false⟩ ∧
      ∃ f, (recoveredWorld.step recovery).engine.factorizations =
        compressedWorld.engine.factorizations ++ [f] ∧
        f.workspace.lengthOf .integer = 12 ∧ f.workspace.lengthOf .real = 50 ∧
        (recoveredWorld.step recovery).engine.pending = .none := by
  obtain ⟨-, -, late, later⟩ := scheduled_growth_is_applied_once compressedWorld_reached
  have engine := compressedWorld_engine
  have pending : compressedWorld.engine.pending = ⟨true, false⟩ := by
    rw [engine]
    decide +kernel
  have lengths : compressedWorld.engine.dueLength .integer = 12 ∧
      compressedWorld.engine.dueLength .real = 50 := by
    rw [engine]
    decide +kernel
  have idle : recoveredWorld.engine.factorizations = compressedWorld.engine.factorizations := by
    rw [recoveredWorld_engine, engine]
  obtain ⟨same, due⟩ := later (late (by rw [pending]; rfl)) [.setValues 0 [3]] (by simp) idle
  have counts : compressedWorld.engine.factorizations.length = 1 ∧
      (recoveredWorld.step recovery).engine.factorizations.length = 2 ∧
      (recoveredWorld.step recovery).engine.pending = .none := by
    rw [engine, recoveredWorld_called]
    decide +kernel
  have kept : .resetStructure ∉ [recovery] := by simp [recovery]
  obtain ⟨fs, added⟩ := (compressedWorld_reached.run [.setValues 0 [3]]).exists_factorizations kept
  have made : (recoveredWorld.step recovery).engine.factorizations =
      compressedWorld.engine.factorizations ++ fs := added.trans (congrArg (· ++ fs) idle)
  obtain ⟨f, rfl⟩ : ∃ f, fs = [f] := by
    have total := congrArg List.length made
    rw [List.length_append, counts.1, counts.2.1] at total
    exact List.length_eq_one_iff.1 (by omega)
  have given := due recovery f [] made
  exact ⟨pending, same.trans pending, f, made, (given .integer).trans lengths.1,
    (given .real).trans lengths.2, counts.2.2⟩

end SymSolve
