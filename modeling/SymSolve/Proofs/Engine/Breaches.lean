import SymSolve.Proofs.Engine.Relief
import SymSolve.Proofs.Engine.Solutions

/-!
# Breaches of the kernel's contract

A kernel may hand back any array as its status words. What does not have the form of status words is
a breach of its contract, and is told as one.

**Theorem (`breaches_are_told`).** Let the kernel not break down. A call that is refused no length
raises a fault if and only if one of its kernel calls was answered by that fault: by a breach, or by
an accepted analysis that recommends no length. So it comes to an outcome, or tells a breach, as long
as the lengths that are recommended are lengths; over exact scalars these are the ones for which the
integer words are not scaled to a negative number (`AnalysisResult.lengthError?_exact`).

Nothing checks a recommendation before it is scaled, so a negative one ends the call with the fault
of a buffer (`negative_recommendation_escapes`).
-/

namespace SymSolve

/-! ## What an answer makes of a call -/

section Answer

variable {α σ : Type}

/-- The kernel does not break down: each of its calls is answered, with any array or any flag. -/
structure Kernel.Answers (k : Kernel α σ) : Prop where
  analyse : ∀ {iwLength keepLength : Nat} (state : σ) (s : Pattern) (iw : Vector Int iwLength)
    (keep : Vector Int keepLength) (controls : Controls α),
    ∃ raw, (k.analyse state s iw keep controls).answer = .ok raw
  factorize : ∀ {aLength iwLength keepLength : Nat} (state : σ) (s : Pattern)
    (a : Vector α aLength) (iw : Vector Int iwLength) (keep : Vector Int keepLength)
    (controls : Controls α), ∃ raw, (k.factorize state s a iw keep controls).answer = .ok raw
  solve : ∀ {aLength iwLength rhsLength : Nat} (state : σ) (dim : Int) (a : Vector α aLength)
    (iw : Vector Int iwLength) (rhs : Vector α rhsLength),
    ∃ flag, (k.solve state dim a iw rhs).answer = .ok flag

theorem Session.exists_contract {β : Type} {classify : RawInfo → Except ContractError β}
    {answer : Except Breakdown RawInfo} (answered : ∃ raw, answer = .ok raw) {cause : KernelFault}
    (failed : read classify answer = .error cause) : ∃ breach, cause = .contract breach := by
  obtain ⟨raw, rfl⟩ := answered
  have failed : (classify raw).mapError .contract = .error cause := failed
  cases said : classify raw with
  | error breach =>
    rw [said] at failed
    exact ⟨breach, (Except.error.inj failed).symm⟩
  | ok result =>
    rw [said] at failed
    cases failed

/-- What a session makes of a call, if that is a fault. -/
def kernelFault? {β : Type} : Except KernelFault β → Option Fault
  | .error cause => some (.kernel cause)
  | .ok _ => none

variable [Scalar α]

/-- Why the lengths that an analysis recommends are no lengths. The real words are compared with the
number of entries, so they may be negative. -/
def AnalysisResult.lengthError? (o : Options α) (r : AnalysisResult) :
    Option Buffer.LengthError :=
  match scaledLength o.integerInitFactor r.integerLength with
  | .error cause => some (.unbounded cause)
  | .ok integers =>
    if integers < 0 then some .negative
    else match scaledLength o.realInitFactor r.realLength with
      | .error cause => some (.unbounded cause)
      | .ok _ => none

/-- The fault of the call of the engine in which the kernel was called so, if its answer makes one. -/
def KernelCall.fault? (o : Options α) : KernelCall α → Option Fault
  | analyse _ _ _ _ _ _ answer =>
    match Session.read AnalysisResult.ofRaw? answer with
    | .error cause => some (.kernel cause)
    | .ok r => if r.accepted then (r.lengthError? o).map .length else none
  | factorize _ _ _ _ _ _ _ _ answer => kernelFault? (Session.read FactorizationResult.ofRaw? answer)
  | solve _ _ _ _ _ _ _ answer =>
    match answer with
    | .ok _ | .error .singular | .error .invalid => none
    | .error cause => some (.kernel (.breakdown cause))

theorem AnalysisResult.lengthError?_eq_none {o : Options α} {r : AnalysisResult} :
    r.lengthError? o = none ↔
      (∃ n : Int, scaledLength o.integerInitFactor r.integerLength = .ok n ∧ 0 ≤ n) ∧
        ∃ n, scaledLength o.realInitFactor r.realLength = .ok n := by
  unfold lengthError?
  cases scaledLength o.integerInitFactor r.integerLength with
  | error cause => simp
  | ok integers =>
    rcases lt_or_ge integers 0 with negative | nonneg
    · simp [negative]
    · cases scaledLength o.realInitFactor r.realLength <;> simp [not_lt.2 nonneg, nonneg]

theorem KernelCall.fault?_of_reads {o : Options α} {c : KernelCall α} {s : Scratch α}
    (seen : c.scratch? = some s) {result : Except KernelFault (BacksolveResult α)}
    (reads : s.Reads result) : c.fault? o = kernelFault? result := by
  cases c with
  | analyse => cases seen
  | factorize => cases seen
  | solve dim a iw rhs aAfter iwAfter rhsAfter answer =>
    obtain rfl := Option.some.inj seen
    rcases result with fault | ⟨_ | x, flag⟩
    · obtain ⟨cause, rfl, rfl, unrefused⟩ := reads
      cases cause with
      | singular => cases unrefused
      | invalid => cases unrefused
      | outOfRange => rfl
      | foreign name => rfl
    · rcases answer with (_ | _ | _ | name) | flag'
      · rfl
      · rfl
      · cases reads
      · cases reads
      · rfl
    · obtain ⟨rfl, -⟩ := reads
      rfl

theorem KernelCall.fault?_of_analysis {o : Options α} {c : KernelCall α} {a : AnalyseCall}
    {r : AnalysisResult} (isAnalysis : c.analysis? = some a) (answer : a.result = .ok r)
    (accepted : r.accepted) : c.fault? o = (r.lengthError? o).map .length := by
  cases c with
  | analyse =>
    obtain rfl := Option.some.inj isAnalysis
    have answer : Session.read AnalysisResult.ofRaw? _ = .ok r := answer
    simp only [fault?, answer, if_pos accepted]
  | factorize => cases isAnalysis
  | solve => cases isAnalysis

/-- A fault is read off an answer, or it is that of a recommendation. -/
theorem KernelCall.fault?_cases {o : Options α} {c : KernelCall α} {fault : Fault}
    (makes : c.fault? o = some fault) : (∃ cause, fault = .kernel cause) ∨
      ∃ a r, c.analysis? = some a ∧ a.result = .ok r ∧ r.accepted ∧ r.lengthError? o ≠ none := by
  cases c with
  | analyse s iw keep controls iwAfter keepAfter answer =>
    have makes : (match Session.read AnalysisResult.ofRaw? answer with
      | .error cause => some (.kernel cause)
      | .ok r => if r.accepted then (r.lengthError? o).map .length else none) = some fault := makes
    cases said : Session.read AnalysisResult.ofRaw? answer with
    | error cause =>
      rw [said] at makes
      exact .inl ⟨cause, (Option.some.inj makes).symm⟩
    | ok r =>
      rw [said] at makes
      dsimp only at makes
      split at makes
      · next accepted =>
        obtain ⟨cause, error, -⟩ := Option.map_eq_some_iff.1 makes
        exact .inr ⟨_, r, rfl, said, accepted, Option.ne_none_iff_exists'.2 ⟨cause, error⟩⟩
      · cases makes
  | factorize s a iw keep controls aAfter iwAfter keepAfter answer =>
    have makes : kernelFault? (Session.read FactorizationResult.ofRaw? answer) = some fault := makes
    cases said : Session.read FactorizationResult.ofRaw? answer with
    | error cause =>
      rw [said] at makes
      exact .inl ⟨cause, (Option.some.inj makes).symm⟩
    | ok report =>
      rw [said] at makes
      cases makes
  | solve dim a iw rhs aAfter iwAfter rhsAfter answer =>
    rcases answer with (_ | _ | _ | name) | flag
    · cases makes
    · cases makes
    · exact .inl ⟨_, (Option.some.inj makes).symm⟩
    · exact .inl ⟨_, (Option.some.inj makes).symm⟩
    · cases makes

/-- The accepted analyses among these kernel calls recommend lengths. -/
def RecommendLengths (o : Options α) (calls : List (KernelCall α)) : Prop :=
  ∀ c ∈ calls, ∀ a r, c.analysis? = some a → a.result = .ok r → r.accepted →
    r.lengthError? o = none

theorem recommendLengths_of_calm {o : Options α} {calls : List (KernelCall α)}
    (calm : ∀ c ∈ calls, c.fault? o = none) : RecommendLengths o calls := by
  intro c hc a r isAnalysis answer accepted
  have none := (KernelCall.fault?_of_analysis isAnalysis answer accepted).symm.trans (calm c hc)
  exact Option.map_eq_none_iff.1 none

end Answer

section Exact

variable {K : Type} [Field K] [LinearOrder K] [IsStrictOrderedRing K] [FloorRing K]

/-- Exact recommendations are lengths, unless the integer words become negative. -/
theorem AnalysisResult.lengthError?_exact (o : Options K) (r : AnalysisResult) :
    r.lengthError? o =
      if o.integerInitFactor * r.integerLength ≤ -1 then some .negative else none := by
  have scaled (factor : K) (base : Int) :
      scaledLength factor base = Scalar.truncate (factor * (base : K)) := by
    simp only [scaledLength, Scalar.isFinite_eq, if_true, Scalar.ofInt_eq]
  have truncated (a : K) : ∃ n, Scalar.truncate a = .ok n ∧ (n < 0 ↔ a ≤ -1) := by
    refine ⟨if 0 ≤ a then ⌊a⌋ else ⌈a⌉, rfl, ?_⟩
    split
    · next nonneg =>
      have := Int.floor_nonneg.2 nonneg
      exact ⟨fun negative => by omega, fun small => by linarith⟩
    · rw [← Int.le_sub_one_iff, zero_sub, Int.ceil_le]
      norm_num
  obtain ⟨integers, readIntegers, negative⟩ := truncated (o.integerInitFactor * r.integerLength)
  obtain ⟨reals, readReals, -⟩ := truncated (o.realInitFactor * r.realLength)
  unfold lengthError?
  rw [scaled, scaled, readIntegers, readReals]
  simp only [negative]

end Exact

namespace Session

variable {α σ : Type} [Scalar α] {k : Kernel α σ} {s : Session α (Recorded α σ)}

theorem fault?_of_analyse (o : Options α) (h : s.kernel = k.recorded) (p : Pattern)
    (iw keep : Array Int) :
    ∃ c, (s.analyse p iw keep).session.state.calls = s.state.calls ++ [c] ∧ c.fault? o =
      match (s.analyse p iw keep).result with
      | .error cause => some (.kernel cause)
      | .ok r => if r.accepted then (r.lengthError? o).map .length else none := by
  obtain ⟨answer, result, added⟩ := record_analyse h p iw keep
  exact ⟨_, added, result ▸ rfl⟩

theorem fault?_of_factorize (o : Options α) (h : s.kernel = k.recorded) (p : Pattern)
    (a : Array α) (iw keep : Array Int) :
    ∃ c, (s.factorize p a iw keep).session.state.calls = s.state.calls ++ [c] ∧
      c.fault? o = kernelFault? (s.factorize p a iw keep).result := by
  obtain ⟨answer, result, added⟩ := record_factorize h p a iw keep
  exact ⟨_, added, result ▸ rfl⟩

omit [Scalar α] in
theorem contract_of_analyse (answers : k.Answers) (h : s.kernel = k.recorded) {p : Pattern}
    {iw keep : Array Int} {cause : KernelFault}
    (failed : (s.analyse p iw keep).result = .error cause) : ∃ breach, cause = .contract breach := by
  obtain ⟨kernel, state, controls⟩ := s
  cases h
  exact exists_contract (answers.analyse ..) failed

omit [Scalar α] in
theorem contract_of_factorize (answers : k.Answers) (h : s.kernel = k.recorded) {p : Pattern}
    {a : Array α} {iw keep : Array Int} {cause : KernelFault}
    (failed : (s.factorize p a iw keep).result = .error cause) :
    ∃ breach, cause = .contract breach := by
  obtain ⟨kernel, state, controls⟩ := s
  cases h
  exact exists_contract (answers.factorize ..) failed

omit [Scalar α] in
theorem contract_of_backsolve (answers : k.Answers) (h : s.kernel = k.recorded) {dim : Int}
    {rhs : List α} {a : Array α} {iw : Array Int} {cause : KernelFault}
    (failed : (s.backsolve dim rhs a iw).result = .error cause) :
    ∃ breach, cause = .contract breach := by
  obtain ⟨kernel, state, controls⟩ := s
  cases h
  unfold backsolve at failed
  split at failed
  · let out := k.solve state.state dim ⟨a, rfl⟩ ⟨iw, rfl⟩ (⟨rhs.toArray, rfl⟩ : Vector α _)
    obtain ⟨flag, answer⟩ : ∃ flag, out.answer = .ok flag := answers.solve ..
    have failed : (Kernel.readSolve out.rhs out.answer).mapError .breakdown = .error cause := failed
    rw [answer] at failed
    cases failed
  · exact ⟨_, (Except.error.inj failed).symm⟩

end Session

namespace Engine

section Steps

variable {α σ : Type} [Scalar α] {k : Kernel α σ} {m : MatrixView α}
variable {base e e' : Engine α (Recorded α σ)} {fault : Fault}

/-! ## Since a call began -/

/-- No kernel call since `base` has an answer that makes a fault. -/
structure Calm (k : Kernel α σ) (base e : Engine α (Recorded α σ)) : Prop where
  recorded : e.session.kernel = k.recorded
  memory : e.memory = base.memory
  options : e.options = base.options
  solverId : e.solverId = base.solverId
  calls : ∃ new, e.calls = base.calls ++ new ∧ ∀ c ∈ new, c.fault? base.options = none

/-- The last kernel call since `base` has an answer that makes this fault, and no other one has. -/
structure Struck (k : Kernel α σ) (base : Engine α (Recorded α σ)) (fault : Fault)
    (e : Engine α (Recorded α σ)) : Prop where
  calls : ∃ new c, e.calls = base.calls ++ (new ++ [c]) ∧
    (∀ d ∈ new, d.fault? base.options = none) ∧ c.fault? base.options = some fault
  answered : k.Answers → ∀ cause, fault ≠ .kernel (.breakdown cause)

theorem calm_refl (recorded : e.session.kernel = k.recorded) : Calm k e e :=
  ⟨recorded, rfl, rfl, rfl, [], (List.append_nil _).symm, nofun⟩

theorem unmoved_calm (k : Kernel α σ) (base : Engine α (Recorded α σ)) :
    Unmoved (fun _ _ => True) (Calm k base) where
  notes _ _ _ h := { h with }
  report _ _ h := { h with }

theorem unplanned_calm (k : Kernel α σ) (base : Engine α (Recorded α σ)) :
    Unplanned (Calm k base) where
  sizes _ h := { h with }
  plans _ _ _ h := { h with }

/-- A kernel call whose answer makes no fault. -/
theorem Calm.call (h : Calm k base e) {c : KernelCall α} (added : e'.calls = e.calls ++ [c])
    (calm : c.fault? base.options = none) (recorded : e'.session.kernel = k.recorded)
    (memory : e'.memory = e.memory) (options : e'.options = e.options)
    (solverId : e'.solverId = e.solverId) : Calm k base e' := by
  obtain ⟨new, calls, quiet⟩ := h.calls
  refine ⟨recorded, memory.trans h.memory, options.trans h.options, solverId.trans h.solverId,
    new ++ [c], by rw [added, calls, List.append_assoc], fun d hd => ?_⟩
  rcases List.mem_append.1 hd with hd | hd
  · exact quiet d hd
  · rw [List.mem_singleton.1 hd]
    exact calm

/-- A kernel call whose answer makes a fault. -/
theorem Calm.struck (h : Calm k base e) {c : KernelCall α} (added : e'.calls = e.calls ++ [c])
    (makes : c.fault? base.options = some fault)
    (answered : k.Answers → ∀ cause, fault ≠ .kernel (.breakdown cause)) :
    Struck k base fault e' := by
  obtain ⟨new, calls, quiet⟩ := h.calls
  exact ⟨⟨new, c, by rw [added, calls, List.append_assoc], quiet, makes⟩, answered⟩

/-- How the steps since `base` have ended with a fault: the real workspace is too short for the
matrix, or a length was refused, or the last kernel call was answered so. -/
def Stopped (k : Kernel α σ) (base : Engine α (Recorded α σ)) (fault : Fault)
    (e : Engine α (Recorded α σ)) : Prop :=
  fault = .view .shortOutput ∨ Refuses base.memory base.options fault ∨ Struck k base fault e

theorem stopped_of_refuses (fault : Fault) (refused : Refuses base.memory base.options fault) :
    Stopped k base fault e := .inr (.inl refused)

theorem Struck.stopped (h : Struck k base fault e) : Stopped k base fault e := .inr (.inr h)

/-- What has come of the steps since `base`: no kernel call makes a fault, or they are stopped. -/
def CalmOrStopped (k : Kernel α σ) (base : Engine α (Recorded α σ)) {β : Type} :
    Except Fault β → Engine α (Recorded α σ) → Prop
  | .ok _, e => Calm k base e
  | .error fault, e => Stopped k base fault e

/-! ## Steps without kernel calls -/

theorem growing_calm (named : base.solverId ≠ "") :
    Growing base.memory base.options (Calm k base) where
  memory h := h.memory
  options h := h.options
  named h := h.solverId ▸ named
  integers h _ := { h with }
  reals h _ := { h with }
  notes h _ _ := { h with }

theorem Calm.refuseShortage (h : Calm k base e) (named : base.solverId ≠ "")
    (report : FactorizationResult) (short : WorkspaceKind) (required : Requirement)
    (solveIndex i : Nat) :
    Ends (refuseShortage report short required solveIndex i) e (fun _ => Calm k base)
      (fun _ _ => False) :=
  ((refuseShortage_during (h.solverId ▸ named) report short required i).and
    ((unmoved_calm k base).refuseShortage trivial report short required solveIndex e h)).mono
      (fun _ _ h => h.2) fun _ _ h => h.1

theorem Calm.conclude (h : Calm k base e) (named : base.solverId ≠ "")
    (report : FactorizationResult) (solveIndex i : Nat) :
    Ends (conclude report solveIndex i) e (fun _ => Calm k base) (fun _ _ => False) :=
  ((conclude_during (k := solveIndex) (h.solverId ▸ named) report i).and
    ((unplanned_calm k base).conclude (unmoved_calm k base) trivial trivial trivial report solveIndex e
      h)).mono (fun _ _ h => h.2) fun _ _ h => h.1

theorem Calm.checkInertia (h : Calm k base e) (named : base.solverId ≠ "") (demand : InertiaDemand)
    (solveIndex : Nat) :
    Ends (checkInertia demand solveIndex) e (fun _ => Calm k base) (fun _ _ => False) := by
  refine ends_checkInertia_of (fun _ => h) fun expected _ _ => ?_
  refine (ends_emitWrongInertia (h.solverId ▸ named) e.negative expected).mono ?_ fun _ _ h => h
  rintro - _ ⟨diagnostics, rfl, -⟩
  exact { h with }

/-! ## Steps with kernel calls -/

theorem Calm.attempt (h : Calm k base e) (m : MatrixView α) (solveIndex i : Nat) :
    CalmOrStopped k base (attempt m solveIndex i e).1 (attempt m solveIndex i e).2 := by
  rcases Nat.lt_or_ge e.workspace.reals.length m.values.length with short | fits
  · have unfilled : m.fill e.workspace.reals.words = .error .shortOutput := if_pos short
    unfold Engine.attempt
    rw [unfilled]
    exact .inl rfl
  · obtain ⟨c, added, said⟩ := Session.fault?_of_factorize base.options h.recorded e.pattern
      (overwriteFront m.values.toArray e.workspace.reals.words) e.workspace.integers.words
      e.workspace.keep.words
    rw [attempt_eq fits]
    cases answer : (e.session.factorize e.pattern (overwriteFront m.values.toArray
      e.workspace.reals.words) e.workspace.integers.words e.workspace.keep.words).result with
    | error cause =>
      rw [answer] at said
      refine Struck.stopped (h.struck added said fun answers cause' same => ?_)
      obtain ⟨breach, rfl⟩ := Session.contract_of_factorize answers h.recorded answer
      cases same
    | ok report =>
      rw [answer] at said
      exact h.call added said h.recorded rfl rfl rfl

theorem Calm.attempts (named : base.solverId ≠ "")
    (m : MatrixView α) (solveIndex i : Nat) (e : Engine α (Recorded α σ)) (h : Calm k base e) :
    CalmOrStopped k base (attempts m solveIndex i e).1 (attempts m solveIndex i e).2 := by
  have tried (i : Nat) {e : Engine α (Recorded α σ)} (h : Calm k base e)
      {report : FactorizationResult} (answer : (Engine.attempt m solveIndex i e).1 = .ok report) :
      Calm k base (Engine.attempt m solveIndex i e).2 := by
    have stands := h.attempt m solveIndex i
    rwa [answer] at stands
  fun_induction Engine.attempts m solveIndex i e with
  | case1 i e tried' fault failed =>
    have stands := h.attempt m solveIndex i
    rwa [show (Engine.attempt m solveIndex i e).1 = .error fault from failed] at stands
  | case2 i e tried' report answer _ => exact tried i h answer
  | case3 i e tried' report answer short required _ before cause failed =>
    have same : tried'.2.options = base.options := (tried i h answer).options
    rw [same] at failed
    exact stopped_of_refuses _ (refuses_of_relief failed)
  | case4 i e tried' report answer short required _ before lengths _ _ enough fault after relieved =>
    exact stopped_of_refuses _
      (((growing_calm named).relieve (tried i h answer) ..).bad_of_exec relieved)
  | case5 i e tried' report answer short required _ before lengths _ _ enough after relieved ih =>
    exact ih (((growing_calm named).relieve (tried i h answer) ..).ok_of_exec relieved)
  | case6 i e tried' report answer short required _ before lengths _ _ refused =>
    obtain ⟨_, after, run, calm⟩ := ((tried i h answer).refuseShortage named report short required
      solveIndex i).exists_ok
    have done : refused = (.ok (), after) := run
    rw [done]
    exact calm

theorem Calm.factorize (h : Calm k base e) (named : base.solverId ≠ "") (m : MatrixView α)
    (solveIndex : Nat) :
    Ends (factorize m solveIndex) e (fun _ => Calm k base) (Stopped k base) := by
  unfold Engine.factorize
  refine ((growing_calm named).applyPendingGrowth h solveIndex).bind (fun _ e₁ h₁ => ?_)
    fun fault _ => stopped_of_refuses fault
  have stands := Calm.attempts named m solveIndex 0 e₁ h₁
  have run : exec (ExceptT.mk (Engine.attempts m solveIndex 0)) e₁ =
      Engine.attempts m solveIndex 0 e₁ := rfl
  generalize Engine.attempts m solveIndex 0 e₁ = ended at run stands
  rcases ended with ⟨fault | _ | ⟨report, i⟩, e₂⟩
  · rw [Ends, exec_bind, run]
    exact stands
  · exact (ends_bind_of_ok run).2 stands
  · refine (ends_bind_of_ok run).2 ?_
    have calm : Calm k base e₂ := stands
    exact (calm.conclude named report solveIndex i).mono (fun _ _ h => h) (by simp)

theorem ends_negative_integers {n : Int} (negative : n < 0) {β : Type}
    {run : Unit → EngineM α (Recorded α σ) β} {after : β → Engine α (Recorded α σ) → Prop}
    {bad : Fault → Engine α (Recorded α σ) → Prop} (hbad : bad (.length .negative) e) :
    Ends (ensureIntegers n >>= run) e after bad := by
  have refused : e.workspace.integers.ensure e.memory n = .error .negative := if_pos negative
  unfold ensureIntegers
  simp only [bind_assoc]
  rw [ends_get, refused]
  exact hbad

/-- An analysis whose recommendation is no length ends with that fault. -/
theorem ends_recommended_of_error {o : Options α} {r : AnalysisResult} {cause : Buffer.LengthError}
    (error : r.lengthError? o = some cause) {memory : Memory} (here : e.memory = memory) {β : Type}
    {next : Int → EngineM α (Recorded α σ) β} {after : β → Engine α (Recorded α σ) → Prop}
    {bad : Fault → Engine α (Recorded α σ) → Prop}
    (hbad : ∀ workspace, bad (.length cause) { e with workspace })
    (refused : ∀ fault, Refuses memory o fault → bad fault e) :
    Ends (do
      ensureIntegers (← lengthOrFault (scaledLength o.integerInitFactor r.integerLength))
      next (← lengthOrFault (scaledLength o.realInitFactor r.realLength))) e after bad := by
  unfold AnalysisResult.lengthError? at error
  cases integers : scaledLength o.integerInitFactor r.integerLength with
  | error why =>
    rw [integers] at error
    cases error
    exact hbad e.workspace
  | ok n =>
    rw [integers] at error
    refine ends_length rfl ?_
    rcases lt_or_ge n 0 with negative | nonneg
    · simp only [negative, if_true] at error
      cases error
      exact ends_negative_integers negative (hbad e.workspace)
    · refine ends_integers_unless_refused here (fun _ => nonneg) ?_ refused
      simp only [not_lt.2 nonneg, if_false] at error
      cases reals : scaledLength o.realInitFactor r.realLength with
      | error why =>
        rw [reals] at error
        cases error
        exact hbad _
      | ok n' =>
        rw [reals] at error
        cases error

theorem Calm.analyse (named : base.solverId ≠ "") (h : Calm k base e) (dim : 0 ≤ e.dim)
    (solveIndex : Nat) :
    Ends (analyse solveIndex) e (fun _ => Calm k base) (Stopped k base) := by
  unfold Engine.analyse
  rw [ends_get, h.options]
  refine ends_scaled Options.Finite.analysis (.inl base.options.length_factors.1) (by omega)
    (fun n long => ?_) stopped_of_refuses
  refine ends_integers_unless_refused h.memory (fun free => ?_) ?_ stopped_of_refuses
  · have := long free
    omega
  refine ends_keep_unless_refused h.memory (fun _ => by omega) ?_ stopped_of_refuses
  let e₁ : Engine α (Recorded α σ) := { e with workspace := { e.workspace with
    integers := e.workspace.integers.grow n.toNat
    keep := e.workspace.keep.grow (3 * e.dim).toNat } }
  show Ends _ e₁ _ _
  have h₁ : Calm k base e₁ := (unplanned_calm k base).sizes _ h
  clear_value e₁
  obtain ⟨c, added, said⟩ := Session.fault?_of_analyse base.options h₁.recorded e₁.pattern
    e₁.workspace.integers.words e₁.workspace.keep.words
  refine ends_callAnalysis (fun r answer => ?_) fun cause answer => ?_
  · rw [answer] at said
    dsimp only at said
    split
    · next accepted =>
      rw [if_pos accepted] at said
      cases error : r.lengthError? base.options with
      | some cause =>
        rw [error] at said
        have here : e₁.afterAnalysis.memory = base.memory := h₁.memory
        have stopped (workspace : Workspace α) :
            Stopped k base (.length cause) { e₁.afterAnalysis with workspace } :=
          Struck.stopped (h₁.struck added said fun _ _ => nofun)
        exact ends_recommended_of_error error here stopped stopped_of_refuses
      | none =>
        rw [error] at said
        have h₂ : Calm k base e₁.afterAnalysis := h₁.call added said h₁.recorded rfl rfl rfl
        obtain ⟨⟨integers, readIntegers, nonneg⟩, reals, readReals⟩ :=
          AnalysisResult.lengthError?_eq_none.1 error
        refine ends_length readIntegers
          (ends_integers_unless_refused h₂.memory (fun _ => nonneg) ?_ stopped_of_refuses)
        refine ends_length readReals (ends_reals_unless_refused h₂.memory
          (fun _ => le_max_of_le_left (Int.natCast_nonneg _)) ?_ stopped_of_refuses)
        rw [ends_modify]
        exact { h₂ with }
    · next refused =>
      rw [if_neg refused] at said
      have h₂ : Calm k base e₁.afterAnalysis := h₁.call added said h₁.recorded rfl rfl rfl
      refine (ends_emit_graded .error (by decide +kernel) (by simp [toString]) (h₂.solverId ▸ named)
        (by simp [Payload.normalize])).bind ?_ (by simp)
      rintro - _ ⟨diagnostics, rfl, -⟩
      exact { h₂ with }
  · rw [answer] at said
    refine Struck.stopped (h₁.struck added said fun answers cause' same => ?_)
    obtain ⟨breach, rfl⟩ := Session.contract_of_analyse answers h₁.recorded answer
    cases same

theorem Calm.solveOne (named : base.solverId ≠ "") (h : Calm k base e) {b x : DenseVector α}
    (fits : (b.dim : Int) = e.dim) (same : x.dim = b.dim) (solveIndex index : Nat) :
    Ends (solveOne solveIndex index b x) e (fun _ => Calm k base) (Struck k base) := by
  obtain ⟨c, s, added, seen, -, long, reads⟩ := Session.scratch_backsolve h.recorded fits
    e.workspace.reals.words e.workspace.integers.words
  have said : c.fault? base.options = _ := KernelCall.fault?_of_reads seen reads
  have recorded : (e.afterBacksolve b).session.kernel = k.recorded :=
    (Session.kernel_backsolve ..).trans h.recorded
  unfold Engine.solveOne
  refine ends_callSolve (fun result answer => ?_) fun cause answer => ?_
  · rw [answer] at said reads
    have h₁ : Calm k base (e.afterBacksolve b) := h.call added said recorded rfl rfl rfl
    split
    · refine (ends_bind_of_ok (exec_emitBacksolveFailed (h₁.solverId ▸ named) ..)).2 ?_
      exact { h₁ with }
    · next y found =>
      obtain rfl : y = s.left.entries := by
        obtain ⟨_ | x, flag⟩ := result
        · cases found
        · cases found
          exact reads.2
      have written : x.set s.left.entries = .ok s.left := if_neg (not_not.2 (long.trans same.symm))
      rw [written]
      exact h₁
  · rw [answer] at said
    refine h.struck added said fun answers cause' same => ?_
    obtain ⟨breach, rfl⟩ := Session.contract_of_backsolve answers h.recorded answer
    cases same

theorem Calm.backsolve (named : base.solverId ≠ "") (solveIndex index : Nat)
    (rhs solutions : List (DenseVector α)) (e : Engine α (Recorded α σ)) (h : Calm k base e)
    (rhsDims : ∀ b ∈ rhs, (b.dim : Int) = e.dim)
    (solutionDims : ∀ x ∈ solutions, (x.dim : Int) = e.dim) :
    CalmOrStopped k base (backsolve solveIndex index rhs solutions e).1.result
      (backsolve solveIndex index rhs solutions e).2 := by
  have solved {b x : DenseVector α} {more rest : List (DenseVector α)} {index : Nat}
      {e : Engine α (Recorded α σ)} (h : Calm k base e)
      (rhsDims : ∀ c ∈ b :: more, (c.dim : Int) = e.dim)
      (solutionDims : ∀ y ∈ x :: rest, (y.dim : Int) = e.dim) :
      Ends (Engine.solveOne solveIndex index b x) e
        (fun _ e' => Calm k base e' ∧ e'.dim = e.dim) (Struck k base) := by
    have fits := rhsDims b List.mem_cons_self
    have same : x.dim = b.dim := Int.ofNat.inj ((solutionDims x List.mem_cons_self).trans fits.symm)
    exact ((h.solveOne named fits same solveIndex index).and
      (solveOne_during (h.solverId ▸ named) index b x)).mono
        (fun _ _ ⟨calm, during, _⟩ => ⟨calm, during.steady.dim⟩) fun _ _ h => h.1
  fun_induction Engine.backsolve solveIndex index rhs solutions e with
  | case1 index b more x solutions e fault after failed =>
    exact ((solved h rhsDims solutionDims).bad_of_exec failed).stopped
  | case2 index b more x solutions e after refused =>
    exact ((solved h rhsDims solutionDims).ok_of_exec refused).1
  | case3 index b more x solutions e x' after found answer last rest ih =>
    obtain ⟨calm, dim⟩ := (solved h rhsDims solutionDims).ok_of_exec found
    rw [rest] at ih
    exact ih calm (fun c hc => dim ▸ rhsDims c (List.mem_cons_of_mem _ hc))
      fun y hy => dim ▸ solutionDims y (List.mem_cons_of_mem _ hy)
  | case4 => exact h

/-! ## Whole calls -/

theorem Calm.prepare (named : base.solverId ≠ "") (h : Calm k base e)
    (dim : 0 ≤ (captureIfNew m e).dim) (demand : InertiaDemand) (solveIndex : Nat) :
    Ends (prepare m demand solveIndex) e (fun _ => Calm k base) (Stopped k base) := by
  have captured : Calm k base (captureIfNew m e) :=
    (unplanned_calm k base).captureIfNew (unmoved_calm k base) h
  refine ends_prepare_of (Calm k base) ?_ (fun e₁ h₁ => ?_) fun e₂ h₂ => ?_
  · split
    · refine (captured.analyse named dim solveIndex).mono ?_ fun _ _ h => h
      rintro (_ | outcome) e₁ h₁
      · exact (unmoved_calm k base).noteValues h₁
      · exact h₁
    · exact (unmoved_calm k base).noteValues captured
  · split
    · exact h₁
    · exact h₁.factorize named m solveIndex
  · exact (h₂.checkInertia named demand solveIndex).mono (fun _ _ h => h) fun _ _ h => h.elim

/-- **What a call raises** is what the last kernel call was answered by. -/
theorem calmOrStopped_multiSolve (named : e.solverId ≠ "")
    (recorded : e.session.kernel = k.recorded) {rhs solutions : List (DenseVector α)}
    {demand : InertiaDemand} (accepted : e.usageFault? m rhs solutions demand = none) :
    CalmOrStopped k e (e.multiSolve m rhs solutions demand).1.result
      (e.multiSolve m rhs solutions demand).2 := by
  have checked := usageFault?_eq_none.1 accepted
  have begun : Calm k e e.beginCall := { calm_refl recorded with }
  have captured : (captureIfNew m e.beginCall).dim = m.dim := dim_captured checked
  have prepared := (stage_prepare (e := e.beginCall) named m demand).and
    (begun.prepare named (captured ▸ Int.natCast_nonneg _) demand e.solveCount)
  refine multiSolve_of_prepare (fun e₁ => Calm k e e₁ ∧ e₁.dim = m.dim)
    (fun answer => CalmOrStopped k e answer.result) accepted ?_ ?_
  · refine prepared.mono ?_ fun _ _ h => h.2
    rintro (_ | outcome) e₁ ⟨staged, calm⟩
    · exact ⟨calm, staged.1.during.steady.dim.trans captured⟩
    · exact calm
  · rintro e₁ ⟨calm, dim⟩
    exact calm.backsolve named e.solveCount 0 rhs solutions e₁
      (fun b hb => dim ▸ congrArg Nat.cast (checked.rhsDims b hb))
      fun x hx => dim ▸ congrArg Nat.cast (checked.solutionDims x hx)

end Steps

end Engine

/-! ## Outcomes and breaches -/

/-- The call comes to an outcome, or tells a breach of the kernel's contract. -/
def SolveAnswer.Told {α : Type} (answer : SolveAnswer α) : Prop :=
  (∃ outcome, answer.result = .ok outcome) ∨
    ∃ breach, answer.result = .error (.kernel (.contract breach))

section Struck

variable {α : Type} [Scalar α] {o : Options α} {calls : List (KernelCall α)}
variable {last : KernelCall α} {fault : Fault}
variable (calm : ∀ c ∈ calls, c.fault? o = none) (makes : last.fault? o = some fault)
include calm makes

/-- Only the last kernel call makes a fault. -/
theorem fault_eq_of_struck {c : KernelCall α} (hc : c ∈ calls ++ [last]) {other : Fault}
    (makes' : c.fault? o = some other) : fault = other := by
  rcases List.mem_append.1 hc with hc | hc
  · cases (calm c hc).symm.trans makes'
  · rw [List.mem_singleton.1 hc, makes] at makes'
    exact Option.some.inj makes'

/-- A fault is told, unless it is that of a recommendation. -/
theorem told_iff_of_struck {answer : SolveAnswer α} (result : answer.result = .error fault)
    (answered : ∀ cause, fault ≠ .kernel (.breakdown cause)) :
    answer.Told ↔ RecommendLengths o (calls ++ [last]) := by
  constructor
  · rintro told c hc a r isAnalysis answer accepted
    cases error : r.lengthError? o with
    | none => rfl
    | some cause =>
      have makes' := KernelCall.fault?_of_analysis (o := o) isAnalysis answer accepted
      rw [error] at makes'
      obtain rfl := fault_eq_of_struck calm makes hc makes'
      rcases told with ⟨outcome, told⟩ | ⟨breach, told⟩
      · cases result.symm.trans told
      · cases result.symm.trans told
  · intro recommended
    rcases KernelCall.fault?_cases makes with
      ⟨cause, rfl⟩ | ⟨a, r, isAnalysis, answer, accepted, other⟩
    · cases cause with
      | contract breach => exact .inr ⟨breach, result⟩
      | breakdown cause => exact absurd rfl (answered cause)
    · have member : last ∈ calls ++ [last] := List.mem_append_right _ (List.mem_singleton_self last)
      exact absurd (recommended last member a r isAnalysis answer accepted) other

end Struck

section Reached

variable {α σ : Type} [RealScalar α] [Printable α]

/-- **Breaches are told**, and nothing else, unless an accepted analysis recommends no length. -/
theorem breaches_are_told {k : Kernel α σ} (answers : k.Answers) {w : World α (Recorded α σ)}
    (reached : w.Reached k) {A : SymTriplets α} {rhs solutions : List (DenseVector α)}
    {demand : InertiaDemand} (accepted : w.engine.usageFault? A.view rhs solutions demand = none) :
    let called := w.engine.multiSolve A.view rhs solutions demand
    (∃ fault, called.1.result = .error fault ∧
      Refuses w.engine.memory w.engine.options fault) ∨
    ∃ new, called.2.calls = w.engine.calls ++ new ∧
      (∀ fault, called.1.result = .error fault ↔
        ∃ c ∈ new, c.fault? w.engine.options = some fault) ∧
      (called.1.Told ↔ RecommendLengths w.engine.options new) := by
  intro called
  have regular := reached.arises.regular
  have fits := regular.consistent.fits regular.named (by simp [SymTriplets.view]) A.length_values
    rhs solutions demand
  have comes := Engine.calmOrStopped_multiSolve regular.named regular.kernel accepted
  cases result : called.1.result with
  | ok outcome =>
    rw [show _ = Except.ok outcome from result] at comes
    obtain ⟨new, added, calm⟩ := Engine.Calm.calls comes
    refine .inr ⟨new, added, fun fault => ⟨fun other => (by cases other), ?_⟩,
      fun _ => recommendLengths_of_calm calm, fun _ => .inl ⟨outcome, result⟩⟩
    rintro ⟨c, hc, makes⟩
    cases (calm c hc).symm.trans makes
  | error fault =>
    rw [show _ = Except.error fault from result] at comes
    obtain short | refused | ⟨⟨new, last, added, calm, makes⟩, answered⟩ := comes
    · exact absurd (short ▸ result) fits
    · exact .inl ⟨fault, rfl, refused⟩
    · refine .inr ⟨new ++ [last], added, fun other => ⟨?_, ?_⟩,
        told_iff_of_struck calm makes result (answered answers)⟩
      · rintro ⟨⟩
        exact ⟨last, List.mem_append_right _ (List.mem_singleton_self last), makes⟩
      · rintro ⟨c, hc, makes'⟩
        rw [fault_eq_of_struck calm makes hc makes']

end Reached

/-! ## A kernel that always answers the same -/

/-- A kernel that answers with these arrays and computes nothing. -/
def answering (analysis factorization : RawInfo) : Kernel ℚ Unit where
  id := "answering"
  defaultControls := Vector.replicate 5 0
  analyse _ _ iw keep _ := ⟨(), iw, keep, .ok analysis⟩
  factorize _ _ a iw keep _ := ⟨(), a, iw, keep, .ok factorization⟩
  solve _ _ a iw rhs := ⟨(), a, iw, rhs, .ok 0⟩

theorem answering_answers (analysis factorization : RawInfo) :
    (answering analysis factorization).Answers where
  analyse _ _ _ _ _ := ⟨analysis, rfl⟩
  factorize _ _ _ _ _ _ := ⟨factorization, rfl⟩
  solve _ _ _ _ _ := ⟨0, rfl⟩

/-- A caller of that kernel with the matrix with the entry 2. -/
def answeringWorld (analysis factorization : RawInfo) : World ℚ (Recorded ℚ Unit) :=
  (World.start (exactEngine (answering analysis factorization).recorded ⟨(), []⟩) ⟨0⟩).run
    [.ofTriplets 1 [0] [0] (some [2])]

theorem reached_answeringWorld (analysis factorization : RawInfo) :
    (answeringWorld analysis factorization).Reached (answering analysis factorization) :=
  ⟨_, _, (), _, _, exactEngine _ _, ⟨0⟩, _, create_exactEngine .., rfl⟩

/-- A factorization that answers with twenty floating-point words is told as a breach. -/
theorem breaches_are_told_words :
    let w := answeringWorld (KernelInfo.toRaw { realLength := 1, integerLength := 1 }) (.other [20])
    let called := w.engine.multiSolve (SymTriplets.view ⟨1, [⟨0, 0, 2⟩], 0⟩) [⟨[1]⟩] [⟨[0]⟩] none
    called.1.result = .error (.kernel (.contract .infoKind)) ∧ called.1.Told ∧
      ∃ c ∈ called.2.calls, c.fault? w.engine.options = some (.kernel (.contract .infoKind)) := by
  intro w called
  have accepted : w.engine.usageFault? (SymTriplets.view ⟨1, [⟨0, 0, 2⟩], 0⟩) [⟨[1]⟩] [⟨[0]⟩] none =
    none := by decide +kernel
  obtain ⟨fault, -, refused⟩ | ⟨new, added, raised, -⟩ :=
    breaches_are_told (answering_answers _ _) (reached_answeringWorld ..) accepted
  · exact absurd refused ((boundless_of_unlimited _).not_refuses fault)
  have result : called.1.result = .error (.kernel (.contract .infoKind)) := by decide +kernel
  obtain ⟨c, member, makes⟩ := (raised _).1 result
  exact ⟨result, .inr ⟨_, result⟩, c, added ▸ List.mem_append_right _ member, makes⟩

/-- **A negative recommendation escapes** as the fault of a buffer. -/
theorem negative_recommendation_escapes :
    let k := answering (KernelInfo.toRaw { integerLength := -1 }) (KernelInfo.toRaw {})
    let w := answeringWorld (KernelInfo.toRaw { integerLength := -1 }) (KernelInfo.toRaw {})
    let called := w.engine.multiSolve (SymTriplets.view ⟨1, [⟨0, 0, 2⟩], 0⟩) [⟨[1]⟩] [⟨[0]⟩] none
    k.Answers ∧ w.Reached k ∧ Boundless w.engine.memory w.engine.options ∧
      w.engine.usageFault? (SymTriplets.view ⟨1, [⟨0, 0, 2⟩], 0⟩) [⟨[1]⟩] [⟨[0]⟩] none = none ∧
      called.1.result = .error (.length .negative) ∧ ¬ called.1.Told := by
  intro k w called
  have result : called.1.result = .error (.length .negative) := by decide +kernel
  refine ⟨answering_answers _ _, reached_answeringWorld _ _, boundless_of_unlimited _,
    by decide +kernel, result, ?_⟩
  rintro (⟨outcome, told⟩ | ⟨breach, told⟩)
  · cases result.symm.trans told
  · cases result.symm.trans told

end SymSolve
