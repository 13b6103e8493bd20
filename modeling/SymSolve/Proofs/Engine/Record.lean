import SymSolve.Proofs.Engine.Calls

/-!
# The kernel calls of one call of the engine

**Theorem (`record_multiSolve`).** What a call of the engine adds to the record are first analyses
and factorizations of the captured pattern with the values of the matrix, then solves. Every
solve gets the words that the latest factorization left, and that factorization was a success.

**Theorem (`no_analysis_of_analysed`).** A call from an engine with an analysed structure adds no
analysis.

**Theorem (`no_factorization_of_current`).** A call for which the notes of the engine promise
factors of the same values adds nothing but solves.
-/

namespace SymSolve.Engine

variable {α σ : Type} [Scalar α] {k : Kernel α σ} {m : MatrixView α}

/-- The calls of the kernel so far. -/
def calls (e : Engine α (Recorded α σ)) : List (KernelCall α) := e.session.state.calls

variable {e e' e'' : Engine α (Recorded α σ)}

/-- `e'` comes from `e` by solves only. If they leave the factors alone, all of them get the words
that `e` has in its buffers. -/
structure OnlySolves (k : Kernel α σ) (e e' : Engine α (Recorded α σ)) : Prop where
  kernel : e'.session.kernel = e.session.kernel
  words : k.LeavesFactors →
    e'.workspace.reals = e.workspace.reals ∧ e'.workspace.integers = e.workspace.integers
  pattern : e'.pattern = e.pattern
  notes : e'.phase = e.phase ∧ e'.negative = e.negative
  added : ∃ new, e'.calls = e.calls ++ new ∧ ∀ c ∈ new, ∃ s, c.solve? = some s ∧
    (k.LeavesFactors → s.a = e.workspace.reals.words ∧ s.iw = e.workspace.integers.words)

theorem OnlySolves.refl (e : Engine α (Recorded α σ)) : OnlySolves k e e :=
  ⟨rfl, fun _ => ⟨rfl, rfl⟩, rfl, ⟨rfl, rfl⟩, [], (List.append_nil _).symm, nofun⟩

theorem OnlySolves.trans (h : OnlySolves k e e') (h' : OnlySolves k e' e'') : OnlySolves k e e'' where
  kernel := h'.kernel.trans h.kernel
  words leaves := ⟨(h'.words leaves).1.trans (h.words leaves).1,
    (h'.words leaves).2.trans (h.words leaves).2⟩
  pattern := h'.pattern.trans h.pattern
  notes := ⟨h'.notes.1.trans h.notes.1, h'.notes.2.trans h.notes.2⟩
  added := by
    obtain ⟨new, added, solves⟩ := h.added
    obtain ⟨new', added', solves'⟩ := h'.added
    refine ⟨new ++ new', by rw [added', added, List.append_assoc], fun c hc => ?_⟩
    rcases List.mem_append.1 hc with hc | hc
    · exact solves c hc
    · obtain ⟨s, hs, same⟩ := solves' c hc
      refine ⟨s, hs, fun leaves => ?_⟩
      rw [(same leaves).1, (same leaves).2, (h.words leaves).1, (h.words leaves).2]
      exact ⟨rfl, rfl⟩

theorem onlySolves_afterBacksolve (recorded : e.session.kernel = k.recorded)
    (rhs : DenseVector α) : OnlySolves k e (e.afterBacksolve rhs) := by
  refine ⟨Session.kernel_backsolve .., fun leaves => ?_, rfl, ⟨rfl, rfl⟩, ?_⟩
  · obtain ⟨ha, hiw⟩ := Session.backsolve_leaves recorded leaves e.dim rhs.entries
      e.workspace.reals.words e.workspace.integers.words
    exact ⟨congrArg Buffer.mk ha, congrArg Buffer.mk hiw⟩
  rcases Session.record_backsolve recorded e.dim rhs.entries e.workspace.reals.words
    e.workspace.integers.words with record | ⟨rhsAfter, answer, record⟩
  · exact ⟨[], record.trans (List.append_nil _).symm, nofun⟩
  · refine ⟨_, record, fun c hc => ?_⟩
    obtain rfl := List.mem_singleton.1 hc
    exact ⟨_, rfl, fun _ => ⟨rfl, rfl⟩⟩

theorem OnlySolves.diagnostics (h : OnlySolves k e e') (diagnostics : List (Event α)) :
    OnlySolves k e { e' with diagnostics } := ⟨h.kernel, h.words, h.pattern, h.notes, h.added⟩

theorem onlySolves_solveOne (recorded : e.session.kernel = k.recorded) (solveIndex index : Nat)
    (rhs solution : DenseVector α) :
    Ends (solveOne solveIndex index rhs solution) e (fun _ => OnlySolves k e)
      (fun _ => OnlySolves k e) := by
  have after := onlySolves_afterBacksolve recorded rhs
  unfold solveOne
  refine ends_callSolve (fun result _ => ?_) fun _ _ => after
  split
  · refine (ends_emit ..).bind ?_ ?_
    · rintro - _ ⟨diagnostics, rfl⟩
      exact after.diagnostics diagnostics
    · rintro - _ rfl
      exact after
  · next x _ =>
    cases solution.set x with
    | error cause => exact after
    | ok y => exact after

theorem onlySolves_backsolve (solveIndex index : Nat)
    (rhs solutions : List (DenseVector α)) (e : Engine α (Recorded α σ))
    (recorded : e.session.kernel = k.recorded) :
    OnlySolves k e (backsolve solveIndex index rhs solutions e).2 := by
  fun_induction backsolve solveIndex index rhs solutions e with
  | case1 index b more x solutions e fault after solved =>
    exact (onlySolves_solveOne recorded ..).bad_of_exec solved
  | case2 index b more x solutions e after solved =>
    exact (onlySolves_solveOne recorded ..).ok_of_exec solved
  | case3 index b more x solutions e x' after solved answer last rest ih =>
    have first : OnlySolves k e after := (onlySolves_solveOne recorded ..).ok_of_exec solved
    rw [rest] at ih
    exact first.trans (ih (first.kernel.trans recorded))
  | case4 => exact .refl _

/-! ## Preparing -/

/-- The records that serve one call: what is new are analyses and factorizations of the pattern,
with the values and the control words. -/
def ServesSince (base : List (KernelCall α)) (p : Pattern) (values : List α)
    (controls : Controls α) (now : Controls α) (calls : List (KernelCall α)) : Prop :=
  now = controls ∧ ∃ new, calls = base ++ new ∧ ∀ earlier c later, new = earlier ++ c :: later →
    c.Serves p values controls (base ++ earlier)

omit [Scalar α] in
theorem servesSince_factorizes (base : List (KernelCall α)) (p : Pattern) (values : List α)
    (controls : Controls α) :
    (recordSpec k (ServesSince base p values controls)).Factorizes p values := by
  refine recordSpec_factorizes ?_
  rintro _ _ c ⟨rfl, new, rfl, serve⟩ serves
  refine ⟨rfl, new ++ [c], List.append_assoc .., fun earlier d later split => ?_⟩
  rcases List.append_eq_append_iff.1 split with ⟨between, rfl, hc⟩ | ⟨between, rfl, hd⟩
  · rcases between with _ | ⟨x, between⟩
    · obtain ⟨rfl, -⟩ := List.cons.inj hc
      rwa [List.append_nil]
    · simp at hc
  · rcases between with _ | ⟨x, between⟩
    · obtain ⟨rfl, -⟩ := List.cons.inj hd
      rwa [List.append_nil] at serves
    · obtain ⟨rfl, -⟩ := List.cons.inj hd
      exact serve _ _ between rfl

/-- What one call of the engine adds to the record. -/
structure Records (k : Kernel α σ) (e e' : Engine α (Recorded α σ)) (m : MatrixView α)
    (prepares solves : List (KernelCall α)) : Prop where
  added : e'.calls = e.calls ++ (prepares ++ solves)
  serves : ∀ earlier c later, prepares = earlier ++ c :: later →
    c.Serves (e.captured m).pattern m.values e.session.controls (e.calls ++ earlier)
  rests : ∀ c ∈ solves, ∃ s f negative, c.solve? = some s ∧
    latest? KernelCall.factorization? (e.calls ++ prepares) = some f ∧
    f.Made (e.captured m).pattern m.values e.session.controls negative ∧ f.Left k s.a s.iw ∧
    e'.phase = .factorized ∧ e'.negative = some negative

/-- Before a solve there is everything that was prepared, and after that only solves. -/
theorem Records.of_solve {prepares solves earlier later : List (KernelCall α)} {c : KernelCall α}
    {s : SolveCall α} (h : Records k e e' m prepares solves)
    (split : prepares ++ solves = earlier ++ c :: later) (hs : c.solve? = some s) :
    c ∈ solves ∧ latest? KernelCall.factorization? (e.calls ++ earlier) =
      latest? KernelCall.factorization? (e.calls ++ prepares) := by
  have after : ∃ between, earlier = prepares ++ between ∧ solves = between ++ c :: later := by
    rcases List.append_eq_append_iff.1 split with ⟨between, rfl, rfl⟩ | ⟨_ | ⟨d, rest⟩, hp, hc⟩
    · exact ⟨between, rfl, rfl⟩
    · exact ⟨[], by simpa using hp.symm, hc.symm⟩
    · obtain ⟨rfl, -⟩ := List.cons.inj hc
      have := KernelCall.solve?_of_serves (h.serves _ _ _ hp)
      simp [hs] at this
  obtain ⟨between, rfl, rfl⟩ := after
  refine ⟨by simp, ?_⟩
  rw [← List.append_assoc]
  refine latest?_append_of_none (fun d hd => ?_) _
  obtain ⟨t, -, -, ht, -⟩ := h.rests d (List.mem_append_left _ hd)
  exact KernelCall.factorization?_of_solve? ht

/-- Factorizations are prepared. -/
theorem Records.of_factorization {prepares solves earlier later : List (KernelCall α)}
    {c : KernelCall α} {f : FactorizeCall α} (h : Records k e e' m prepares solves)
    (split : prepares ++ solves = earlier ++ c :: later) (hf : c.factorization? = some f) :
    ∃ rest, prepares = earlier ++ c :: rest := by
  rcases List.append_eq_append_iff.1 split with ⟨between, rfl, hs⟩ | ⟨_ | ⟨d, rest⟩, hp, hc⟩
  · obtain ⟨s, -, -, isSolve, -⟩ := h.rests c (hs ▸ by simp)
    simp [KernelCall.factorization?_of_solve? isSolve] at hf
  · have first : c :: later = solves := hc
    obtain ⟨s, -, -, isSolve, -⟩ := h.rests c (first ▸ List.mem_cons_self)
    simp [KernelCall.factorization?_of_solve? isSolve] at hf
  · obtain ⟨rfl, -⟩ := List.cons.inj hc
    exact ⟨rest, hp⟩

variable {knows : Nat → List α → Prop} {allowed : Controls α → List (KernelCall α) → Prop}

/-- **The calls of one call.** -/
theorem record_multiSolve (h : Sound (recordSpec k allowed) knows e)
    {rhs solutions : List (DenseVector α)} {demand : InertiaDemand}
    (accepted : Accepted e m rhs solutions demand) (counted : m.values.length = m.nonzeros)
    (known : ∀ v, knows m.tag v ↔ v = m.values) :
    ∃ prepares solves,
      Records k e (e.multiSolve m rhs solutions demand).2 m prepares solves := by
  let spec : KernelSpec α (Recorded α σ) :=
    recordSpec k (ServesSince e.calls (e.captured m).pattern m.values e.session.controls)
  have begun : Sound spec knows e.beginCall :=
    { h with admits := ⟨h.admits.1, rfl, [], (List.append_nil _).symm, by simp⟩ }
  have meets := servesSince_factorizes (k := k) e.calls (e.captured m).pattern m.values
    e.session.controls
  have prepared := ends_prepare begun meets.toAttempts (fun _ => meets) counted accepted.sameCount
    known demand e.solveCount
  have unsolved {e' : Engine α (Recorded α σ)} (sound : Sound spec knows e') :
      ∃ prepares solves, Records k e e' m prepares solves := by
    obtain ⟨-, new, added, serve⟩ := sound.admits.2
    exact ⟨new, [], added.trans (by rw [List.append_nil]), serve, by simp⟩
  refine multiSolve_of_prepare (Prepares spec knows m (e.captured m) none)
    (fun _ e' => ∃ prepares solves, Records k e e' m prepares solves)
    (usageFault?_eq_none.2 accepted) ?_ fun e₁ ready => ?_
  · refine prepared.mono ?_ fun _ _ left => unsolved left.1
    rintro (_ | outcome) e₁ ⟨ready, -⟩
    · exact ready
    · exact unsolved ready.sound
  · obtain ⟨-, new, added, serve⟩ := ready.sound.admits.2
    obtain ⟨late, -, negative, noted, f, latest, made, left⟩ := ready.current rfl
    have solved := onlySolves_backsolve e.solveCount 0 rhs solutions e₁ ready.sound.admits.1
    obtain ⟨more, added', solves⟩ := solved.added
    have before : e₁.calls = e.calls ++ new := added
    refine ⟨new, more, ?_, serve, fun c hc => ?_⟩
    · rw [added', before, List.append_assoc]
    · obtain ⟨s, hs, same⟩ := solves c hc
      refine ⟨s, f, negative, hs, ?_, ?_, fun leaves => ?_, solved.notes.1.trans late,
        solved.notes.2.trans noted⟩
      · rw [← before]
        exact latest
      · have pattern : e₁.pattern = (e.captured m).pattern := ready.steady.pattern
        have controls : e₁.session.controls = e.session.controls := ready.sound.admits.2.1
        rwa [← pattern, ← controls]
      · rw [(same leaves).1, (same leaves).2]
        exact left leaves

/-- The records that go on from some calls without another analysis. -/
def UnanalysedSince (base : List (KernelCall α)) (_ : Controls α) (calls : List (KernelCall α)) :
    Prop :=
  ∃ new, calls = base ++ new ∧ ∀ c ∈ new, c.analysis? = none

omit [Scalar α] in
theorem unanalysedSince_attempts (base : List (KernelCall α)) (p : Pattern) (values : List α) :
    (recordSpec k (UnanalysedSince base)).Attempts p values := by
  refine recordSpec_attempts ?_
  rintro _ _ c ⟨new, rfl, unanalysed⟩ factorizes -
  refine ⟨new ++ [c], List.append_assoc .., fun d hd => ?_⟩
  rcases List.mem_append.1 hd with hd | hd
  · exact unanalysed d hd
  · obtain rfl := List.mem_singleton.1 hd
    exact KernelCall.analysis?_of_factorization factorizes

/-- **An analysis is not repeated.** -/
theorem no_analysis_of_analysed (h : Sound (recordSpec k allowed) knows e)
    {rhs solutions : List (DenseVector α)} {demand : InertiaDemand}
    (accepted : Accepted e m rhs solutions demand) (counted : m.values.length = m.nonzeros)
    (known : ∀ v, knows m.tag v ↔ v = m.values) (analysed : e.phase.Analysed) :
    UnanalysedSince e.calls e.session.controls (e.multiSolve m rhs solutions demand).2.calls := by
  have begun : Sound (recordSpec k (UnanalysedSince e.calls)) knows e.beginCall :=
    { h with admits := ⟨h.admits.1, [], (List.append_nil _).symm, nofun⟩ }
  have prepared := ends_prepare begun (unanalysedSince_attempts _ _ _)
    (fun early => absurd analysed early) counted accepted.sameCount known demand e.solveCount
  refine multiSolve_of_prepare
    (Prepares (recordSpec k (UnanalysedSince e.calls)) knows m (e.captured m) none)
    (fun _ e' => UnanalysedSince e.calls e.session.controls e'.calls)
    (usageFault?_eq_none.2 accepted) ?_ fun e₁ ready => ?_
  · refine prepared.mono ?_ fun _ _ left => left.1.admits.2
    rintro (_ | outcome) e₁ ⟨ready, -⟩
    · exact ready
    · exact ready.sound.admits.2
  · obtain ⟨recorded, new, added, unanalysed⟩ := ready.sound.admits
    obtain ⟨more, added', solves⟩ :=
      (onlySolves_backsolve e.solveCount 0 rhs solutions e₁ recorded).added
    have before : e₁.calls = e.calls ++ new := added
    refine ⟨new ++ more, by rw [added', before, List.append_assoc], fun c hc => ?_⟩
    rcases List.mem_append.1 hc with hc | hc
    · exact unanalysed c hc
    · obtain ⟨s, isSolve, -⟩ := solves c hc
      exact KernelCall.analysis?_of_solve? isSolve

/-- When the factors are current there is nothing to prepare. -/
theorem ends_prepare_of_current (late : e.phase = .factorized) (same : m.tag = e.matrixTag)
    (demand : InertiaDemand) (solveIndex : Nat) :
    Ends (prepare m demand solveIndex) e (fun _ e' => ∃ diagnostics, e' = { e with diagnostics })
      (fun _ e' => e' = e) := by
  have captured : captureIfNew m e = e := captureIfNew_of_ne (by simp [late])
  have noted : noteValues m e = e := if_neg (by simp [MatrixView.hasChanged, same])
  refine ends_prepare_by (fun e' => e' = e) (fun e' => e' = e) ?_ ?_ ?_
  · rw [captured, if_neg (by simp [late])]
    exact noted
  · rintro _ rfl
    rw [if_pos late]
    exact rfl
  · rintro _ rfl
    exact ends_checkInertia ..

/-- **Current factors are used again.** -/
theorem no_factorization_of_current (recorded : e.session.kernel = k.recorded)
    (late : e.phase = .factorized) (same : m.tag = e.matrixTag)
    (rhs solutions : List (DenseVector α)) (demand : InertiaDemand) :
    ∃ solves, (e.multiSolve m rhs solutions demand).2.calls = e.calls ++ solves ∧
      ∀ c ∈ solves, c.solve?.isSome := by
  cases used : e.usageFault? m rhs solutions demand with
  | some cause =>
    rw [multiSolve_of_rejected used]
    exact ⟨[], (List.append_nil _).symm, nofun⟩
  | none =>
    refine multiSolve_of_prepare (fun e₁ => ∃ diagnostics, e₁ = { e.beginCall with diagnostics })
      (fun _ e' => ∃ solves, e'.calls = e.calls ++ solves ∧ ∀ c ∈ solves, c.solve?.isSome) used
      ((ends_prepare_of_current (e := e.beginCall) late same demand e.solveCount).mono ?_ ?_) ?_
    · rintro (_ | outcome) _ ⟨diagnostics, rfl⟩
      · exact ⟨diagnostics, rfl⟩
      · exact ⟨[], (List.append_nil _).symm, nofun⟩
    · rintro _ _ rfl
      exact ⟨[], (List.append_nil _).symm, nofun⟩
    · rintro _ ⟨diagnostics, rfl⟩
      obtain ⟨solves, added, isSolve⟩ := (onlySolves_backsolve e.solveCount 0 rhs solutions
        { e.beginCall with diagnostics } recorded).added
      refine ⟨solves, added, fun c hc => ?_⟩
      obtain ⟨s, hs, -⟩ := isSolve c hc
      exact hs ▸ rfl

end SymSolve.Engine
