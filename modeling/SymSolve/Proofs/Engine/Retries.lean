import SymSolve.Proofs.Engine.Attempts
import SymSolve.Proofs.Engine.Reached
import SymSolve.Proofs.Engine.Record

/-!
# Retries in a call of the engine

**Theorem (`factorizations_follow_shortages`).** Whatever the kernel answers, the factorizations of
one call of the engine form a chain: each one but the last found a workspace too short and asked
for more than there was. The next one gets the lengths that the growth factor gives, and what is
asked for is among them. Every one finds the present values in front, the captured positions and
the index array of the analysis. The attempts that are listed, their number and the reports of
retries are those of the chain, and its last call settles what comes of it (`Settles`).

A machine may refuse a length, and then the call ends with that fault.
-/

namespace SymSolve

namespace Engine

section Attempts

variable {K σ : Type} [Field K] [LinearOrder K] [IsStrictOrderedRing K] [FloorRing K]
variable {k : Kernel K σ} {m : MatrixView K} {e e' e₁ : Engine K (Recorded K σ)}

/-- What comes of a call of the engine when `f` is its last factorization: it ends with `r` and
leaves `e'`, where `r` tells nothing if the call goes on to solve. -/
def Settles (f : FactorizeCall K) (r : Except Fault (Option Outcome))
    (e' : Engine K (Recorded K σ)) : Prop :=
  match f.result with
  | .error cause => r = .error (.kernel cause)
  | .ok report =>
    match shortage? report.verdict with
    | some (short, required) =>
      if required.length ≤ f.workspace.lengthOf short then
        r = .ok (some .fatalError) ∧ e'.phase = .factorizationStale ∧
          e'.Buffers f.iw.size f.a.size f.keepAfter
      else ∃ n why, e'.memory.refusal? n = some why ∧ r = .error (.length (.refused why))
    | none => report.verdict ≠ .success →
      r = .ok (some (if report.verdict = .singular then .singular else .fatalError)) ∧
        e'.phase = .factorizationStale

/-- A call of the engine starts with the tally `t`, makes the factorizations `fs`, and ends with `r`
and `e'`. -/
structure Makes (solveIndex : Nat) (t : Tally K σ) (fs : List (FactorizeCall K))
    (r : Except Fault (Option Outcome)) (e' : Engine K (Recorded K σ)) : Prop where
  tally : e'.tally = t.ran solveIndex 0 fs
  chain : fs.IsChain (Relieves t.options.growthFactor)
  settles : ∀ f ∈ fs.getLast?, Settles f r e'

variable {t : Tally K σ} {solveIndex i : Nat} {r r' : Except Fault (Option Outcome)}
variable {f : FactorizeCall K} {fs : List (FactorizeCall K)}

omit [IsStrictOrderedRing K] in
theorem makes_nil (h : e'.tally = t) : Makes solveIndex t [] r e' :=
  ⟨h.trans (Tally.ran_nil ..).symm, .nil, nofun⟩

omit [IsStrictOrderedRing K] in
theorem Ran.makes {e₁ : Engine K (Recorded K σ)}
    {stopped : Except Fault (Option (FactorizationResult × Nat))}
    (h : Ran solveIndex 0 e f fs stopped e₁) (same : e'.tally = e₁.tally)
    (settles : ∀ g, Stops g e₁ stopped → Settles g r e') :
    Makes solveIndex e.tally (f :: fs) r e' where
  tally := same.trans h.tally
  chain := h.chain
  settles g hg := by
    rw [List.getLast?_eq_some_getLast (List.cons_ne_nil f fs)] at hg
    obtain rfl := Option.some.inj hg
    exact settles _ h.stops

omit [IsStrictOrderedRing K] in
/-- A call that goes on to solve has made factors. -/
theorem Settles.of_goes_on (h : Settles f (.ok none) e) : Settles f r e' := by
  unfold Settles at *
  split at h
  · cases h
  · split at h
    · split at h
      · cases h.1
      · obtain ⟨_, _, -, h⟩ := h
        cases h
    · intro failed
      cases (h failed).1

omit [IsStrictOrderedRing K] in
theorem Makes.quiet (h : Makes solveIndex t fs (.ok none) e) (same : e'.tally = e.tally) :
    Makes solveIndex t fs r e' :=
  ⟨same.trans h.tally, h.chain, fun f hf => (h.settles f hf).of_goes_on⟩

omit [IsStrictOrderedRing K] in
theorem Stops.settles_of_fault {fault : Fault} (h : Stops f e' (.error fault)) :
    Settles f (.error fault) e' := by
  unfold Settles
  cases h with
  | fault answer => simp only [answer]
  | exhausted answer asked missing refused =>
    simp only [answer, asked, if_neg (Nat.not_le_of_lt missing)]
    exact ⟨_, _, refused, rfl⟩

omit [IsStrictOrderedRing K] in
theorem Stops.settles_of_none (h : Stops f e' (.ok none)) : Settles f (.ok (some .fatalError)) e' := by
  unfold Settles
  cases h with
  | refused answer asked present phase buffers =>
    simp only [answer, asked, if_pos present]
    exact ⟨trivial, phase, buffers⟩

omit [IsStrictOrderedRing K] in
theorem Stops.settles_of_report {report : FactorizationResult}
    (h : Stops f e (.ok (some (report, i))))
    (outcome : report.verdict ≠ .success →
      r = .ok (some (if report.verdict = .singular then .singular else .fatalError)) ∧
        e'.phase = .factorizationStale) : Settles f r e' := by
  unfold Settles
  cases h with
  | settled answer enough =>
    simp only [answer, enough]
    exact outcome

omit [IsStrictOrderedRing K] in
/-- Giving up on the factors leaves none, tells why, and ends the call with `outcome`. -/
theorem exec_giveUp (named : e.solverId ≠ "") {code message : String}
    {fields : List (String × Payload K)} (listed : code ∈ Catalog.canonical.codes)
    (text : message ≠ "") (plain : ∀ field ∈ fields, ∃ v, field.2.normalize = .ok v)
    (outcome : Outcome) (solveIndex i : Nat) :
    ∃ event, exec (do
        set { e with phase := .factorizationStale }
        emit code message (some solveIndex) (some i) fields
        return some outcome) e =
      (.ok (some outcome),
        { e with phase := .factorizationStale, diagnostics := e.diagnostics ++ [event] }) := by
  let stale : Engine K (Recorded K σ) := { e with phase := .factorizationStale }
  obtain ⟨event, reported⟩ : ∃ event, exec (emit code message (some solveIndex) (some i) fields)
      stale = (.ok (), { stale with diagnostics := stale.diagnostics ++ [event] }) :=
    exec_emit_listed listed text named (fun _ => rfl) plain
  refine ⟨event, ?_⟩
  rw [exec_bind, exec_set]
  dsimp only
  rw [exec_bind, reported]
  rfl

omit [IsStrictOrderedRing K] in
/-- A report that is no success, and no shortage either, ends the call. -/
theorem exec_conclude (named : e.solverId ≠ "") {report : FactorizationResult}
    (failed : report.verdict ≠ .success) (solveIndex i : Nat) :
    ∃ event, exec (conclude report solveIndex i) e =
      (.ok (some (if report.verdict = .singular then .singular else .fatalError)),
        { e with phase := .factorizationStale, diagnostics := e.diagnostics ++ [event] }) := by
  unfold conclude
  rw [exec_bind, exec_get]
  dsimp only
  split
  · next success => exact absurd success failed
  · next singular =>
    rw [if_pos singular]
    exact exec_giveUp named (by decide +kernel) (by simp [toString]) (by simp [Payload.normalize])
      .singular solveIndex i
  · next other =>
    rw [if_neg (by simpa using other)]
    exact exec_giveUp named (by decide +kernel) (by simp [toString]) (by simp [Payload.normalize])
      .fatalError solveIndex i

omit [IsStrictOrderedRing K] in
theorem makes_conclude (named : e.solverId ≠ "") {report : FactorizationResult} {i : Nat}
    (ran : Ran solveIndex 0 e₁ f fs (.ok (some (report, i))) e) :
    Ends (conclude report solveIndex i) e
      (fun outcome e' => Makes solveIndex e₁.tally (f :: fs) (.ok outcome) e')
      (fun fault e' => Makes solveIndex e₁.tally (f :: fs) (.error fault) e') := by
  have quiet := quiet_conclude (t := e.tally) report solveIndex i e rfl
  by_cases success : report.verdict = .success
  · exact quiet.mono
      (fun _ _ same => ran.makes same fun g h => h.settles_of_report fun failed => absurd success failed)
      fun _ _ same => ran.makes same fun g h => h.settles_of_report fun failed => absurd success failed
  · obtain ⟨event, concluded⟩ := exec_conclude named success solveIndex i
    have same := quiet.ok_of_exec concluded
    exact (ends_of_ok concluded).2 (ran.makes same fun g h => h.settles_of_report fun _ => ⟨rfl, rfl⟩)

theorem makes_factorize (recorded : t.kernel = k.recorded) (named : t.solverId ≠ "")
    (he : e.tally = t) (solveIndex : Nat) :
    Ends (factorize m solveIndex) e (fun outcome e' => ∃ fs, Makes solveIndex t fs (.ok outcome) e')
      (fun fault e' => ∃ fs, Makes solveIndex t fs (.error fault) e') := by
  unfold factorize
  refine (quiet_applyPendingGrowth solveIndex e he).bind ?_ fun fault e' he' => ⟨[], makes_nil he'⟩
  rintro - e₁ rfl
  have run : exec (ExceptT.mk (attempts m solveIndex 0)) e₁ = attempts m solveIndex 0 e₁ := rfl
  rcases Nat.lt_or_ge e₁.workspace.reals.length m.values.length with short | fits
  · rw [Ends, exec_bind, run, attempts_of_lt short solveIndex 0]
    exact ⟨[], makes_nil rfl⟩
  · obtain ⟨f, fs, ran⟩ := ran_attempts m solveIndex 0 e₁ recorded named fits
    have kept : (attempts m solveIndex 0 e₁).2.solverId = e₁.solverId :=
      congrArg Tally.solverId ran.tally
    generalize attempts m solveIndex 0 e₁ = ended at run ran kept
    rcases ended with ⟨fault | _ | ⟨report, i⟩, e₂⟩
    · rw [Ends, exec_bind, run]
      exact ⟨_, ran.makes rfl fun g h => h.settles_of_fault⟩
    · rw [ends_bind_of_ok run]
      exact ⟨_, ran.makes rfl fun g h => h.settles_of_none⟩
    · rw [ends_bind_of_ok run]
      exact (makes_conclude (kept ▸ named) ran).mono (fun _ _ h => ⟨_, h⟩) fun _ _ h => ⟨_, h⟩

omit [IsStrictOrderedRing K] in
theorem carries_makes (t : Tally K σ) (solveIndex : Nat) :
    Carries t fun r (e : Engine K (Recorded K σ)) => ∃ fs, Makes solveIndex t fs r e where
  quiet same := ⟨[], makes_nil same⟩
  goes_on := fun ⟨fs, made⟩ same => ⟨fs, made.quiet same⟩
  kernel := fun ⟨_, made⟩ => by
    rw [made.tally]
    rfl

/-- **The factorizations of a call form a chain**, and its last one settles what comes of it, unless
the call goes on to solve. -/
theorem makes_multiSolve (recorded : e.session.kernel = k.recorded) (named : e.solverId ≠ "")
    {rhs solutions : List (DenseVector K)} {demand : InertiaDemand}
    (accepted : e.usageFault? m rhs solutions demand = none) :
    ∃ fs, Makes e.solveCount e.beginCall.tally fs
      ((e.multiSolve m rhs solutions demand).1.result.map some)
      (e.multiSolve m rhs solutions demand).2 :=
  (carries_makes e.beginCall.tally e.solveCount).multiSolve recorded accepted
    fun _ he => makes_factorize recorded named he e.solveCount

end Attempts

end Engine

section Reached

open Engine

variable {K σ : Type} [Field K] [LinearOrder K] [IsStrictOrderedRing K] [FloorRing K]
variable [Powers K] [Printable K] {k : Kernel K σ}

end Reached

end SymSolve
