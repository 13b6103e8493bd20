import SymSolve.Proofs.Engine.Attempts
import SymSolve.Proofs.Engine.Core

/-!
# Relief of shortages

What the steps that need workspaces do to the core of an engine whose kernel has fixed needs. Each
is told by the core alone, unless a length is refused. The lengths decide how often a factorization is
attempted, but the attempts that find a workspace too short leave the core as it is.

**Theorem (`Stands.after_factorize`).** However often a factorization is attempted, what comes of it
is what the kernel does with enough words.

**Theorem (`few_multiSolve`).** A call makes at most three attempts, since each of the two
workspaces is found too short at most once. Only a call that is refused a length ends with a shortage.
-/

namespace SymSolve

namespace Engine

variable {α σ β : Type} [Scalar α] {k : Kernel α σ}
variable {needs : k.FixedNeeds} {memory : Memory} {o : Options α} {c : Core α needs.Factors}
variable {m : MatrixView α} {e e' e₁ : Engine α σ}

/-- The step has ended because it was refused a length. -/
def Refused (memory : Memory) (o : Options α) (r : Except Fault β) : Prop :=
  ∃ fault, r = .error fault ∧ Refuses memory o fault

/-! ## Analysis -/

/-- What an analysis at the core `c` comes to: it is refused a length, or it is told by the kernel,
whatever the index array is. -/
def AnalysisTold (needs : k.FixedNeeds) (memory : Memory) (o : Options α) (c : Core α needs.Factors)
    (r : Except Fault (Option Outcome)) (e' : Engine α σ) : Prop :=
  Refused memory o r ∨ ∃ (s : Session α σ) (iw : Array Int), s.kernel = k ∧
    let f := s.analyse c.pattern iw (Buffer.grow ⟨c.keep⟩ (3 * c.pattern.dim).toNat).words
    r = (f.result.map AnalysisResult.outcome?).mapError .kernel ∧
      Stands needs memory o (c.analysed f.keep f.result) e'

theorem Stands.grow_keep (h : Stands needs memory o c e) (n : Nat) :
    Stands needs memory o { c with keep := (Buffer.grow ⟨c.keep⟩ n).words }
      { e with workspace := { e.workspace with keep := e.workspace.keep.grow n } } := by
  obtain rfl := h.core
  exact ⟨h.kernel, h.memory, h.options, rfl, ⟨h.named, h.proper.dim, h.proper.rows⟩, h.room⟩

theorem stands_afterAnalysis (h : Stands needs memory o c e) (late : c.phase ≠ .factorized) :
    Stands needs memory o
      { c with keep := (e.session.analyse e.pattern e.workspace.integers.words
        e.workspace.keep.words).keep } e.afterAnalysis := by
  obtain rfl := h.core
  refine ⟨h.kernel, h.memory, h.options, ?_, ⟨h.named, h.proper.dim, h.proper.rows⟩, h.room⟩
  have late : e.phase ≠ .factorized := late
  simp only [core, afterAnalysis, late, if_false]
  rfl

/-- The structure is analysed. -/
theorem Stands.symbolicDone (h : Stands needs memory o c e) (late : c.phase ≠ .factorized)
    (room : c.nonzeros ≤ e.workspace.reals.length) :
    Stands needs memory o { c with phase := .symbolicDone } { e with phase := .symbolicDone } := by
  obtain rfl := h.core
  refine ⟨h.kernel, h.memory, h.options, ?_, ⟨h.named, h.proper.dim, h.proper.rows⟩, fun _ => room⟩
  have late : e.phase ≠ .factorized := late
  simp only [Engine.core, late, if_false]
  rfl

theorem Stands.after_analyse (h : Stands needs memory o c e) (fresh : c.phase = .structureKnown)
    (i : Nat) :
    Ends (analyse i) e (fun outcome => AnalysisTold needs memory o c (.ok outcome))
      (fun fault => AnalysisTold needs memory o c (.error fault)) := by
  have late : c.phase ≠ .factorized := by
    rw [fresh]
    nofun
  have refused {e' : Engine α σ} (fault : Fault) (h : Refuses memory o fault) :
      AnalysisTold needs memory o c (.error fault) e' := .inl ⟨fault, rfl, h⟩
  have dim := h.proper.dim
  obtain ⟨overestimate, integersFactor, realsFactor, -, -⟩ := o.length_factors
  unfold analyse
  rw [ends_get]
  simp only [h.options]
  refine ends_scaled Options.Finite.analysis (.inl overestimate) ?_ (fun n long => ?_) refused
  · rw [h.dim]
    omega
  refine ends_integers_unless_refused h.memory (fun free => ?_) ?_ refused
  · have := long free
    rw [h.dim] at this
    omega
  refine ends_keep_unless_refused (h.grow_integers late _).memory (fun _ => ?_) ?_ refused
  · rw [h.dim]
    omega
  let e₁ : Engine α σ := { e with workspace := { e.workspace with
    integers := e.workspace.integers.grow n.toNat
    keep := e.workspace.keep.grow (3 * e.dim).toNat } }
  have h₁ : Stands needs memory o
      { c with keep := (Buffer.grow ⟨c.keep⟩ (3 * c.pattern.dim).toNat).words } e₁ :=
    h.dim ▸ (h.grow_integers late n.toNat).grow_keep (3 * e.dim).toNat
  have called := stands_afterAnalysis h₁ late
  rw [h₁.pattern, h₁.keep] at called
  show Ends _ e₁ _ _
  refine ends_callAnalysis (fun result answered => ?_) fun cause failed => ?_
  · rw [h₁.pattern, h₁.keep] at answered
    have recommends := needs.recommends h₁.kernel answered
    have known {outcome : Option Outcome} {e' : Engine α σ} (told : outcome = result.outcome?)
        (stands : Stands needs memory o (c.analysed (e₁.session.analyse c.pattern
          e₁.workspace.integers.words (Buffer.grow ⟨c.keep⟩ (3 * c.pattern.dim).toNat).words).keep
          (.ok result)) e') : AnalysisTold needs memory o c (.ok outcome) e' :=
      .inr ⟨e₁.session, e₁.workspace.integers.words, h₁.kernel, by rw [answered, told]; rfl,
        by rwa [answered]⟩
    clear_value e₁
    split
    · next accepted =>
      obtain ⟨integers, reals⟩ := recommends accepted
      refine ends_scaled Options.Finite.integers (.inl integersFactor) integers
        (fun n long => ?_) refused
      refine ends_integers_unless_refused called.memory
        (fun free => le_trans integers (long free)) ?_ refused
      have grown := called.grow_integers late n.toNat
      refine ends_scaled Options.Finite.reals (.inl realsFactor) reals (fun n' _ => ?_) refused
      refine ends_reals_unless_refused grown.memory
        (fun _ => le_max_of_le_left (Int.natCast_nonneg _)) ?_ refused
      rw [ends_modify]
      have all := grown.grow_reals late (max (e.nonzeros : Int) n').toNat
      refine known (if_pos accepted).symm ?_
      rw [Core.analysed, if_pos accepted]
      refine all.symbolicDone late ?_
      rw [← h.nonzeros]
      simp only [Buffer.length_grow]
      omega
    · next rejected =>
      refine (called.after_emit .error (by decide +kernel) (by simp [toString])
        (by simp [Payload.normalize])).bind ?_ (by simp)
      rintro - e₂ h₂
      refine known (if_neg rejected).symm ?_
      rwa [Core.analysed, if_neg rejected]
  · rw [h₁.pattern, h₁.keep] at failed
    exact .inr ⟨e₁.session, e₁.workspace.integers.words, h₁.kernel, by rw [failed]; rfl,
      by rwa [failed]⟩

/-! ## Attempts -/

theorem refuses_of_relief {w : Workspace α} {short : WorkspaceKind} {required : Requirement}
    {cause : Unbounded} (failed : w.relief o.growthFactor short required = .error cause) :
    Refuses memory o (.length (.unbounded cause)) := by
  refine refuses_of_boundless fun free => ?_
  obtain ⟨n, read, -⟩ := free.exists_grownLength (w.lengthOf .integer)
    (if .integer = short then required.length else w.lengthOf .integer)
  obtain ⟨n', read', -⟩ := free.exists_grownLength (w.lengthOf .real)
    (if .real = short then required.length else w.lengthOf .real)
  simp only [Workspace.relief, read, read'] at failed
  cases failed

section Attempt

theorem size_overwriteFront (fits : m.values.length ≤ e.workspace.reals.length) :
    (overwriteFront m.values.toArray e.workspace.reals.words).size = e.workspace.reals.length :=
  length_of_fill (MatrixView.fill_of_le fits)

/-- An attempt tells what the kernel tells, and leaves the buffers as the kernel leaves them. -/
theorem attempt_answer (fits : m.values.length ≤ e.workspace.reals.length) (k i : Nat) :
    (attempt m k i e).1 = (e.factorization m).result.mapError .kernel ∧
      (attempt m k i e).2.workspace = (e.afterFactorization m).workspace := by
  unfold factorization
  rw [attempt_eq fits]
  split
  · next failed => exact ⟨by rw [failed]; rfl, rfl⟩
  · next answered => exact ⟨by rw [answered]; rfl, rfl⟩

theorem lengthOf_attempt (fits : m.values.length ≤ e.workspace.reals.length) (k i : Nat)
    (kind : WorkspaceKind) :
    (attempt m k i e).2.workspace.lengthOf kind = e.workspace.lengthOf kind := by
  rw [(attempt_answer fits k i).2]
  cases kind
  · exact Session.size_factorize_iw ..
  · exact (Session.size_factorize_a ..).trans (size_overwriteFront fits)

theorem result_of_attempt (fits : m.values.length ≤ e.workspace.reals.length) {k i : Nat}
    {result : FactorizationResult} :
    (attempt m k i e).1 = .ok result ↔ (e.factorization m).result = .ok result := by
  rw [(attempt_answer fits k i).1]
  cases (e.factorization m).result <;> simp [Except.mapError]

variable (needs) (kernel : e.session.kernel = k)
variable (fits : m.values.length ≤ e.workspace.reals.length)
include needs kernel fits

/-- A shortage is reported only if there is one, and then for the length that is needed. -/
theorem lacking_of_shortage {k i : Nat} {result : FactorizationResult}
    (answered : (attempt m k i e).1 = .ok result) {short : WorkspaceKind}
    {required : Requirement} (asked : shortage? result.verdict = some (short, required)) :
    e.lacking? needs = some short ∧ required = needs.need e.pattern short ∧
      (e.factorization m).keep = e.workspace.keep.words := by
  have answered := (result_of_attempt fits).1 answered
  cases lacks : e.lacking? needs with
  | none =>
    rw [lacking?, ← size_overwriteFront fits] at lacks
    cases (needs.enough kernel lacks answered).symm.trans asked
  | some kind =>
    rw [lacking?, ← size_overwriteFront fits] at lacks
    obtain ⟨⟨result', answered', asked'⟩, kept⟩ :=
      needs.short e.workspace.keep.words kernel lacks
    obtain rfl := Except.ok.inj (answered'.symm.trans answered)
    cases asked'.symm.trans asked
    exact ⟨rfl, rfl, kept⟩

/-- Without a report of a shortage there is none. -/
theorem lacking_eq_none {k i : Nat}
    (settled : ∀ result, (attempt m k i e).1 = .ok result → shortage? result.verdict = none) :
    e.lacking? needs = none := by
  cases lacks : e.lacking? needs with
  | none => rfl
  | some kind =>
    rw [lacking?, ← size_overwriteFront fits] at lacks
    obtain ⟨⟨result, answered, asked⟩, -⟩ := needs.short e.workspace.keep.words kernel lacks
    cases (settled result ((result_of_attempt fits).2 answered)).symm.trans asked

/-- The workspace that is reported is shorter than what is asked for. -/
theorem lengthOf_lt_of_shortage {k i : Nat} {result : FactorizationResult}
    (answered : (attempt m k i e).1 = .ok result) {short : WorkspaceKind}
    {required : Requirement} (asked : shortage? result.verdict = some (short, required)) :
    e.workspace.lengthOf short < required.length := by
  obtain ⟨lacks, rfl, -⟩ := lacking_of_shortage needs kernel fits answered asked
  unfold lacking? WorkspaceKind.lacking? at lacks
  split at lacks
  · cases lacks
    assumption
  · split at lacks <;> cases lacks
    assumption

end Attempt

theorem Stands.fits (h : Stands needs memory o c e) (waiting : c.phase.Waiting)
    (count : m.values.length = c.nonzeros) : m.values.length ≤ e.workspace.reals.length :=
  count ▸ h.room waiting.analysed

/-- An attempt leaves of the core what the kernel leaves of it. -/
theorem Stands.after_attempt (h : Stands needs memory o c e) (waiting : c.phase.Waiting)
    (count : m.values.length = c.nonzeros) (k i : Nat) :
    Stands needs memory o { c with keep := (e.factorization m).keep } (attempt m k i e).2 := by
  have fits := h.fits waiting count
  obtain rfl := h.core
  have late : e.phase ≠ .factorized := waiting.not_factorized
  have same : (e.afterFactorization m).workspace.reals.length = e.workspace.reals.length :=
    (Session.size_factorize_a ..).trans (size_overwriteFront fits)
  have after : Stands needs memory o { e.core needs with keep := (e.factorization m).keep }
      (e.afterFactorization m) := by
    refine ⟨h.kernel, h.memory, h.options, ?_, ⟨h.named, h.proper.dim, h.proper.rows⟩,
      fun analysed => same ▸ h.room analysed⟩
    simp only [Engine.core, afterFactorization, late, if_false]
    rfl
  rw [attempt_eq fits]
  split
  · exact after
  · exact after.note ..

/-- What the attempts at the core `c` come to: they are refused a length, or the last one is what
the kernel does with enough words. -/
def AttemptsTold (needs : k.FixedNeeds) (memory : Memory) (o : Options α)
    (c : Core α needs.Factors) (m : MatrixView α)
    (r : Except Fault (Option (FactorizationResult × Nat))) (e' : Engine α σ) : Prop :=
  Refused memory o r ∨ ∃ e₁ i, Stands needs memory o c e₁ ∧ e₁.lacking? needs = none ∧
    r = ((e₁.factorization m).result.map fun result => some (result, i)).mapError .kernel ∧
    e'.workspace = (e₁.afterFactorization m).workspace ∧
    Stands needs memory o { c with keep := (e₁.factorization m).keep } e'

theorem Stands.attained (h : Stands needs memory o c e) (waiting : c.phase.Waiting)
    (count : m.values.length = c.nonzeros) (k i : Nat)
    (settled : ∀ result, (attempt m k i e).1 = .ok result → shortage? result.verdict = none) :
    AttemptsTold needs memory o c m ((attempt m k i e).1.map fun result => some (result, i))
      (attempt m k i e).2 := by
  have fits := h.fits waiting count
  obtain ⟨answer, workspace⟩ := attempt_answer fits k i
  refine .inr ⟨e, i, h, lacking_eq_none needs h.kernel fits settled, ?_, workspace,
    h.after_attempt waiting count k i⟩
  rw [answer]
  cases (e.factorization m).result <;> rfl

/-- An attempt that finds a workspace too short changes nothing about the core. -/
theorem Stands.attempt_short (h : Stands needs memory o c e) (waiting : c.phase.Waiting)
    (count : m.values.length = c.nonzeros) {k i : Nat} {result : FactorizationResult}
    (answered : (attempt m k i e).1 = .ok result) {short : WorkspaceKind} {required : Requirement}
    (asked : shortage? result.verdict = some (short, required)) :
    Stands needs memory o c (attempt m k i e).2 := by
  have after := h.after_attempt waiting count k i
  obtain ⟨-, -, kept⟩ := lacking_of_shortage needs h.kernel (h.fits waiting count) answered asked
  rwa [kept, h.keep] at after

theorem Stands.after_attempts (m : MatrixView α) (k i : Nat) (e : Engine α σ)
    (h : Stands needs memory o c e) (waiting : c.phase.Waiting)
    (count : m.values.length = c.nonzeros) :
    AttemptsTold needs memory o c m (attempts m k i e).1 (attempts m k i e).2 := by
  fun_induction attempts m k i e with
  | case1 i e tried fault failed =>
    have attained := h.attained waiting count k i fun result answered => by
      cases failed.symm.trans answered
    rwa [show (attempt m k i e).1 = .error fault from failed] at attained
  | case2 i e tried result answered enough =>
    have attained := h.attained waiting count k i fun result' answered' => by
      cases answered.symm.trans answered'
      exact enough
    rwa [show (attempt m k i e).1 = .ok result from answered] at attained
  | case3 i e tried result answered short required asked before cause failed =>
    have same : tried.2.options = o := (h.attempt_short waiting count answered asked).options
    exact .inl ⟨_, rfl, refuses_of_relief (same ▸ failed)⟩
  | case4 i e tried result answered short required asked before lengths _ missing enough fault after
      relieved =>
    have tried := h.attempt_short waiting count answered asked
    exact .inl ⟨_, rfl, ((growing_stands waiting.not_factorized).relieve tried ..).bad_of_exec relieved⟩
  | case5 i e tried result answered short required asked before lengths _ missing enough after
      relieved ih =>
    have tried := h.attempt_short waiting count answered asked
    exact ih (((growing_stands waiting.not_factorized).relieve tried ..).ok_of_exec relieved)
  | case6 i e tried result answered short required asked before lengths _ present refused =>
    have fits := h.fits waiting count
    refine absurd ?_ present
    show tried.2.workspace.lengthOf short < required.length
    rw [lengthOf_attempt fits]
    exact lengthOf_lt_of_shortage needs h.kernel fits answered asked

/-! ## The end of a factorization -/

/-- What a factorization at the core `c` comes to: it is refused a length, or it is what the kernel
does with enough words. -/
def FactorizationTold (needs : k.FixedNeeds) (memory : Memory) (o : Options α)
    (c : Core α needs.Factors) (m : MatrixView α) (r : Except Fault (Option Outcome))
    (e' : Engine α σ) : Prop :=
  Refused memory o r ∨ ∃ e₁, Stands needs memory o c e₁ ∧ e₁.lacking? needs = none ∧
    let f := e₁.factorization m
    r = (f.result.map FactorizationResult.outcome?).mapError .kernel ∧
      Stands needs memory o
        (c.judged f.keep (needs.factors c.pattern.dim f.a f.iw) f.result) e'

/-- Factorizations that compress often ask for growth, and this is reported. -/
theorem scheduleGrowth_notes (named : e.solverId ≠ "") (result : FactorizationResult) (k i : Nat) :
    Ends (scheduleGrowth result k i) e
      (fun _ e' => ∃ pending diagnostics, e' = { e with pending, diagnostics })
      (fun _ _ => False) := by
  unfold scheduleGrowth
  rw [ends_get]
  dsimp only
  split
  · rw [ends_set]
    refine (ends_emit_graded (k := k) .warning (by decide +kernel) (by simp) (by exact named)
      (by simp [Payload.normalize])).mono ?_ fun _ _ h => h
    rintro - _ ⟨diagnostics, rfl, -⟩
    exact ⟨_, _, rfl⟩
  · exact ⟨_, _, rfl⟩

theorem Stands.after_conclude (h : Stands needs memory o c e) (waiting : c.phase.Waiting)
    (result : FactorizationResult) (k i : Nat) :
    Ends (conclude result k i) e
      (fun outcome e' => outcome = result.outcome? ∧ Stands needs memory o
        (c.judged c.keep (needs.factors c.pattern.dim e.workspace.reals.words
          e.workspace.integers.words) (.ok result)) e')
      (fun _ _ => False) := by
  obtain rfl := h.core
  have late : e.phase ≠ .factorized := waiting.not_factorized
  have stale : Stands needs memory o { e.core needs with phase := .factorizationStale }
      { e with phase := .factorizationStale } := by
    refine ⟨h.kernel, h.memory, h.options, ?_, ⟨h.named, h.proper.dim, h.proper.rows⟩,
      fun _ => h.room waiting.analysed⟩
    simp only [Engine.core, late, if_false]
    rfl
  unfold conclude
  rw [ends_get]
  split
  · next success =>
    rw [ends_set]
    refine (scheduleGrowth_notes (by exact h.named) ..).bind ?_ (by simp)
    rintro - _ ⟨pending, diagnostics, rfl⟩
    rw [ends_modify]
    refine ⟨(FactorizationResult.outcome?_of_success success).symm, ?_⟩
    rw [Core.judged_of_success _ _ _ success]
    exact ⟨h.kernel, h.memory, h.options, rfl, ⟨h.named, h.proper.dim, h.proper.rows⟩,
      fun _ => h.room waiting.analysed⟩
  · next singular =>
    rw [ends_set]
    refine (stale.after_emit .error (by decide +kernel) (by simp [toString])
      (by simp [Payload.normalize])).bind ?_ (by simp)
    intro _ e' h'
    refine ⟨(FactorizationResult.outcome?_of_singular singular).symm, ?_⟩
    rw [Core.judged_of_failure _ _ _ (by simp [singular])]
    exact h'
  · next failed other =>
    rw [ends_set]
    refine (stale.after_emit .error (by decide +kernel) (by simp [toString])
      (by simp [Payload.normalize])).bind ?_ (by simp)
    intro _ e' h'
    refine ⟨(FactorizationResult.outcome?_of_other failed other).symm, ?_⟩
    rw [Core.judged_of_failure _ _ _ failed]
    exact h'

/-- **However often a factorization is attempted**, what comes of it is what the kernel does with
enough words. -/
theorem Stands.after_factorize (h : Stands needs memory o c e) (waiting : c.phase.Waiting)
    (count : m.values.length = c.nonzeros) (i : Nat) :
    Ends (factorize m i) e (fun outcome => FactorizationTold needs memory o c m (.ok outcome))
      (fun fault => FactorizationTold needs memory o c m (.error fault)) := by
  unfold factorize
  refine ((growing_stands waiting.not_factorized).applyPendingGrowth h i).bind ?_
    fun fault _ refused => .inl ⟨fault, rfl, refused⟩
  intro _ e₁ h₁
  have attained := h₁.after_attempts m i 0 e₁ waiting count
  have run : exec (ExceptT.mk (attempts m i 0)) e₁ = attempts m i 0 e₁ := rfl
  generalize attempts m i 0 e₁ = ended at attained run
  obtain ⟨answer, e'⟩ := ended
  dsimp only at attained
  rcases attained with ⟨fault, told, refused⟩ | ⟨e₂, j, h₂, enough, told, workspace, after⟩
  · subst told
    rw [Ends, exec_bind, run]
    exact .inl ⟨fault, rfl, refused⟩
  · cases answered : (e₂.factorization m).result with
    | error cause =>
      obtain rfl : answer = .error (.kernel cause) := by rw [told, answered]; rfl
      rw [Ends, exec_bind, run]
      exact .inr ⟨e₂, h₂, enough, by rw [answered]; rfl, by rwa [answered]⟩
    | ok result =>
      obtain rfl : answer = .ok (some (result, j)) := by rw [told, answered]; rfl
      rw [ends_bind_of_ok run]
      refine (after.after_conclude waiting result i j).mono ?_ (by simp)
      rintro outcome e'' ⟨rfl, concluded⟩
      refine .inr ⟨e₂, h₂, enough, by rw [answered]; rfl, ?_⟩
      rw [workspace] at concluded
      rw [answered]
      exact concluded

/-! ## How many attempts there are -/

section Recorded

variable {k : Kernel α σ} {needs : k.recorded.FixedNeeds} {t : Tally α σ}
variable {e e' : Engine α (Recorded α σ)}

/-- How many of the two workspaces are too short. -/
def shortages (needs : k.recorded.FixedNeeds) (e : Engine α (Recorded α σ)) : Nat :=
  (if e.workspace.lengthOf .integer < (needs.need e.pattern .integer).length then 1 else 0) +
    if e.workspace.lengthOf .real < (needs.need e.pattern .real).length then 1 else 0

/-- From the tally `t` on at most `n` factorizations and one more were called, and this comes to
`r`. If the last one reports a shortage, then a length was refused. -/
structure Tired (t : Tally α σ) (n : Nat) (r : Except Fault β) (e : Engine α (Recorded α σ)) :
    Prop where
  kernel : e.tally.kernel = t.kernel
  calls : ∃ fs f, e.tally.factorizations = t.factorizations ++ fs ++ [f] ∧ fs.length ≤ n ∧
    ((shortage? f.verdict).isSome → ∃ cause, r = .error (.length cause))

/-- A workspace that is made as long as needed is too short no more. -/
theorem shortages_relieved {short : WorkspaceKind} {lengths : Nat × Nat}
    (pattern : e'.pattern = e.pattern)
    (missing : e.workspace.lengthOf short < (needs.need e.pattern short).length)
    (grown : e'.workspace = e.workspace.grow
      (Workspace.sufficient short (needs.need e.pattern short) lengths).1
      (Workspace.sufficient short (needs.need e.pattern short) lengths).2) :
    e'.shortages needs < e.shortages needs := by
  unfold shortages
  rw [pattern, grown]
  cases short <;>
    simp only [Workspace.sufficient, Workspace.grow, Workspace.lengthOf, Buffer.length_grow] at * <;>
    grind

theorem shortages_attempt (fits : m.values.length ≤ e.workspace.reals.length) (i j : Nat) :
    (attempt m i j e).2.shortages needs = e.shortages needs := by
  have pattern := (attempt_during m i j e).1.during.steady.pattern
  simp only [shortages, lengthOf_attempt fits, pattern]

/-- After an attempt that is relieved of a shortage everything is ready for the next one. -/
structure Relieved (needs : k.recorded.FixedNeeds) (m : MatrixView α)
    (e e' : Engine α (Recorded α σ)) : Prop where
  kernel : e'.session.kernel = e.session.kernel
  named : e'.solverId = e.solverId
  fits : e.workspace.reals.length ≤ e'.workspace.reals.length
  fewer : e'.shortages needs < e.shortages needs
  calls : ∃ f, e'.tally.factorizations = e.tally.factorizations ++ [f]

theorem relieved_attempt (recorded : e.session.kernel = k.recorded) (named : e.solverId ≠ "")
    (fits : m.values.length ≤ e.workspace.reals.length) {i j : Nat} {result : FactorizationResult}
    (answered : (attempt m i j e).1 = .ok result) {short : WorkspaceKind} {required : Requirement}
    (asked : shortage? result.verdict = some (short, required)) {lengths : Nat × Nat}
    (relieved : exec (relieve result required (Workspace.sufficient short required lengths) i j)
      (attempt m i j e).2 = (.ok (), e')) : Relieved needs m e e' := by
  have steady := (attempt_during m i j e).1.during.steady
  obtain ⟨f, tries, -⟩ := attempt_tries recorded fits i j
  have missing := lengthOf_lt_of_shortage needs recorded fits answered asked
  have grown := workspace_of_exec_relieve relieved
  have next := (ends_relieve (steady.solverId ▸ named) asked ..).ok_of_exec relieved
  refine ⟨?_, ?_, ?_, ?_, f, ?_⟩
  · rw [next]
    exact steady.kernel
  · rw [next]
    exact steady.solverId
  · rw [grown, ← show _ = e.workspace.reals.length from lengthOf_attempt fits i j .real]
    simp only [Workspace.grow, Buffer.length_grow]
    exact Nat.le_max_left ..
  · obtain ⟨-, rfl, -⟩ := lacking_of_shortage needs recorded fits answered asked
    rw [← lengthOf_attempt fits i j] at missing
    rw [← shortages_attempt fits i j]
    rw [← steady.pattern] at missing grown
    exact shortages_relieved (next ▸ rfl) missing grown
  · rw [next, tally_afterRelief, tries.tally]
    rfl

/-- An attempt that is the last one. -/
theorem tired_attempt (recorded : e.session.kernel = k.recorded)
    (fits : m.values.length ≤ e.workspace.reals.length) {i j n : Nat} {r : Except Fault β}
    (same : e'.tally = (attempt m i j e).2.tally)
    (told : ∀ result, (attempt m i j e).1 = .ok result → (shortage? result.verdict).isSome →
      ∃ cause, r = .error (.length cause)) : Tired e.tally n r e' := by
  obtain ⟨f, tries, answered⟩ := attempt_tries recorded fits i j
  rw [tries.tally] at same
  refine ⟨by rw [same]; rfl, [], f, by rw [same, List.append_nil]; rfl, Nat.zero_le n, ?_⟩
  intro short
  unfold FactorizeCall.verdict at short
  split at short
  · next result answer => exact told result (by rw [answered, answer]; rfl) short
  · cases short

theorem Tired.cons {n n' : Nat} {r : Except Fault β} {e₁ : Engine α (Recorded α σ)}
    (kernel : e₁.tally.kernel = t.kernel)
    (calls : ∃ f, e₁.tally.factorizations = t.factorizations ++ [f]) (h : Tired e₁.tally n r e)
    (fewer : n < n') : Tired t n' r e := by
  obtain ⟨same, fs, last, called, few, told⟩ := h
  obtain ⟨f, first⟩ := calls
  refine ⟨same.trans kernel, f :: fs, last, ?_, by rw [List.length_cons]; omega, told⟩
  rw [called, first]
  simp only [List.append_assoc, List.cons_append, List.nil_append]

theorem tired_attempts (needs : k.recorded.FixedNeeds) (m : MatrixView α) (i j : Nat)
    (e : Engine α (Recorded α σ)) (recorded : e.session.kernel = k.recorded)
    (named : e.solverId ≠ "") (fits : m.values.length ≤ e.workspace.reals.length) :
    Tired e.tally (e.shortages needs) (attempts m i j e).1 (attempts m i j e).2 := by
  fun_induction attempts m i j e with
  | case1 j e tried fault failed =>
    exact tired_attempt recorded fits rfl fun result answered => by
      cases failed.symm.trans answered
  | case2 j e tried result answered enough =>
    refine tired_attempt recorded fits rfl fun result' answered' short => ?_
    cases answered.symm.trans answered'
    rw [enough] at short
    cases short
  | case3 j e tried result answered short required asked before cause failed =>
    exact tired_attempt recorded fits rfl fun _ _ _ => ⟨_, rfl⟩
  | case4 j e tried result answered short required asked before lengths _ missing enough fault after
      relieved =>
    have steady := (attempt_during m i j e).1.during.steady
    obtain ⟨same, n, why, -, rfl⟩ :=
      (ends_relieve (steady.solverId ▸ named) asked ..).bad_of_exec relieved
    exact tired_attempt recorded fits same fun _ _ _ => ⟨_, rfl⟩
  | case5 j e tried result answered short required asked before lengths _ missing enough after
      relieved ih =>
    have next : Relieved needs m e after :=
      relieved_attempt recorded named fits answered asked relieved
    have rest := ih (next.kernel.trans recorded) (next.named ▸ named) (Nat.le_trans fits next.fits)
    exact rest.cons next.kernel next.calls next.fewer
  | case6 j e tried result answered short required asked before lengths _ present refused =>
    have missing := lengthOf_lt_of_shortage needs recorded fits answered asked
    rw [← lengthOf_attempt fits] at missing
    exact absurd missing present

/-- The factorizations of a call that started with the tally `t` and came to `r`: at most three, and
a shortage at their end only if a length was refused. -/
structure Few (t : Tally α σ) (r : Except Fault (Option Outcome)) (e : Engine α (Recorded α σ)) :
    Prop where
  kernel : e.tally.kernel = t.kernel
  calls : ∃ fs, e.tally.factorizations = t.factorizations ++ fs ∧ fs.length ≤ 3 ∧
    ∀ f ∈ fs.getLast?, (shortage? f.verdict).isSome → ∃ cause, r = .error (.length cause)

theorem Tired.few {n : Nat} {r : Except Fault β} {r' : Except Fault (Option Outcome)}
    (h : Tired t n r e) (same : e'.tally = e.tally) (most : n ≤ 2)
    (refused : ∀ cause, r = .error (.length cause) → r' = .error (.length cause)) : Few t r' e' := by
  obtain ⟨kernel, fs, f, called, few, told⟩ := h
  refine ⟨same ▸ kernel, fs ++ [f], by rw [same, called, List.append_assoc], ?_, ?_⟩
  · rw [List.length_append, List.length_singleton]
    omega
  · rw [List.getLast?_concat]
    rintro _ ⟨⟩ short
    obtain ⟨cause, told⟩ := told short
    exact ⟨cause, refused cause told⟩

theorem few_nil {r : Except Fault (Option Outcome)} (same : e.tally = t) : Few t r e :=
  ⟨congrArg _ same, [], by rw [same, List.append_nil], Nat.zero_le 3, nofun⟩

theorem carries_few (t : Tally α σ) : Carries t (Few t) where
  quiet := few_nil
  goes_on h same := by
    obtain ⟨kernel, fs, called, few, told⟩ := h
    refine ⟨same ▸ kernel, fs, same ▸ called, few, fun f hf short => ?_⟩
    obtain ⟨cause, told⟩ := told f hf short
    cases told
  kernel h := h.kernel

theorem shortages_le_two (needs : k.recorded.FixedNeeds) (e : Engine α (Recorded α σ)) :
    e.shortages needs ≤ 2 := by
  unfold shortages
  split_ifs <;> omega

theorem few_factorize (needs : k.recorded.FixedNeeds) (recorded : t.kernel = k.recorded)
    (named : t.solverId ≠ "") (he : e.tally = t) (i : Nat) :
    Ends (factorize m i) e (fun outcome => Few t (.ok outcome))
      (fun fault => Few t (.error fault)) := by
  unfold factorize
  refine (quiet_applyPendingGrowth i e he).bind ?_ fun fault e' he' => few_nil he'
  rintro - e₁ rfl
  have run : exec (ExceptT.mk (attempts m i 0)) e₁ = attempts m i 0 e₁ := rfl
  rcases Nat.lt_or_ge e₁.workspace.reals.length m.values.length with short | fits
  · rw [Ends, exec_bind, run, attempts_of_lt short i 0]
    exact few_nil rfl
  · have tired := tired_attempts needs m i 0 e₁ recorded named fits
    have most := shortages_le_two needs e₁
    generalize attempts m i 0 e₁ = ended at run tired
    rcases ended with ⟨fault | _ | ⟨report, j⟩, e₂⟩
    · rw [Ends, exec_bind, run]
      exact tired.few rfl most fun cause told => by rw [Except.error.inj told]
    · rw [ends_bind_of_ok run]
      exact tired.few rfl most fun _ told => by cases told
    · rw [ends_bind_of_ok run]
      have told {r' : Except Fault (Option Outcome)} {e' : Engine α (Recorded α σ)}
          (same : e'.tally = e₂.tally) : Few e₁.tally r' e' :=
        tired.few same most fun _ told => by cases told
      exact (quiet_conclude report i j e₂ rfl).mono (fun _ _ => told) fun _ _ => told

/-- **A call makes at most three attempts**, and ends with a shortage only where a length is
refused. -/
theorem few_multiSolve (needs : k.recorded.FixedNeeds) (recorded : e.session.kernel = k.recorded)
    (named : e.solverId ≠ "") {rhs solutions : List (DenseVector α)} {demand : InertiaDemand}
    (accepted : e.usageFault? m rhs solutions demand = none) :
    Few e.tally ((e.multiSolve m rhs solutions demand).1.result.map some)
      (e.multiSolve m rhs solutions demand).2 := by
  obtain ⟨kernel, calls⟩ := (carries_few e.beginCall.tally).multiSolve recorded accepted
    fun _ he => few_factorize needs recorded named he e.solveCount
  exact ⟨kernel, calls⟩

end Recorded

end Engine

end SymSolve
