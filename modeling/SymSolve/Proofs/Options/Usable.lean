import SymSolve.Proofs.Decimal.Nearest
import SymSolve.Proofs.Engine.Steps

/-!
# Options that the solver can be used with

`Settings.Usable` says what the documentation asks of the eight settings, in the order of the
doubles: the tolerances and the exponent lie between zero and one, and the four factors are finite
and from one on. `Settings.fault?` asks for less. Three of the factors are only refused where they
are less than one, which no infinity and nothing that is not a number is.

**Theorem (`Settings.admitted_iff_usable`).** Settings with finite factors make options if and only
if they are usable. Then every length that an analysis computes from them is an integer, and it is
not smaller than the one that it scales, unless that is too large to be a double.

The lengths are products of doubles that are rounded before their integer part is taken. That they
do not get smaller is `Decimal.wholePart_le_product`, and that the length itself is a double is
`Decimal.decode_ofInt_of_le`.
-/

namespace SymSolve

open Decimal

/-! ## The checks -/

namespace Settings

/-- The settings that are no factors are in their ranges. -/
structure InRange (s : Settings Float) : Prop where
  tolerance : 0.0 < s.tolerance ∧ s.tolerance < 1.0
  toleranceMax : s.tolerance ≤ s.toleranceMax ∧ s.toleranceMax < 1.0
  qualityExponent : 0.0 < s.qualityExponent ∧ s.qualityExponent < 1.0
  compressionThreshold : 1 ≤ s.compressionThreshold

/-- The solver can be used with the settings. -/
structure Usable (s : Settings Float) : Prop extends InRange s where
  integerInitFactor : s.integerInitFactor.isFinite = true ∧ 1.0 ≤ s.integerInitFactor
  realInitFactor : s.realInitFactor.isFinite = true ∧ 1.0 ≤ s.realInitFactor
  growthFactor : s.growthFactor.isFinite = true ∧ 1.0 < s.growthFactor
  analysisOverestimate : s.analysisOverestimate.isFinite = true ∧ 1.0 ≤ s.analysisOverestimate

/-- The factors for the lengths that an analysis computes. -/
def analysisFactors {α : Type} (s : Settings α) : List α :=
  [s.analysisOverestimate, s.integerInitFactor, s.realInitFactor]

/-- The factors for lengths. -/
def factors {α : Type} (s : Settings α) : List α := s.growthFactor :: s.analysisFactors

theorem ite_fault_eq_none {refused : Prop} [Decidable refused] {fault : SettingsFault}
    {next : Option SettingsFault} :
    (if refused then some fault else next) = none ↔ ¬ refused ∧ next = none := by
  split <;> simp_all

theorem fault?_eq_none_iff {α : Type} [Scalar α] {s : Settings α} :
    s.fault? = none ↔
      (Scalar.lt 0 s.tolerance = true ∧ Scalar.lt s.tolerance 1 = true) ∧
      (Scalar.le s.tolerance s.toleranceMax = true ∧ Scalar.lt s.toleranceMax 1 = true) ∧
      (Scalar.lt 0 s.qualityExponent = true ∧ Scalar.lt s.qualityExponent 1 = true) ∧
      1 ≤ s.compressionThreshold ∧ Scalar.lt 1 s.growthFactor = true ∧
      ∀ factor ∈ s.analysisFactors, Scalar.lt factor 1 = false := by
  have threshold : ¬ s.compressionThreshold < 1 ↔ 1 ≤ s.compressionThreshold := Int.not_lt
  simp only [fault?, ite_fault_eq_none, threshold, analysisFactors, List.forall_mem_cons,
    Bool.not_eq_true', Bool.not_eq_false, Bool.not_eq_true, Bool.and_eq_true]
  tauto

/-- **What the checks ask for**, on doubles: nothing that is not a number and no infinity is less
than one. -/
theorem fault?_eq_none_iff_inRange {s : Settings Float} :
    s.fault? = none ↔
      s.InRange ∧ 1.0 < s.growthFactor ∧ ∀ factor ∈ s.analysisFactors, ¬ factor < 1.0 := by
  rw [fault?_eq_none_iff]
  constructor
  · intro ⟨⟨h₁, h₂⟩, ⟨h₃, h₄⟩, ⟨h₅, h₆⟩, h₇, h₈, h₉⟩
    exact ⟨⟨⟨of_decide_eq_true h₁, of_decide_eq_true h₂⟩, ⟨of_decide_eq_true h₃, of_decide_eq_true h₄⟩,
      ⟨of_decide_eq_true h₅, of_decide_eq_true h₆⟩, h₇⟩, of_decide_eq_true h₈,
      fun factor hf => of_decide_eq_false (h₉ factor hf)⟩
  · intro ⟨⟨⟨h₁, h₂⟩, ⟨h₃, h₄⟩, ⟨h₅, h₆⟩, h₇⟩, h₈, h₉⟩
    exact ⟨⟨decide_eq_true h₁, decide_eq_true h₂⟩, ⟨decide_eq_true h₃, decide_eq_true h₄⟩,
      ⟨decide_eq_true h₅, decide_eq_true h₆⟩, h₇, decide_eq_true h₈,
      fun factor hf => decide_eq_false (h₉ factor hf)⟩

/-- A finite factor is refused where it is less than one. -/
theorem fault?_eq_none_iff_usable {s : Settings Float}
    (finite : ∀ factor ∈ s.factors, factor.isFinite = true) : s.fault? = none ↔ s.Usable := by
  have atLeastOne {factor : Float} (hf : factor ∈ s.analysisFactors) :
      ¬ factor < 1.0 ↔ 1.0 ≤ factor :=
    not_lt_iff_le (isNaN_of_isFinite (finite factor (List.mem_cons_of_mem _ hf))) (by decide +kernel)
  simp only [factors, analysisFactors, List.forall_mem_cons] at finite
  obtain ⟨growth, analysis, integers, reals, -⟩ := finite
  rw [fault?_eq_none_iff_inRange, forall₂_congr fun _ => atLeastOne]
  simp only [analysisFactors, List.forall_mem_cons]
  constructor
  · intro ⟨inRange, more, analysis', integers', reals', _⟩
    exact { inRange with
      integerInitFactor := ⟨integers, integers'⟩
      realInitFactor := ⟨reals, reals'⟩
      growthFactor := ⟨growth, more⟩
      analysisOverestimate := ⟨analysis, analysis'⟩ }
  · intro usable
    exact ⟨usable.toInRange, usable.growthFactor.2, usable.analysisOverestimate.2,
      usable.integerInitFactor.2, usable.realInitFactor.2, nofun⟩

end Settings

/-- Options are the settings that they are made of. -/
theorem Options.ofSettings_eq_ok_iff {α : Type} [Scalar α] {source : OptionsSource}
    {s : Settings α} {o : Options α} :
    Options.ofSettings source s = .ok o ↔ o.toSettings = s ∧ o.source = source := by
  unfold Options.ofSettings
  constructor
  · intro made
    split at made <;> cases made
    exact ⟨rfl, rfl⟩
  · obtain ⟨settings, _, valid⟩ := o
    rintro ⟨rfl, rfl⟩
    split
    · rfl
    · next found => cases found.symm.trans valid

theorem Options.exists_ofSettings_iff {α : Type} [Scalar α] {source : OptionsSource}
    {s : Settings α} : (∃ o, Options.ofSettings source s = .ok o) ↔ s.fault? = none := by
  simp only [ofSettings_eq_ok_iff]
  constructor
  · rintro ⟨o, rfl, -⟩
    exact o.valid
  · intro valid
    exact ⟨⟨s, source, valid⟩, rfl, rfl⟩

/-! ## Lengths -/

/-- What a factor makes of a length is a length: it is not smaller than the double of the old one,
and that is the old length itself if it is not too large. -/
def Scales (factor : Float) (base : Int) : Prop :=
  ∃ rounded length : Int, Scalar.truncate (Scalar.ofInt base : Float) = .ok rounded ∧
    scaledLength factor base = .ok length ∧ 0 ≤ rounded ∧ rounded ≤ length ∧
    (base ≤ exactIntegers → rounded = base)

theorem scales {factor : Float} (finite : factor.isFinite = true) (large : 1.0 ≤ factor)
    {base : Int} (nonneg : 0 ≤ base) (product : (factor * Scalar.ofInt base).isFinite = true) :
    Scales factor base := by
  obtain infinite | ⟨m, e, decoded⟩ := decode_ofInt_cases nonneg
  · obtain ⟨_, _, _, decoded⟩ := isFinite_iff.1 (isFinite_of_isFinite_mul product).2
    cases infinite.symm.trans decoded
  obtain ⟨m', e', decoded', le⟩ := wholePart_le_product finite large decoded product
  have bounded : Scalar.isFinite (Scalar.ofInt base : Float) = true :=
    isFinite_iff.2 ⟨_, _, _, decoded⟩
  have scaled : scaledLength factor base = Scalar.truncate (factor * Scalar.ofInt base : Float) := by
    unfold scaledLength
    rw [if_pos bounded]
  refine ⟨wholePart m e, wholePart m' e', truncateFloat_of_decode decoded,
    scaled.trans (truncateFloat_of_decode decoded'), by omega, by omega, fun small => ?_⟩
  obtain ⟨n, rfl⟩ := Int.eq_ofNat_of_zero_le nonneg
  obtain ⟨_, _, exact, whole⟩ := decode_ofInt_of_le (Int.ofNat_le.1 small)
  cases decoded.symm.trans exact
  exact congrArg Int.ofNat whole

theorem Scales.le {factor : Float} {base : Int} (h : Scales factor base) :
    ∃ length : Int, scaledLength factor base = .ok length ∧ 0 ≤ length ∧
      (base ≤ exactIntegers → base ≤ length) := by
  obtain ⟨rounded, length, -, scaled, nonneg, le, exact⟩ := h
  exact ⟨length, scaled, by omega, fun small => by rw [← exact small]; exact le⟩

/-! ## The analysis -/

/-- A length is at least another one, unless that is too large to be a double. -/
def Covers (length : Nat) (base : Int) : Prop := base ≤ exactIntegers → base ≤ length

/-- The only lengths that the fault is about are those that memory refuses. -/
def Fault.OnlyRefuses (fault : Fault) : Prop :=
  ∀ cause, fault = .length cause → ∃ why, cause = .refused why

theorem Buffer.refused_of_ensure {β : Type} [OfNat β 0] {memory : Memory} {b : Buffer β}
    {length : Int} (nonneg : 0 ≤ length) {cause : Buffer.LengthError}
    (failed : b.ensure memory length = .error cause) : (Fault.length cause).OnlyRefuses := by
  unfold Buffer.ensure at failed
  rw [if_neg (by omega)] at failed
  split at failed
  · cases failed
  split at failed <;> cases failed
  intro _ same
  cases same
  exact ⟨_, rfl⟩

namespace Engine

variable {σ : Type} {e : Engine Float σ}

/-- The number of integer words that an analysis needs. -/
def neededWords (e : Engine Float σ) : Int := 2 * (e.nonzeros : Int) + 3 * e.dim + 1

/-- The kernel may accept the captured structure with these lengths. -/
def MayRecommend (e : Engine Float σ) (r : AnalysisResult) : Prop :=
  r.accepted = true ∧ ∃ iw keep, (e.session.analyse e.pattern iw keep).result = .ok r

/-- The lengths that an analysis starts from are lengths, and small enough to be scaled. -/
structure Scalable (e : Engine Float σ) : Prop where
  dim : 0 ≤ e.dim
  needed : (e.options.analysisOverestimate * Scalar.ofInt e.neededWords).isFinite = true
  integers : ∀ r, e.MayRecommend r → 0 ≤ r.integerLength ∧
    (e.options.integerInitFactor * Scalar.ofInt r.integerLength).isFinite = true
  reals : ∀ r, e.MayRecommend r → 0 ≤ r.realLength ∧
    (e.options.realInitFactor * Scalar.ofInt r.realLength).isFinite = true

/-- The workspaces cover what the kernel recommends for the structure of `e`. -/
def Provided (e e' : Engine Float σ) : Prop :=
  ∃ r, e.MayRecommend r ∧ Covers e'.workspace.integers.length r.integerLength ∧
    Covers e'.workspace.reals.length r.realLength

theorem ends_emit_fault (code message : String) (solveIndex attemptIndex : Option Nat)
    (witness : List (String × Payload Float)) (e : Engine Float σ) :
    Ends (emit code message solveIndex attemptIndex witness) e (fun _ _ => True)
      (fun fault _ => fault.OnlyRefuses) := by
  unfold emit
  rw [ends_get]
  dsimp only
  split
  · intro _ same
    cases same
  · trivial

/-- **An analysis computes lengths.** -/
theorem analyse_provides (usable : e.options.toSettings.Usable) (h : e.Scalable) (k : Nat) :
    Ends (analyse k) e (fun outcome e' => outcome = none → e.Provided e')
      (fun fault _ => fault.OnlyRefuses) := by
  have needed : 0 ≤ e.neededWords := by
    have := h.dim
    unfold neededWords
    omega
  unfold analyse
  rw [ends_get]
  obtain ⟨analysis, analysisRead, nonneg, -⟩ :=
    (scales usable.analysisOverestimate.1 usable.analysisOverestimate.2 needed h.needed).le
  refine ends_length analysisRead ?_
  refine ends_ensureIntegers ?_ fun cause failed => Buffer.refused_of_ensure nonneg failed
  refine ends_ensureKeep ?_ fun cause failed =>
    Buffer.refused_of_ensure (Int.mul_nonneg (by decide) h.dim) failed
  refine ends_callAnalysis (fun r answer => ?_) fun cause _ _ same => by cases same
  dsimp only
  split
  · next accepted =>
    have recommended : e.MayRecommend r := ⟨accepted, _, _, answer⟩
    obtain ⟨integersNonneg, integersFinite⟩ := h.integers r recommended
    obtain ⟨realsNonneg, realsFinite⟩ := h.reals r recommended
    obtain ⟨integers, integersRead, nonneg, integersLe⟩ :=
      (scales usable.integerInitFactor.1 usable.integerInitFactor.2 integersNonneg integersFinite).le
    obtain ⟨reals, realsRead, nonneg', realsLe⟩ :=
      (scales usable.realInitFactor.1 usable.realInitFactor.2 realsNonneg realsFinite).le
    refine ends_length integersRead ?_
    refine ends_ensureIntegers ?_ fun cause failed => Buffer.refused_of_ensure nonneg failed
    refine ends_length realsRead ?_
    refine ends_ensureReals ?_ fun cause failed =>
      Buffer.refused_of_ensure (le_max_of_le_right nonneg') failed
    rw [ends_modify]
    intro _
    refine ⟨r, recommended, fun small => ?_, fun small => ?_⟩
    · have := integersLe small
      show r.integerLength ≤ ((Buffer.grow _ integers.toNat).length : Int)
      rw [Buffer.length_grow]
      omega
    · have := realsLe small
      show r.realLength ≤ ((Buffer.grow _ (max (e.nonzeros : Int) reals).toNat).length : Int)
      rw [Buffer.length_grow]
      omega
  · refine (ends_emit_fault ..).bind (fun _ _ _ => ?_) fun _ _ h => h
    intro impossible
    cases impossible

end Engine

/-! ## Validation -/

/-- **Settings with finite factors are admitted if and only if they are usable.** Then an analysis
computes lengths from them, none smaller than the one that it scales. -/
theorem Settings.admitted_iff_usable {s : Settings Float}
    (finite : ∀ factor ∈ s.factors, factor.isFinite = true) (source : OptionsSource) :
    ((∃ o, Options.ofSettings source s = .ok o) ↔ s.Usable) ∧
    ∀ o, Options.ofSettings source s = .ok o →
      (∀ factor ∈ o.toSettings.analysisFactors, ∀ base : Int, 0 ≤ base →
        (factor * Scalar.ofInt base).isFinite = true → Scales factor base) ∧
      ∀ (σ : Type) (e : Engine Float σ) (k : Nat), e.options = o → e.Scalable →
        Engine.Ends (Engine.analyse k) e (fun outcome e' => outcome = none → e.Provided e')
          (fun fault _ => fault.OnlyRefuses) := by
  have admitted : (∃ o, Options.ofSettings source s = .ok o) ↔ s.Usable :=
    Options.exists_ofSettings_iff.trans (fault?_eq_none_iff_usable finite)
  refine ⟨admitted, fun o made => ?_⟩
  have usable : o.toSettings.Usable := by
    rw [(Options.ofSettings_eq_ok_iff.1 made).1]
    exact admitted.1 ⟨o, made⟩
  constructor
  · simp only [Settings.analysisFactors, List.forall_mem_cons]
    refine ⟨fun base => ?_, fun base => ?_, fun base => ?_, nofun⟩
    · exact scales usable.analysisOverestimate.1 usable.analysisOverestimate.2
    · exact scales usable.integerInitFactor.1 usable.integerInitFactor.2
    · exact scales usable.realInitFactor.1 usable.realInitFactor.2
  · intro σ e k options scalable
    cases options
    exact Engine.analyse_provides usable scalable k

/-- A kernel that recommends the same lengths for every structure, and has no factors. -/
def recommending (integers reals : Int) : Kernel Float Unit where
  id := "recommending"
  defaultControls := Vector.replicate 5 0
  analyse _ _ iw keep _ :=
    ⟨(), iw, keep, .ok (KernelInfo.toRaw { integerLength := integers, realLength := reals })⟩
  factorize _ _ a iw keep _ := ⟨(), a, iw, keep, .error .singular⟩
  solve _ _ a iw rhs := ⟨(), a, iw, rhs, .error .singular⟩

theorem Engine.scalable_recommending {e : Engine Float Unit} {integers reals : Int}
    (kernel : e.session.kernel = recommending integers reals) (dim : 0 ≤ e.dim)
    (needed : (e.options.analysisOverestimate * Scalar.ofInt e.neededWords).isFinite = true)
    (hi : 0 ≤ integers ∧ (e.options.integerInitFactor * Scalar.ofInt integers).isFinite = true)
    (hr : 0 ≤ reals ∧ (e.options.realInitFactor * Scalar.ofInt reals).isFinite = true) :
    e.Scalable := by
  have said (r : AnalysisResult) (recommended : e.MayRecommend r) :
      r.integerLength = integers ∧ r.realLength = reals := by
    obtain ⟨-, iw, keep, answer⟩ := recommended
    obtain ⟨memory, options, solverId, providesInertia, ⟨_, state, controls⟩⟩ := e
    cases kernel
    cases answer
    exact ⟨rfl, rfl⟩
  exact ⟨dim, needed, fun r h => (said r h).1 ▸ hi, fun r h => (said r h).2 ▸ hr⟩

/-- The standard options. -/
def standardOptions : Options Float := ⟨.standard, .constructed, by decide +kernel⟩

/-- An engine with the standard options that has not yet analysed a structure. -/
def standardEngine : Engine Float Unit where
  memory := .unlimited
  options := standardOptions
  solverId := "recommending"
  providesInertia := false
  session := .start (recommending 9 8) ()
  tolerance := standardOptions.tolerance
  phase := .structureKnown
  matrixTag := 0
  pattern := .empty
  nonzeros := 0
  workspace := .empty
  pending := .none
  negative := none
  solveCount := 0
  factorizationCount := 0
  diagnostics := []
  trace := []

theorem Settings.admitted_iff_usable_standard :
    (∀ factor ∈ (standard : Settings Float).factors, factor.isFinite = true) ∧
      Options.ofSettings .constructed standard = .ok standardOptions ∧
      Scales standardOptions.integerInitFactor 7 ∧ standardEngine.Scalable ∧
      Engine.Ends (Engine.analyse 0) standardEngine
        (fun outcome e' => outcome = none → standardEngine.Provided e')
        (fun fault _ => fault.OnlyRefuses) := by
  have finite : ∀ factor ∈ (standard : Settings Float).factors, factor.isFinite = true := by
    decide +kernel
  have made : Options.ofSettings .constructed standard = .ok standardOptions :=
    Options.ofSettings_eq_ok_iff.2 ⟨rfl, rfl⟩
  have scalable : standardEngine.Scalable := Engine.scalable_recommending rfl (by decide)
    (by decide +kernel) (by decide +kernel) (by decide +kernel)
  obtain ⟨lengths, analyses⟩ := (admitted_iff_usable finite .constructed).2 _ made
  exact ⟨finite, made, lengths _ (by simp [analysisFactors]) 7 (by decide) (by decide +kernel),
    scalable, analyses Unit standardEngine 0 rfl scalable⟩

/-- The standard settings, but with a factor that is not a number. -/
def Settings.unordered : Settings Float := { standard with integerInitFactor := Float.nan }

/-- A factor that is not a number is admitted, and makes no length. -/
theorem Settings.unordered_admitted :
    ¬ ((∃ o, Options.ofSettings .constructed unordered = .ok o) ↔ unordered.Usable) ∧
      ∀ o, Options.ofSettings .constructed unordered = .ok o →
        scaledLength o.integerInitFactor 7 = .error .notANumber := by
  have admitted : ∃ o, Options.ofSettings .constructed unordered = .ok o :=
    Options.exists_ofSettings_iff.2 (by decide +kernel)
  constructor
  · intro claimed
    have finite := (claimed.1 admitted).integerInitFactor.1
    exact absurd finite (by decide +kernel)
  · intro o made
    have same : o.integerInitFactor = Float.nan :=
      congrArg Settings.integerInitFactor (Options.ofSettings_eq_ok_iff.1 made).1
    rw [same]
    decide +kernel

end SymSolve
