import SymSolve.Proofs.Engine.Attempts
import SymSolve.Proofs.Engine.Reached
import SymSolve.Proofs.Engine.Record
import SymSolve.Proofs.Options.Usable

/-!
# How many attempts there are

The attempts at a factorization go on as long as the kernel finds a workspace too short, and it may
find now the one and now the other. The growth factor is above one, so a retry gives the workspace
that was short what was asked for, and takes nothing from the other one (`GrowsInto`).

**Theorem (`attempts_are_bounded`).** If no shortage asks for more than `B` words, a factorization
calls the kernel at most once more than there are words missing to `B` in the two workspaces
together.

Neither length is a measure by itself: the words that both lack are counted together
(`Workspace.lack`). All that is asked of the scalars is that a length does not get shorter by a
factor above one (`ScalesUp`). Exact arithmetic has that, and so do doubles, although they round
the length as well as the product.
-/

namespace SymSolve

/-! ## Growth by a factor -/

/-- A factor above one does not make a length shorter, if there is a length at all. -/
class ScalesUp (α : Type) [Scalar α] : Prop where
  le_scaledLength : ∀ {factor : α} {base : Nat} {length : Int}, Scalar.lt 1 factor = true →
    base < wordCount → scaledLength factor base = .ok length → base ≤ length

instance {K : Type} [Field K] [LinearOrder K] [IsStrictOrderedRing K] [FloorRing K] :
    ScalesUp K where
  le_scaledLength {factor base length} more _ scaled := by
    have large : 1 < factor := (Scalar.lt_iff _ _).1 more
    rw [scaledLength_exact (zero_le_one.trans large.le) (Int.natCast_nonneg base)] at scaled
    obtain rfl := Except.ok.inj scaled
    rw [Int.le_floor, Int.cast_natCast]
    exact le_mul_of_one_le_left (Nat.cast_nonneg base) large.le

section Growth

variable {α : Type} [Scalar α]

theorem truncate_of_scaledLength {factor : α} {base length : Int}
    (scaled : scaledLength factor base = .ok length) :
    Scalar.truncate (factor * Scalar.ofInt base) = .ok length := by
  unfold scaledLength at scaled
  dsimp only at scaled
  split at scaled
  · exact scaled
  · cases scaled

instance : ScalesUp Float where
  le_scaledLength {factor base length} more small scaled := by
    have large : 1.0 < factor := of_decide_eq_true more
    have truncated : truncateFloat (factor * Scalar.ofInt base) = .ok length :=
      truncate_of_scaledLength scaled
    have product := Decimal.isFinite_of_truncateFloat truncated
    obtain ⟨m, e, decoded, le⟩ := Decimal.le_wholePart_product
      (Decimal.isFinite_of_isFinite_mul product).1 large small product
    obtain rfl := Except.ok.inj ((Decimal.truncateFloat_of_decode decoded).symm.trans truncated)
    exact Int.ofNat_le.2 le

theorem le_grownLength {current base length : Int} {factor : α}
    (grown : grownLength current base factor = .ok length) :
    current ≤ length ∧ ∃ scaled, scaledLength factor base = .ok scaled ∧ scaled ≤ length := by
  unfold grownLength at grown
  cases scaled : scaledLength factor base with
  | error cause =>
    rw [scaled] at grown
    cases grown
  | ok n =>
    rw [scaled] at grown
    cases grown
    exact ⟨Int.le_max_left .., n, rfl, Int.le_max_right ..⟩

/-- The workspaces `w'` come from `w` by growth after a shortage: lengths that the growth factor
gives, among them what was asked for. -/
structure Workspace.Grows (factor : α) (short : WorkspaceKind) (required : Requirement)
    (w w' : Workspace α) : Prop where
  missing : w.lengthOf short < required.length
  arrived : required.length ≤ w'.lengthOf short
  kept : ∀ kind, w.lengthOf kind ≤ w'.lengthOf kind
  lengths : w.relief factor short required = .ok (w'.lengthOf .integer, w'.lengthOf .real)

/-- How many words the two workspaces lack to `B` words each. -/
def Workspace.lack (w : Workspace α) (B : Nat) : Nat :=
  (B - w.lengthOf .integer) + (B - w.lengthOf .real)

namespace Workspace

variable {factor : α} {short : WorkspaceKind} {required : Requirement} {w w' : Workspace α}

/-- **Growth after a shortage brings both workspaces nearer to a bound together.** -/
theorem Grows.lack_lt (h : w.Grows factor short required w') {B : Nat}
    (bounded : required.length ≤ B) : w'.lack B < w.lack B := by
  have missing := h.missing
  have arrived := h.arrived
  have integers := h.kept .integer
  have reals := h.kept .real
  unfold lack
  cases short <;> omega

/-- Growth is about lengths only. -/
theorem Grows.congr {v v' : Workspace α} (h : w.Grows factor short required w')
    (hv : ∀ kind, w.lengthOf kind = v.lengthOf kind)
    (hv' : ∀ kind, w'.lengthOf kind = v'.lengthOf kind) : v.Grows factor short required v' := by
  obtain ⟨missing, arrived, kept, lengths⟩ := h
  unfold relief at lengths
  simp only [hv, hv'] at missing arrived kept lengths
  exact ⟨missing, arrived, kept, lengths⟩

theorem base_le_grownLength [ScalesUp α] (more : Scalar.lt 1 factor = true) {current base : Nat}
    {length : Int} (small : base < wordCount)
    (grown : grownLength current base factor = .ok length) : base ≤ length.toNat := by
  obtain ⟨-, n, scaled, le⟩ := le_grownLength grown
  have := ScalesUp.le_scaledLength more small scaled
  omega

/-- What the growth factor gives after a shortage is enough. -/
theorem le_relief [ScalesUp α] (more : Scalar.lt 1 factor = true) {lengths : Nat × Nat}
    (relieved : w.relief factor short required = .ok lengths) :
    w.lengthOf .integer ≤ lengths.1 ∧ w.lengthOf .real ≤ lengths.2 ∧
      sufficient short required lengths = lengths := by
  obtain ⟨integers, hi, relieved⟩ := exists_of_bind_eq_ok relieved
  obtain ⟨reals, hr, relieved⟩ := exists_of_bind_eq_ok relieved
  obtain rfl := Except.ok.inj relieved
  obtain ⟨keptIntegers, -⟩ := le_grownLength hi
  obtain ⟨keptReals, -⟩ := le_grownLength hr
  refine ⟨by omega, by omega, ?_⟩
  cases short with
  | integer =>
    have enough := base_le_grownLength more required.bounded hi
    simp only [sufficient, max_eq_right enough]
  | real =>
    have enough := base_le_grownLength more required.bounded hr
    simp only [sufficient, max_eq_right enough]

/-- **Growth after a shortage** gives what the growth factor gives, and that is enough. -/
theorem grows_of_relief [ScalesUp α] (more : Scalar.lt 1 factor = true) {lengths : Nat × Nat}
    (relieved : w.relief factor short required = .ok lengths)
    (missing : w.lengthOf short < required.length) :
    let enough := sufficient short required lengths
    w.Grows factor short required (w.grow enough.1 enough.2) := by
  intro enough
  obtain ⟨keptIntegers, keptReals, idle⟩ := le_relief more relieved
  have integers : (w.grow enough.1 enough.2).lengthOf .integer = lengths.1 := by
    simp only [enough, idle, grow, lengthOf, Buffer.length_grow]
    exact Nat.max_eq_right keptIntegers
  have reals : (w.grow enough.1 enough.2).lengthOf .real = lengths.2 := by
    simp only [enough, idle, grow, lengthOf, Buffer.length_grow]
    exact Nat.max_eq_right keptReals
  refine ⟨missing, ?_, ?_, ?_⟩
  · cases short with
    | integer =>
      rw [integers, ← idle]
      exact Nat.le_max_left ..
    | real =>
      rw [reals, ← idle]
      exact Nat.le_max_left ..
  · rintro (_ | _)
    · rwa [integers]
    · rwa [reals]
  · rw [relieved, integers, reals]

end Workspace

end Growth

/-! ## A chain of retries -/

section Chain

variable {α : Type} [Scalar α] {factor : α} {f f' : FactorizeCall α} {fs : List (FactorizeCall α)}

/-- The call `f` found a workspace too short, and the call `f'` gets what was asked for. -/
def GrowsInto (factor : α) (f f' : FactorizeCall α) : Prop :=
  ∃ short required, Engine.shortage? f.verdict = some (short, required) ∧
    f.workspace.Grows factor short required f'.workspace

/-- No shortage among the answers asks for more than `B` words. -/
def AsksAtMost (B : Nat) (fs : List (FactorizeCall α)) : Prop :=
  ∀ f ∈ fs, ∀ short required, Engine.shortage? f.verdict = some (short, required) →
    required.length ≤ B

/-- **A chain of retries is no longer than the words that are missing in front.** -/
theorem length_le_lack (chain : (f :: fs).IsChain (GrowsInto factor)) {B : Nat}
    (bounded : AsksAtMost B (f :: fs)) : (f :: fs).length ≤ f.workspace.lack B + 1 := by
  induction fs generalizing f with
  | nil => exact Nat.le_add_left 1 _
  | cons f' fs ih =>
    obtain ⟨⟨short, required, asked, grows⟩, rest⟩ := List.isChain_cons_cons.1 chain
    have nearer := grows.lack_lt (bounded f List.mem_cons_self short required asked)
    have shorter := ih rest fun g hg => bounded g (List.mem_cons_of_mem f hg)
    simp only [List.length_cons] at shorter ⊢
    omega

end Chain

/-! ## The attempts -/

theorem Options.lt_growthFactor {α : Type} [Scalar α] (o : Options α) :
    Scalar.lt 1 o.growthFactor = true := by
  obtain ⟨-, -, -, -, more, -⟩ := Settings.fault?_eq_none_iff.1 o.valid
  exact more

namespace Engine

section Attempts

variable {α σ : Type} [Scalar α] {k : Kernel α σ} {m : MatrixView α}
variable {e e' e₁ e₂ : Engine α (Recorded α σ)} {f f' : FactorizeCall α}
variable {fs : List (FactorizeCall α)}

/-- From `e` on, the calls `f :: fs` are made, and they leave `e'`. -/
structure Retries (e : Engine α (Recorded α σ)) (f : FactorizeCall α) (fs : List (FactorizeCall α))
    (e' : Engine α (Recorded α σ)) : Prop where
  before : e.Buffers f.iw.size f.a.size f.keep
  calls : e'.tally.factorizations = e.tally.factorizations ++ f :: fs
  chain : (f :: fs).IsChain (GrowsInto e.options.growthFactor)

/-- Neither the kernel nor the options have changed. -/
def Standing (e₁ e₂ : Engine α (Recorded α σ)) : Prop :=
  e₂.session = e₁.session ∧ e₂.options = e₁.options

theorem unmoved_standing (e : Engine α (Recorded α σ)) :
    Unmoved (fun _ _ => True) (Standing e) := ⟨fun _ _ _ h => h, fun _ _ h => h⟩

theorem unsized_standing (e : Engine α (Recorded α σ)) : Unsized (Standing e) := ⟨fun _ h => h⟩

theorem standing_relieve {report : FactorizationResult} {required : Requirement}
    {lengths : Nat × Nat} {solveIndex i : Nat} {result : Except Fault Unit}
    (relieved : exec (relieve report required lengths solveIndex i) e = (result, e')) :
    Standing e e' := by
  have kept := ((unsized_standing e).relieve (unmoved_standing e) (i := i) trivial report required
    lengths solveIndex e ⟨rfl, rfl⟩).always
  rwa [relieved] at kept

theorem Standing.factorizations (h : Standing e₁ e₂) :
    e₂.tally.factorizations = e₁.tally.factorizations := by
  simp only [tally, h.1]

theorem Tries.retries {solveIndex i : Nat} (tries : e.Tries f solveIndex i e₁)
    (standing : Standing e₁ e') : Retries e f [] e' where
  before := tries.before
  calls := by
    rw [standing.factorizations, tries.tally]
    rfl
  chain := .singleton f

theorem Retries.cons {solveIndex i : Nat} (rest : Retries e₂ f' fs e')
    (tries : e.Tries f solveIndex i e₁) (standing : Standing e₁ e₂)
    (longer : GrowsInto e.options.growthFactor f f') : Retries e f (f' :: fs) e' where
  before := tries.before
  calls := by
    rw [rest.calls, standing.factorizations, tries.tally]
    simp [Tally.ran]
  chain := by
    have same : e₂.options = e.options := standing.2.trans (congrArg Tally.options tries.tally)
    exact .cons_cons longer (same ▸ rest.chain)

theorem retries_attempts [ScalesUp α] (m : MatrixView α) (solveIndex i : Nat)
    (e : Engine α (Recorded α σ)) (recorded : e.session.kernel = k.recorded)
    (fits : m.values.length ≤ e.workspace.reals.length) :
    ∃ f fs, Retries e f fs (attempts m solveIndex i e).2 := by
  obtain ⟨f, tries, answered⟩ := attempt_tries recorded fits solveIndex i
  fun_induction attempts m solveIndex i e generalizing f with
  | case1 i e tried fault failed => exact ⟨f, [], tries.retries ⟨rfl, rfl⟩⟩
  | case2 i e tried report answer enough => exact ⟨f, [], tries.retries ⟨rfl, rfl⟩⟩
  | case3 i e tried report answer short required asked before cause unbounded =>
    exact ⟨f, [], tries.retries ⟨rfl, rfl⟩⟩
  | case4 i e tried report answer short required asked before lengths _ missing enough fault after
      relieved => exact ⟨f, [], tries.retries (standing_relieve relieved)⟩
  | case5 i e tried report answer short required asked before lengths grown missing enough after
      relieved ih =>
    have standing := standing_relieve relieved
    have same : tried.2.options = e.options := congrArg Tally.options tries.tally
    have kernel : tried.2.session.kernel = e.session.kernel := congrArg Tally.kernel tries.tally
    have recorded' : after.session.kernel = k.recorded := by rw [standing.1, kernel, recorded]
    have lengths' : after.workspace = before.grow enough.1 enough.2 :=
      workspace_of_exec_relieve relieved
    have grows := Workspace.grows_of_relief tried.2.options.lt_growthFactor grown missing
    -- no workspace gets shorter, so there is still room for the values
    have fits' : m.values.length ≤ after.workspace.reals.length := by
      have kept : before.reals.length ≤ after.workspace.reals.length :=
        lengths' ▸ grows.kept .real
      have present : e.workspace.reals.length = before.reals.length :=
        tries.before.reals.trans tries.after.reals.symm
      omega
    obtain ⟨g, tries', answered'⟩ := attempt_tries recorded' fits' solveIndex (i + 1)
    obtain ⟨f', fs, rest⟩ := ih recorded' fits' g tries' answered'
    refine ⟨f, f' :: fs, rest.cons tries standing ⟨short, required, ?_, ?_⟩⟩
    · rw [FactorizeCall.verdict, result_of_tried answered answer]
      exact asked
    · rw [← same]
      exact grows.congr tries.after.lengthOf fun kind => lengths' ▸ rest.before.lengthOf kind
  | case6 i e tried report answer short required asked before lengths _ present refused =>
    have standing : Standing tried.2 refused.2 := ((unmoved_standing _).refuseShortage trivial
      report short required solveIndex tried.2 ⟨rfl, rfl⟩).always
    exact ⟨f, [], tries.retries standing⟩

/-- A factorization takes the engine from `e` to `e'` with the calls `fs`, and starts them from the
workspaces of `e₁`. -/
structure AttemptsBounded (e e₁ e' : Engine α (Recorded α σ)) (fs : List (FactorizeCall α)) :
    Prop where
  /-- The calls that are made. -/
  calls : e'.calls.filterMap KernelCall.factorization? =
    e.calls.filterMap KernelCall.factorization? ++ fs
  /-- The first of them gets the workspaces as they are. -/
  first : ∀ f ∈ fs.head?, ∀ kind, f.workspace.lengthOf kind = e₁.workspace.lengthOf kind
  /-- Each retry makes the workspace longer that was too short, to what was asked for. -/
  chain : fs.IsChain (GrowsInto e.options.growthFactor)
  /-- There are no more than the words that are missing. -/
  few : ∀ B, AsksAtMost B fs → fs.length ≤
    (B - e₁.workspace.integers.length) + (B - e₁.workspace.reals.length) + 1

theorem Retries.attemptsBounded (h : Retries e₁ f fs e₂) (before : e₁.tally = e.tally)
    (after : e'.tally = e₂.tally) : AttemptsBounded e e₁ e' (f :: fs) where
  calls := by
    have counted := congrArg Tally.factorizations after
    rwa [h.calls, before] at counted
  first g hg kind := by
    obtain rfl := Option.some.inj hg
    exact (h.before.lengthOf kind).symm
  chain := by
    have same : e₁.options = e.options := congrArg Tally.options before
    exact same ▸ h.chain
  few B bounded := by
    have short := length_le_lack h.chain bounded
    unfold Workspace.lack at short
    rwa [← h.before.lengthOf, ← h.before.lengthOf] at short

theorem attemptsBounded_nil (e₁ : Engine α (Recorded α σ)) (same : e'.tally = e.tally) :
    AttemptsBounded e e₁ e' [] where
  calls := (congrArg Tally.factorizations same).trans (List.append_nil _).symm
  first := nofun
  chain := .nil
  few _ _ := Nat.zero_le _

/-- What a factorization counts is what its attempts count. -/
theorem tally_factorize (m : MatrixView α) {solveIndex : Nat}
    (started : exec (applyPendingGrowth solveIndex) e = (.ok (), e₁)) :
    (exec (factorize m solveIndex) e).2.tally = (attempts m solveIndex 0 e₁).2.tally := by
  have run : exec (ExceptT.mk (attempts m solveIndex 0)) e₁ = attempts m solveIndex 0 e₁ := rfl
  unfold factorize
  rw [exec_bind, started]
  dsimp only
  rw [exec_bind, run]
  generalize attempts m solveIndex 0 e₁ = ended
  rcases ended with ⟨fault | _ | ⟨report, i⟩, e₂⟩
  · rfl
  · rfl
  · exact (quiet_conclude report solveIndex i e₂ rfl).always

end Attempts

end Engine

section Main

open Engine

variable {α σ : Type} [Scalar α] {k : Kernel α σ}

/-- **The attempts at a factorization are bounded.** -/
theorem attempts_are_bounded [ScalesUp α] {e : Engine α (Recorded α σ)}
    (recorded : e.session.kernel = k.recorded) (m : MatrixView α) (solveIndex : Nat) :
    ∃ fs, AttemptsBounded e (exec (applyPendingGrowth solveIndex) e).2
      (exec (factorize m solveIndex) e).2 fs := by
  have quiet := quiet_applyPendingGrowth (t := e.tally) solveIndex e rfl
  cases started : exec (applyPendingGrowth solveIndex) e with
  | mk applied e₁ =>
    cases applied with
    | error fault =>
      refine ⟨[], attemptsBounded_nil e₁ ?_⟩
      unfold factorize
      rw [exec_bind, started]
      exact quiet.bad_of_exec started
    | ok _ =>
      have before : e₁.tally = e.tally := quiet.ok_of_exec started
      have after := tally_factorize m started
      rcases Nat.lt_or_ge e₁.workspace.reals.length m.values.length with short | fits
      · rw [attempts_of_lt short] at after
        exact ⟨[], attemptsBounded_nil e₁ (after.trans before)⟩
      · have kernel : e₁.session.kernel = e.session.kernel := congrArg Tally.kernel before
        obtain ⟨f, fs, retries⟩ :=
          retries_attempts m solveIndex 0 e₁ (kernel.trans recorded) fits
        exact ⟨f :: fs, retries.attemptsBounded before after⟩

end Main

/-! ## A run -/

namespace Engine

section Attempts

variable {α σ : Type} [Scalar α] {m : MatrixView α} {e : Engine α (Recorded α σ)}

/-- Where memory refuses nothing, growth between two attempts comes off. -/
theorem exec_relieve (named : e.solverId ≠ "") (unlimited : e.memory = .unlimited)
    {report : FactorizationResult} {short : WorkspaceKind} {required : Requirement}
    (asked : shortage? report.verdict = some (short, required)) (lengths : Nat × Nat)
    (solveIndex i : Nat) :
    exec (relieve report required lengths solveIndex i) e =
      (.ok (), e.afterRelief report.verdict lengths solveIndex i) := by
  have ends := ends_relieve named asked lengths solveIndex i
  cases done : exec (relieve report required lengths solveIndex i) e with
  | mk result after =>
    cases result with
    | error fault =>
      obtain ⟨quiet, n, why, refused, -⟩ := ends.bad_of_exec done
      have same : after.memory = e.memory := congrArg Tally.memory quiet
      rw [same, unlimited] at refused
      cases refused
    | ok _ => rw [ends.ok_of_exec done]

/-- A shortage that growth relieves is followed by another attempt. -/
theorem attempts_of_relieve {solveIndex i : Nat} {report : FactorizationResult}
    {short : WorkspaceKind} {required : Requirement} {lengths : Nat × Nat}
    (answer : (attempt m solveIndex i e).1 = .ok report)
    (asked : shortage? report.verdict = some (short, required))
    (grown : (attempt m solveIndex i e).2.workspace.relief
      (attempt m solveIndex i e).2.options.growthFactor short required = .ok lengths)
    (missing : (attempt m solveIndex i e).2.workspace.lengthOf short < required.length)
    {after : Engine α (Recorded α σ)}
    (relieved : exec (relieve report required (Workspace.sufficient short required lengths)
      solveIndex i) (attempt m solveIndex i e).2 = (.ok (), after)) :
    attempts m solveIndex i e = attempts m solveIndex (i + 1) after := by
  generalize rest : attempts m solveIndex (i + 1) after = ended
  fun_cases attempts m solveIndex i e with
  | case1 tried fault failed => cases failed.symm.trans answer
  | case2 tried report' answer' enough =>
    obtain rfl := Except.ok.inj (answer'.symm.trans answer)
    cases enough.symm.trans asked
  | case3 tried report' answer' short' required' asked' before cause unbounded =>
    obtain rfl := Except.ok.inj (answer'.symm.trans answer)
    cases asked'.symm.trans asked
    cases unbounded.symm.trans grown
  | case4 tried report' answer' short' required' asked' before lengths' grown' _ enough fault after'
      failed =>
    obtain rfl := Except.ok.inj (answer'.symm.trans answer)
    cases asked'.symm.trans asked
    cases grown'.symm.trans grown
    cases (Prod.mk.inj (failed.symm.trans relieved)).1
  | case5 tried report' answer' short' required' asked' before lengths' grown' _ enough after'
      relieved' =>
    obtain rfl := Except.ok.inj (answer'.symm.trans answer)
    cases asked'.symm.trans asked
    cases grown'.symm.trans grown
    obtain rfl := (Prod.mk.inj (relieved'.symm.trans relieved)).2
    exact rest
  | case6 tried report' answer' short' required' asked' before lengths' _ present refused =>
    obtain rfl := Except.ok.inj (answer'.symm.trans answer)
    cases asked'.symm.trans asked
    exact absurd missing present

theorem attempts_of_settled {solveIndex i : Nat} {tried : Engine α (Recorded α σ)}
    {report : FactorizationResult} (answered : attempt m solveIndex i e = (.ok report, tried))
    (settled : shortage? report.verdict = none) :
    attempts m solveIndex i e = (.ok (some (report, i)), tried) := by
  rw [attempts]
  simp only [answered, settled]

end Attempts

end Engine

open Engine

/-- A kernel that lacks integer words first, and then real words. -/
def alternating : Script ℚ :=
  ⟨[], [KernelInfo.toRaw { flag := -3, detail := 13 },
    KernelInfo.toRaw { flag := -4, detail := 20 }, KernelInfo.toRaw { rank := 1 }], []⟩

/-- Options with a growth factor that is little more than one. -/
def hesitantOptions : Options ℚ :=
  { ({ Settings.standard with growthFactor := 11 / 10 } : Settings ℚ) with
    source := .constructed
    valid := by decide +kernel }

/-- The matrix with the entry 2. -/
def singleEntry : MatrixView ℚ := ⟨1, [0], [0], [2], 1⟩

/-- An engine over that kernel, with twelve integer words and five real words. -/
def shortEngine : Engine ℚ (Recorded ℚ (Script ℚ)) :=
  { (scriptedEngine alternating).captureStructure singleEntry with
    options := hesitantOptions
    workspace := ⟨⟨Array.replicate 12 0⟩, ⟨Array.replicate 5 0⟩, ⟨#[1, 1, 0]⟩⟩ }

/-- What the kernel reports first. -/
def integersReport : FactorizationResult :=
  ⟨.integerShortage ⟨13, by decide, by decide⟩, 0, 0, 0, 0, -3, 13⟩

/-- What the kernel reports then. -/
def realsReport : FactorizationResult :=
  ⟨.realShortage ⟨20, by decide, by decide⟩, 0, 0, 0, 0, -4, 20⟩

/-- The engine after the first growth. -/
def longerEngine : Engine ℚ (Recorded ℚ (Script ℚ)) :=
  (attempt singleEntry 0 0 shortEngine).2.afterRelief integersReport.verdict (14, 5) 0 0

/-- The engine after the second growth. -/
def longestEngine : Engine ℚ (Recorded ℚ (Script ℚ)) :=
  (attempt singleEntry 0 1 longerEngine).2.afterRelief realsReport.verdict (15, 22) 0 1

theorem attempts_shortEngine : (attempts singleEntry 0 0 shortEngine).2 =
    (attempt singleEntry 0 2 longestEngine).2 := by
  have lacksIntegers : (attempt singleEntry 0 0 shortEngine).1 = .ok integersReport := by
    decide +kernel
  have moreIntegers : (attempt singleEntry 0 0 shortEngine).2.workspace.relief
      (attempt singleEntry 0 0 shortEngine).2.options.growthFactor .integer
      ⟨13, by decide, by decide⟩ = .ok (14, 5) := by decide +kernel
  have first : attempts singleEntry 0 0 shortEngine = attempts singleEntry 0 1 longerEngine :=
    attempts_of_relieve lacksIntegers rfl moreIntegers (by decide +kernel)
      (exec_relieve (by decide +kernel) rfl rfl (14, 5) 0 0)
  have lacksReals : (attempt singleEntry 0 1 longerEngine).1 = .ok realsReport := by
    decide +kernel
  have moreReals : (attempt singleEntry 0 1 longerEngine).2.workspace.relief
      (attempt singleEntry 0 1 longerEngine).2.options.growthFactor .real
      ⟨20, by decide, by decide⟩ = .ok (15, 22) := by decide +kernel
  have second : attempts singleEntry 0 1 longerEngine = attempts singleEntry 0 2 longestEngine :=
    attempts_of_relieve lacksReals rfl moreReals (by decide +kernel)
      (exec_relieve (by decide +kernel) rfl rfl (15, 22) 0 1)
  have third : attempts singleEntry 0 2 longestEngine =
      (.ok (some (⟨.success, 0, 1, 0, 0, 0, 0⟩, 2)), (attempt singleEntry 0 2 longestEngine).2) :=
    attempts_of_settled (Prod.ext (by decide +kernel) rfl) rfl
  rw [first, second, third]

theorem attempts_are_bounded_alternating :
    shortEngine.session.kernel = scripted.recorded ∧
      ∃ fs, AttemptsBounded shortEngine (exec (applyPendingGrowth 0) shortEngine).2
          (exec (factorize singleEntry 0) shortEngine).2 fs ∧
        fs.map (fun f => (f.iw.size, f.a.size)) = [(12, 5), (14, 5), (15, 22)] := by
  have recorded : shortEngine.session.kernel = scripted.recorded := rfl
  obtain ⟨fs, bounded⟩ := attempts_are_bounded recorded singleEntry 0
  refine ⟨recorded, fs, bounded, ?_⟩
  have started : exec (applyPendingGrowth 0) shortEngine = (.ok (), shortEngine) := rfl
  have counted := congrArg Tally.factorizations
    ((tally_factorize singleEntry started).trans (congrArg tally attempts_shortEngine))
  have none : shortEngine.calls.filterMap KernelCall.factorization? = [] := rfl
  have listed := bounded.calls.symm.trans counted
  rw [none, List.nil_append] at listed
  rw [listed]
  decide +kernel

end SymSolve
