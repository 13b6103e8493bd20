import SymSolve.Dense
import SymSolve.Engine.Factorize
import SymSolve.Kernel.Recorded
import SymSolve.Proofs.Exact

/-!
# Kernels with fixed needs

A kernel has fixed needs if the structure alone decides how many words a factorization takes. It
tells a workspace that is too short from one that is not, and with enough words what it does is
decided by the matrix, the tolerance and the index array. The words that it leaves are factors, and
a solve reads nothing else from them.

**Theorem (`Kernel.FixedNeeds.recorded`).** A kernel with a record of its calls has the needs of the
kernel that it records.
-/

namespace SymSolve

/-- The report without the counts of compressions: how often a kernel compresses depends on the
lengths of the workspaces. -/
def FactorizationResult.uncounted (r : FactorizationResult) : FactorizationResult :=
  { r with realCompressions := 0, integerCompressions := 0 }

/-- The workspace that is found too short first. -/
def WorkspaceKind.lacking? (need : WorkspaceKind → Requirement) (integers reals : Nat) :
    Option WorkspaceKind :=
  if integers < (need .integer).length then some .integer
  else if reals < (need .real).length then some .real
  else none

/-- What is known of a kernel whose needs are fixed by the structure. -/
structure Kernel.FixedNeeds {α σ : Type} (k : Kernel α σ) where
  /-- The words that a factorization needs in a workspace. -/
  need : Pattern → WorkspaceKind → Requirement
  /-- Factors as a solve sees them. -/
  Factors : Type
  /-- The factors in the work buffers of a system with `dim` unknowns. -/
  factors : (dim : Int) → (a : Array α) → (iw : Array Int) → Factors
  /-- The answer of an analysis and what it writes to the index array depend on the structure
  alone. -/
  analysis : ∀ {s s' : Session α σ} (p : Pattern) (iw iw' : Array Int) {keep keep' : Array Int},
    s.kernel = k → s'.kernel = k → keep.size = keep'.size →
    (s.analyse p iw keep).result = (s'.analyse p iw' keep').result ∧
      (s.analyse p iw keep).keep = (s'.analyse p iw' keep').keep
  /-- No recommended length is negative. -/
  recommends : ∀ {s : Session α σ} {p : Pattern} {iw keep : Array Int} {result : AnalysisResult},
    s.kernel = k → (s.analyse p iw keep).result = .ok result → result.accepted = true →
    0 ≤ result.integerLength ∧ 0 ≤ result.realLength
  /-- A workspace that is too short is reported, with the length needed. -/
  short : ∀ {s : Session α σ} {p : Pattern} {a : Array α} {iw : Array Int} (keep : Array Int)
    {kind : WorkspaceKind}, s.kernel = k →
    WorkspaceKind.lacking? (need p) iw.size a.size = some kind →
    (∃ result, (s.factorize p a iw keep).result = .ok result ∧
      Engine.shortage? result.verdict = some (kind, need p kind)) ∧
      (s.factorize p a iw keep).keep = keep
  /-- With enough words there is no such report. -/
  enough : ∀ {s : Session α σ} {p : Pattern} {a : Array α} {iw keep : Array Int}
    {result : FactorizationResult}, s.kernel = k →
    WorkspaceKind.lacking? (need p) iw.size a.size = none →
    (s.factorize p a iw keep).result = .ok result → Engine.shortage? result.verdict = none
  /-- With enough words the report and the factors depend on the structure, the values, the index
  array and the tolerance alone. -/
  factorization : ∀ {s s' : Session α σ} {p : Pattern} {a a' : Array α} {iw iw' : Array Int}
    (keep : Array Int), s.kernel = k → s'.kernel = k → s.tolerance = s'.tolerance →
    WorkspaceKind.lacking? (need p) iw.size a.size = none →
    WorkspaceKind.lacking? (need p) iw'.size a'.size = none →
    a.toList.take p.rows.length = a'.toList.take p.rows.length →
    (s.factorize p a iw keep).result.map FactorizationResult.uncounted =
        (s'.factorize p a' iw' keep).result.map FactorizationResult.uncounted ∧
      (s.factorize p a iw keep).keep = (s'.factorize p a' iw' keep).keep ∧
      factors p.dim (s.factorize p a iw keep).a (s.factorize p a iw keep).iw =
        factors p.dim (s'.factorize p a' iw' keep).a (s'.factorize p a' iw' keep).iw
  /-- A solve depends on the factors and the right-hand side alone. -/
  solution : ∀ {s s' : Session α σ} {dim : Int} (rhs : List α) {a a' : Array α}
    {iw iw' : Array Int}, s.kernel = k → s'.kernel = k → factors dim a iw = factors dim a' iw' →
    (s.backsolve dim rhs a iw).result = (s'.backsolve dim rhs a' iw').result ∧
      factors dim (s.backsolve dim rhs a iw).a (s.backsolve dim rhs a iw).iw =
        factors dim (s'.backsolve dim rhs a' iw').a (s'.backsolve dim rhs a' iw').iw

namespace Session

variable {α σ : Type} {k : Kernel α σ}

/-- The session without the record. -/
def unrecorded (k : Kernel α σ) (s : Session α (Recorded α σ)) : Session α σ :=
  ⟨k, s.state.state, s.controls⟩

variable {s : Session α (Recorded α σ)} (h : s.kernel = k.recorded)
include h

theorem analyse_unrecorded (p : Pattern) (iw keep : Array Int) :
    (s.analyse p iw keep).result = ((s.unrecorded k).analyse p iw keep).result ∧
      (s.analyse p iw keep).keep = ((s.unrecorded k).analyse p iw keep).keep := by
  obtain ⟨kernel, state, controls⟩ := s
  cases h
  exact ⟨rfl, rfl⟩

theorem factorize_unrecorded (p : Pattern) (a : Array α) (iw keep : Array Int) :
    (s.factorize p a iw keep).result = ((s.unrecorded k).factorize p a iw keep).result ∧
      (s.factorize p a iw keep).keep = ((s.unrecorded k).factorize p a iw keep).keep ∧
      (s.factorize p a iw keep).a = ((s.unrecorded k).factorize p a iw keep).a ∧
      (s.factorize p a iw keep).iw = ((s.unrecorded k).factorize p a iw keep).iw := by
  obtain ⟨kernel, state, controls⟩ := s
  cases h
  exact ⟨rfl, rfl, rfl, rfl⟩

theorem backsolve_unrecorded (dim : Int) (rhs : List α) (a : Array α) (iw : Array Int) :
    (s.backsolve dim rhs a iw).result = ((s.unrecorded k).backsolve dim rhs a iw).result ∧
      (s.backsolve dim rhs a iw).a = ((s.unrecorded k).backsolve dim rhs a iw).a ∧
      (s.backsolve dim rhs a iw).iw = ((s.unrecorded k).backsolve dim rhs a iw).iw := by
  obtain ⟨kernel, state, controls⟩ := s
  cases h
  unfold backsolve
  split <;> exact ⟨rfl, rfl, rfl⟩

end Session

/-- **A record changes no needs.** -/
def Kernel.FixedNeeds.recorded {α σ : Type} {k : Kernel α σ} (needs : k.FixedNeeds) :
    k.recorded.FixedNeeds where
  need := needs.need
  Factors := needs.Factors
  factors := needs.factors
  analysis p iw iw' keep keep' hs hs' size := by
    rw [(Session.analyse_unrecorded hs p iw keep).1, (Session.analyse_unrecorded hs p iw keep).2,
      (Session.analyse_unrecorded hs' p iw' keep').1,
      (Session.analyse_unrecorded hs' p iw' keep').2]
    exact needs.analysis p iw iw' rfl rfl size
  recommends hs answered := by
    rw [(Session.analyse_unrecorded hs _ _ _).1] at answered
    exact needs.recommends rfl answered
  short keep _ hs lacks := by
    rw [(Session.factorize_unrecorded hs _ _ _ _).1, (Session.factorize_unrecorded hs _ _ _ _).2.1]
    exact needs.short keep rfl lacks
  enough hs ample answered := by
    rw [(Session.factorize_unrecorded hs _ _ _ _).1] at answered
    exact needs.enough rfl ample answered
  factorization keep hs hs' tolerance enough enough' front := by
    obtain ⟨result, kept, a, iw⟩ := Session.factorize_unrecorded hs _ _ _ _
    obtain ⟨result', kept', a', iw'⟩ := Session.factorize_unrecorded hs' _ _ _ _
    rw [result, kept, a, iw, result', kept', a', iw']
    exact needs.factorization keep rfl rfl tolerance enough enough' front
  solution rhs a a' iw iw' hs hs' same := by
    obtain ⟨result, left, left'⟩ := Session.backsolve_unrecorded hs _ rhs a iw
    obtain ⟨result', right, right'⟩ := Session.backsolve_unrecorded hs' _ rhs a' iw'
    rw [result, left, left', result', right, right']
    exact needs.solution rhs rfl rfl same

/-! ## A kernel with fixed needs -/

/-- The words that the kernel `measured` needs in a workspace. -/
def measuredNeed : WorkspaceKind → Requirement
  | .integer => ⟨40, by decide, by decide⟩
  | .real => ⟨30, by decide, by decide⟩

/-- A kernel for a single unknown. It recommends less than it needs, and its factor is the sum of
the entries. -/
def measured : Kernel ℚ Unit where
  id := "measured"
  defaultControls := Vector.replicate 5 0
  analyse _ _ iw keep _ :=
    ⟨(), iw, keep.map fun _ => 0, .ok (KernelInfo.toRaw { integerLength := 1, realLength := 1 })⟩
  factorize {aLength iwLength _} _ s a iw keep _ :=
    let short (flag : Int) (kind : WorkspaceKind) : KernelInfo :=
      { flag, detail := (measuredNeed kind).length }
    match WorkspaceKind.lacking? measuredNeed iwLength aLength with
    | some .integer => ⟨(), a, iw, keep, .ok (short (-3) .integer).toRaw⟩
    | some .real => ⟨(), a, iw, keep, .ok (short (-4) .real).toRaw⟩
    | none => ⟨(), overwrite a #[(a.toList.take s.rows.length).sum], iw, keep,
        .ok (KernelInfo.toRaw { rank := s.dim })⟩
  solve _ _ a iw rhs := ⟨(), a, iw, rhs.map (· / a.toArray[0]?.getD 0), .ok 0⟩

theorem analyse_measured {s : Session ℚ Unit} (h : s.kernel = measured) (p : Pattern)
    (iw keep : Array Int) :
    (s.analyse p iw keep).result = .ok ⟨true, 1, 1, 0, 0⟩ ∧
      (s.analyse p iw keep).keep = keep.map fun _ => 0 := by
  obtain ⟨_, state, controls⟩ := s
  cases h
  exact ⟨rfl, rfl⟩

theorem factorize_measured {s : Session ℚ Unit} (h : s.kernel = measured) (p : Pattern)
    (a : Array ℚ) (iw keep : Array Int) {kind : WorkspaceKind}
    (short : WorkspaceKind.lacking? measuredNeed iw.size a.size = some kind) :
    (∃ result, (s.factorize p a iw keep).result = .ok result ∧
      Engine.shortage? result.verdict = some (kind, measuredNeed kind)) ∧
      (s.factorize p a iw keep).keep = keep := by
  obtain ⟨_, state, controls⟩ := s
  cases h
  cases kind <;> simp only [Session.factorize, short]
  · exact ⟨⟨_, rfl, rfl⟩, trivial⟩
  · exact ⟨⟨_, rfl, rfl⟩, trivial⟩

theorem factorize_measured_of_enough {s : Session ℚ Unit} (h : s.kernel = measured) (p : Pattern)
    (a : Array ℚ) (iw keep : Array Int)
    (enough : WorkspaceKind.lacking? measuredNeed iw.size a.size = none) :
    (s.factorize p a iw keep).result = .ok ⟨.success, 0, p.dim, 0, 0, 0, 0⟩ ∧
      (s.factorize p a iw keep).keep = keep ∧
      (s.factorize p a iw keep).a[0]?.getD 0 = (a.toList.take p.rows.length).sum := by
  obtain ⟨_, state, controls⟩ := s
  cases h
  have long : 0 < a.size := by
    unfold WorkspaceKind.lacking? at enough
    split_ifs at enough with _ reals
    have : 30 ≤ a.size := Nat.not_lt.1 reals
    omega
  simp only [Session.factorize, enough]
  refine ⟨rfl, trivial, ?_⟩
  simp [overwrite, long]

/-- **Forty integer and thirty real words are enough.** -/
def measured_fixedNeeds : measured.FixedNeeds where
  need _ := measuredNeed
  Factors := ℚ
  factors _ a _ := a[0]?.getD 0
  analysis p iw iw' keep keep' h h' size := by
    rw [(analyse_measured h ..).1, (analyse_measured h ..).2, (analyse_measured h' ..).1,
      (analyse_measured h' ..).2]
    refine ⟨rfl, Array.ext (by simpa using size) fun i _ _ => ?_⟩
    rw [Array.getElem_map, Array.getElem_map]
  recommends h answered _ := by
    cases (analyse_measured h ..).1.symm.trans answered
    exact ⟨by decide, by decide⟩
  short _ _ h lacks := factorize_measured h _ _ _ _ lacks
  enough h ample answered := by
    cases (factorize_measured_of_enough h _ _ _ _ ample).1.symm.trans answered
    rfl
  factorization _ h h' _ ample ample' front := by
    obtain ⟨result, kept, factor⟩ := factorize_measured_of_enough h _ _ _ _ ample
    obtain ⟨result', kept', factor'⟩ := factorize_measured_of_enough h' _ _ _ _ ample'
    refine ⟨by rw [result, result'], by rw [kept, kept'], ?_⟩
    rw [factor, factor', front]
  solution {s s' dim} rhs {a a' iw iw'} h h' same := by
    obtain ⟨_, state, controls⟩ := s
    obtain ⟨_, state', controls'⟩ := s'
    cases h
    cases h'
    unfold Session.backsolve
    split
    · refine ⟨?_, same⟩
      dsimp only
      rw [same]
    · exact ⟨rfl, same⟩

end SymSolve
