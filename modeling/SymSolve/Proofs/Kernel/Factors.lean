import SymSolve.Proofs.Engine.Upkeep
import SymSolve.Proofs.Kernel.Reference

/-!
# The reference kernel meets a specification

**Theorem (`referenceSpec_met`).** Over exact scalars the reference kernel meets a specification in
which "factors" are factors: the words in the buffers are those of the matrix with the given
positions and values, the number of negative eigenvalues is the number of its negative signs, and
what is solved with them are solutions.
-/

namespace SymSolve

open Matrix Reference

/-! ## What steps of the kernel leave alone -/

namespace Reference

variable {α : Type} [Scalar α] {aLength iwLength keepLength rhsLength : Nat}

theorem keep_factorize (s : Pattern) (a : Vector α aLength) (iw : Vector Int iwLength)
    (keep : Vector Int keepLength) (controls : Controls α) :
    (factorize s a iw keep controls).keep = keep := by
  unfold factorize
  dsimp only
  split
  · rfl
  · rfl
  · split
    · rfl
    · split <;> rfl

theorem solve_leaves (dim : Int) (a : Vector α aLength) (iw : Vector Int iwLength)
    (rhs : Vector α rhsLength) : (solve dim a iw rhs).a = a ∧ (solve dim a iw rhs).iw = iw := by
  unfold solve
  dsimp only
  split
  · exact ⟨rfl, rfl⟩
  · split
    · split
      · exact ⟨rfl, rfl⟩
      · split <;> exact ⟨rfl, rfl⟩
    · exact ⟨rfl, rfl⟩

/-! ## A session with the kernel -/

omit [Scalar α] in
theorem answer_of_readSolve {n : Nat} {rhs : Vector α n} {answer : Except Breakdown Int}
    {result : BacksolveResult α} {x : List α}
    (read : (Kernel.readSolve rhs answer).mapError KernelFault.breakdown = .ok result)
    (found : result.solution = some x) : answer = .ok 0 ∧ x = rhs.toList := by
  cases answer with
  | error failure => cases failure <;> cases read <;> cases found
  | ok flag =>
    cases read
    by_cases zero : flag = 0
    · rw [if_pos zero] at found
      exact ⟨congrArg _ zero, (Option.some.inj found).symm⟩
    · rw [if_neg zero] at found
      cases found

section Sessions

variable {s : Session α Unit} (h : s.kernel = kernel)
include h

theorem session_analyse (p : Pattern) (iw keep : Array Int) :
    s.analyse p iw keep =
      let r := Reference.analyse p ⟨iw, rfl⟩ ⟨keep, rfl⟩
      ⟨s, r.iw.toArray, r.keep.toArray, Session.read AnalysisResult.ofRaw? r.answer⟩ := by
  obtain ⟨k, state, controls⟩ := s
  cases h
  rfl

theorem session_factorize (p : Pattern) (a : Array α) (iw keep : Array Int) :
    s.factorize p a iw keep =
      let r := Reference.factorize p ⟨a, rfl⟩ ⟨iw, rfl⟩ ⟨keep, rfl⟩ s.controls
      ⟨s, r.a.toArray, r.iw.toArray, r.keep.toArray,
        Session.read FactorizationResult.ofRaw? r.answer⟩ := by
  obtain ⟨k, state, controls⟩ := s
  cases h
  rfl

theorem session_backsolve_leaves (dim : Int) (rhs : List α) (a : Array α) (iw : Array Int) :
    (s.backsolve dim rhs a iw).a = a ∧ (s.backsolve dim rhs a iw).iw = iw := by
  obtain ⟨k, state, controls⟩ := s
  cases h
  unfold Session.backsolve
  split
  · obtain ⟨ha, hiw⟩ := solve_leaves dim ⟨a, rfl⟩ ⟨iw, rfl⟩ (⟨rhs.toArray, rfl⟩ : Vector α _)
    exact ⟨congrArg Vector.toArray ha, congrArg Vector.toArray hiw⟩
  · exact ⟨rfl, rfl⟩

/-- A solution is what an answer of zero left in the copy of the right-hand side. -/
theorem session_backsolve {dim : Int} {rhs x : List α} {a : Array α} {iw : Array Int}
    {result : BacksolveResult α} (answered : (s.backsolve dim rhs a iw).result = .ok result)
    (found : result.solution = some x) :
    rhs.length = dim ∧
      let r := Reference.solve dim ⟨a, rfl⟩ ⟨iw, rfl⟩ (⟨rhs.toArray, rfl⟩ : Vector α _)
      r.answer = .ok 0 ∧ x = r.rhs.toList := by
  obtain ⟨k, state, controls⟩ := s
  cases h
  unfold Session.backsolve at answered
  split at answered
  · next full => exact ⟨full, answer_of_readSolve answered found⟩
  · cases answered

end Sessions

end Reference

/-! ## The specification -/

variable {K : Type} [Field K] [LinearOrder K] [FloorRing K]

/-- The second vector solves the system with the first one as its right-hand side. -/
def Dense.Solves {n : Nat} (A : Dense n K) (rhs solution : List K) : Prop :=
  ∃ b x : Fin n → K, rhs = List.ofFn b ∧ solution = List.ofFn x ∧ A.toMatrix *ᵥ x = b

/-- The matrix of a pattern with the given values. -/
def Pattern.matrix (p : Pattern) (values : List K) : Dense p.dim.toNat K :=
  assemble (entries (positions p.dim.toNat p) values)

theorem SymTriplets.matrix_ofView (A : SymTriplets K) {words : List K} (front : A.values <+: words) :
    (Pattern.ofView A.view).matrix words = A.toDense :=
  assemble_entries A front

/-- What the reference kernel does. Words behind the values may belong to the matrix when there
are fewer values than positions. -/
def referenceSpec : KernelSpec K Unit where
  Admits s := s.kernel = kernel
  Ready _ p keep := KeepsOrder p.dim.toNat keep.toList
  Holds _ p values negative a iw :=
    ∃ words, values <+: words ∧ Factored (p.matrix words) negative a.toList iw.toList
  Solves p values rhs solution :=
    ∃ words, values <+: words ∧ (p.matrix words).Solves rhs solution

variable [IsStrictOrderedRing K] {p : Pattern} {values : List K}

theorem session_factored {s : Session K Unit} (h : s.kernel = kernel) {a : Array K}
    {iw keep : Array Int} {result : FactorizationResult} (kept : KeepsOrder p.dim.toNat keep.toList)
    (answered : (s.factorize p a iw keep).result = .ok result)
    (success : result.verdict = .success) :
    Factored (p.matrix a.toList) result.negative (s.factorize p a iw keep).a.toList
      (s.factorize p a iw keep).iw.toList := by
  rw [session_factorize h] at answered ⊢
  exact factorize_factored (a := ⟨a, rfl⟩) kept answered success

theorem referenceSpec_factorizes : (referenceSpec (K := K)).Factorizes p values where
  admits_analyse _ _ h := h
  ready_analyse {s iw keep result} h answered accepted := by
    rw [session_analyse h] at answered ⊢
    exact keepsOrder_analyse p ⟨iw, rfl⟩ ⟨keep, rfl⟩ answered accepted
  admits_factorize _ _ h _ _ := h
  ready_factorize {s a} iw {keep} h ready _ := by
    rw [session_factorize h]
    show KeepsOrder p.dim.toNat (Reference.factorize p _ _ _ _).keep.toList
    rw [keep_factorize]
    exact ready
  holds_factorize h ready front answered success :=
    ⟨_, front, session_factored h ready answered success⟩

omit [IsStrictOrderedRing K] in
theorem referenceSpec_backsolves : (referenceSpec (K := K)).Backsolves where
  admits _ h _ := (Session.kernel_backsolve ..).trans h
  ready _ _ _ ready := ready
  holds {s p values n a iw} rhs h holds := by
    obtain ⟨words, front, factored⟩ := holds
    obtain ⟨ha, hiw⟩ := session_backsolve_leaves h p.dim rhs a iw
    refine ⟨words, front, ?_⟩
    rw [ha, hiw]
    exact factored
  solves {s p values n a iw rhs result x} h holds answered found := by
    obtain ⟨words, front, factored⟩ := holds
    obtain ⟨full, success, rfl⟩ := session_backsolve h answered found
    refine ⟨words, front, solve_solves (a := ⟨a, rfl⟩) factored ?_ success⟩
    rw [← full]
    rfl

/-- **The reference kernel meets its specification.** -/
theorem referenceSpec_met : (referenceSpec (K := K)).Met where
  factorizes _ _ := referenceSpec_factorizes
  backsolves := referenceSpec_backsolves
  admits_withTolerance _ h := h
  ready_withTolerance _ h := h

end SymSolve
