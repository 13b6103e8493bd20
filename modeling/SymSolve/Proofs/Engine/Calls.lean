import SymSolve.Kernel.Recorded
import SymSolve.Proofs.Engine.Upkeep

/-!
# The record of a kernel's calls

What an engine does with its kernel is read off the record that `Kernel.recorded` keeps: the latest
factorization before a call, the words the kernel left in the index array, and so on.

**Theorem (`recordSpec_met`).** The record of every kernel meets a specification in which "factors"
means: the latest factorization was a success, and the words are those that it left, if solving
leaves them alone. So the invariant of the engine (`Engine.Sound`) ties its notes to the record.
-/

namespace SymSolve

/-! ## Reading the record -/

/-- A call of the analysis. -/
structure AnalyseCall where
  pattern : Pattern
  iw : Array Int
  keep : Array Int
  iwAfter : Array Int
  keepAfter : Array Int
  answer : Except Breakdown RawInfo

/-- A call of the factorization. -/
structure FactorizeCall (α : Type) where
  pattern : Pattern
  a : Array α
  iw : Array Int
  keep : Array Int
  controls : Controls α
  aAfter : Array α
  iwAfter : Array Int
  keepAfter : Array Int
  answer : Except Breakdown RawInfo

/-- A call of the solve. -/
structure SolveCall (α : Type) where
  dim : Int
  a : Array α
  iw : Array Int
  rhs : Array α
  aAfter : Array α
  iwAfter : Array Int

/-- What the answer is read as. -/
def AnalyseCall.result (c : AnalyseCall) : Except KernelFault AnalysisResult :=
  Session.read AnalysisResult.ofRaw? c.answer

/-- What the answer is read as. -/
def FactorizeCall.result {α : Type} (c : FactorizeCall α) : Except KernelFault FactorizationResult :=
  Session.read FactorizationResult.ofRaw? c.answer

namespace KernelCall

variable {α : Type}

/-- The call, if it is one of the analysis. -/
def analysis? : KernelCall α → Option AnalyseCall
  | analyse s iw keep _ iwAfter keepAfter answer => some ⟨s, iw, keep, iwAfter, keepAfter, answer⟩
  | _ => none

/-- The call, if it is one of the factorization. -/
def factorization? : KernelCall α → Option (FactorizeCall α)
  | factorize s a iw keep controls aAfter iwAfter keepAfter answer =>
    some ⟨s, a, iw, keep, controls, aAfter, iwAfter, keepAfter, answer⟩
  | _ => none

/-- The call, if it is one of the solve. -/
def solve? : KernelCall α → Option (SolveCall α)
  | solve dim a iw rhs aAfter iwAfter _ _ => some ⟨dim, a, iw, rhs, aAfter, iwAfter⟩
  | _ => none

/-- The pattern that the call was given, if it was given one. -/
def pattern? : KernelCall α → Option Pattern
  | analyse s _ _ _ _ _ _ | factorize s _ _ _ _ _ _ _ _ => some s
  | solve .. => none

/-- The index array as the call left it, if it had one. -/
def keepAfter? : KernelCall α → Option (Array Int)
  | analyse _ _ _ _ _ keepAfter _ | factorize _ _ _ _ _ _ _ keepAfter _ => some keepAfter
  | solve .. => none

theorem analysis?_of_factorization {c : KernelCall α} (h : c.factorization?.isSome) :
    c.analysis? = none := by
  cases c with
  | factorize => rfl
  | analyse => cases h
  | solve => cases h

theorem analysis?_of_solve? {c : KernelCall α} {s : SolveCall α} (h : c.solve? = some s) :
    c.analysis? = none := by
  cases c with
  | solve => rfl
  | analyse => cases h
  | factorize => cases h

end KernelCall

section Latest

variable {α β : Type}

/-- The latest call of a kind. -/
def latest? (view : KernelCall α → Option β) (calls : List (KernelCall α)) : Option β :=
  calls.reverse.findSome? view

theorem latest?_append (view : KernelCall α → Option β) (before after : List (KernelCall α)) :
    latest? view (before ++ after) = (latest? view after).or (latest? view before) := by
  simp [latest?, List.findSome?_append]

theorem latest?_concat (view : KernelCall α → Option β) (calls : List (KernelCall α))
    (c : KernelCall α) : latest? view (calls ++ [c]) = (view c).or (latest? view calls) := by
  rw [latest?_append]
  congr 1
  simp only [latest?, List.reverse_singleton, List.findSome?_singleton]

theorem latest?_append_of_none {view : KernelCall α → Option β} {after : List (KernelCall α)}
    (h : ∀ c ∈ after, view c = none) (before : List (KernelCall α)) :
    latest? view (before ++ after) = latest? view before := by
  rw [latest?_append, latest?, List.findSome?_eq_none_iff.2 fun c hc => h c (List.mem_reverse.1 hc),
    Option.none_or]

end Latest

/-! ## What a call adds to the record -/

namespace Session

variable {α σ : Type} {k : Kernel α σ} {s : Session α (Recorded α σ)}

theorem record_analyse (h : s.kernel = k.recorded) (p : Pattern) (iw keep : Array Int) :
    ∃ answer, (s.analyse p iw keep).result = read AnalysisResult.ofRaw? answer ∧
      (s.analyse p iw keep).session.state.calls = s.state.calls ++ [.analyse p iw keep s.controls
        (s.analyse p iw keep).iw (s.analyse p iw keep).keep answer] := by
  obtain ⟨kernel, state, controls⟩ := s
  cases h
  exact ⟨_, rfl, rfl⟩

theorem record_factorize (h : s.kernel = k.recorded) (p : Pattern) (a : Array α)
    (iw keep : Array Int) :
    ∃ answer, (s.factorize p a iw keep).result = read FactorizationResult.ofRaw? answer ∧
      (s.factorize p a iw keep).session.state.calls = s.state.calls ++
        [.factorize p a iw keep s.controls (s.factorize p a iw keep).a
          (s.factorize p a iw keep).iw (s.factorize p a iw keep).keep answer] := by
  obtain ⟨kernel, state, controls⟩ := s
  cases h
  exact ⟨_, rfl, rfl⟩

/-- A right-hand side of the wrong length does not reach the kernel. -/
theorem record_backsolve (h : s.kernel = k.recorded) (dim : Int) (rhs : List α) (a : Array α)
    (iw : Array Int) :
    (s.backsolve dim rhs a iw).session.state.calls = s.state.calls ∨
      ∃ rhsAfter answer, (s.backsolve dim rhs a iw).session.state.calls = s.state.calls ++
        [.solve dim a iw rhs.toArray (s.backsolve dim rhs a iw).a (s.backsolve dim rhs a iw).iw
          rhsAfter answer] := by
  obtain ⟨kernel, state, controls⟩ := s
  cases h
  unfold backsolve
  split
  · exact .inr ⟨_, _, rfl⟩
  · exact .inl rfl

end Session

/-- Solving leaves the factors as they are. -/
def Kernel.LeavesFactors {α σ : Type} (k : Kernel α σ) : Prop :=
  ∀ {aLength iwLength rhsLength : Nat} (state : σ) (dim : Int) (a : Vector α aLength)
    (iw : Vector Int iwLength) (rhs : Vector α rhsLength),
    (k.solve state dim a iw rhs).a = a ∧ (k.solve state dim a iw rhs).iw = iw

namespace Session

variable {α σ : Type} {k : Kernel α σ} {s : Session α (Recorded α σ)}

theorem backsolve_leaves (h : s.kernel = k.recorded) (leaves : k.LeavesFactors) (dim : Int)
    (rhs : List α) (a : Array α) (iw : Array Int) :
    (s.backsolve dim rhs a iw).a = a ∧ (s.backsolve dim rhs a iw).iw = iw := by
  obtain ⟨kernel, state, controls⟩ := s
  cases h
  unfold backsolve
  split
  · obtain ⟨ha, hiw⟩ := leaves state.state dim ⟨a, rfl⟩ ⟨iw, rfl⟩
      (⟨rhs.toArray, rfl⟩ : Vector α _)
    exact ⟨congrArg Vector.toArray ha, congrArg Vector.toArray hiw⟩
  · exact ⟨rfl, rfl⟩

end Session

/-! ## The specification -/

section Spec

variable {α σ : Type} {k : Kernel α σ} {p : Pattern} {values : List α}

/-- No factorization writes to the index array. -/
def KeepsIndices (calls : List (KernelCall α)) : Prop :=
  ∀ c ∈ calls, ∀ f, c.factorization? = some f → f.keepAfter = f.keep

/-- The latest analysis was one of the pattern and accepted it, and `keep` is what it left, or
else what a factorization after it made of that. -/
structure LeftIndices (calls : List (KernelCall α)) (p : Pattern) (keep : Array Int) : Prop where
  latest : latest? KernelCall.keepAfter? calls = some keep
  analysed : ∃ c result, latest? KernelCall.analysis? calls = some c ∧ c.pattern = p ∧
    c.result = .ok result ∧ result.accepted ∧ (KeepsIndices calls → c.keepAfter = keep)

/-- After the calls `before`, the call analyses the pattern, or factorizes it with the values in
front and with the index array of its analysis. -/
def KernelCall.Serves (p : Pattern) (values : List α) (controls : Controls α)
    (before : List (KernelCall α)) : KernelCall α → Prop
  | analyse s _ _ c _ _ _ => s = p ∧ c = controls
  | factorize s a _ keep c _ _ _ _ =>
    s = p ∧ values <+: a.toList ∧ c = controls ∧ LeftIndices before p keep
  | solve .. => False

theorem KernelCall.solve?_of_serves {controls : Controls α} {c : KernelCall α}
    {before : List (KernelCall α)} (h : c.Serves p values controls before) : c.solve? = none := by
  cases c with
  | solve => exact h.elim
  | analyse => rfl
  | factorize => rfl

theorem KernelCall.pattern?_of_serves {controls : Controls α} {c : KernelCall α}
    {before : List (KernelCall α)} (h : c.Serves p values controls before) :
    c.pattern? = some p := by
  cases c with
  | solve => exact h.elim
  | analyse => exact congrArg some h.1
  | factorize => exact congrArg some h.1

theorem KernelCall.serves_of_factorization {controls : Controls α} {c : KernelCall α}
    {before : List (KernelCall α)} {f : FactorizeCall α} (hf : c.factorization? = some f)
    (h : c.Serves p values controls before) :
    f.pattern = p ∧ values <+: f.a.toList ∧ f.controls = controls ∧ LeftIndices before p f.keep := by
  cases c with
  | factorize =>
    obtain rfl := Option.some.inj hf
    exact h
  | analyse => cases hf
  | solve => cases hf

theorem KernelCall.pattern?_of_solve? {c : KernelCall α} {s : SolveCall α}
    (h : c.solve? = some s) : c.pattern? = none := by
  cases c with
  | solve => rfl
  | analyse => cases h
  | factorize => cases h

theorem KernelCall.factorization?_of_solve? {c : KernelCall α} {s : SolveCall α}
    (h : c.solve? = some s) : c.factorization? = none := by
  cases c with
  | solve => rfl
  | analyse => cases h
  | factorize => cases h

/-- The call was a success: it was given the pattern, the values and the control words, and it
reported the number of negative eigenvalues. -/
structure FactorizeCall.Made (f : FactorizeCall α) (p : Pattern) (values : List α)
    (controls : Controls α) (negative : Int) : Prop where
  pattern : f.pattern = p
  values : values <+: f.a.toList
  controls : f.controls = controls
  success : ∃ result, f.result = .ok result ∧ result.verdict = .success ∧
    result.negative = negative

/-- The words are those that the call left, unless solves have written to them. -/
def FactorizeCall.Left (f : FactorizeCall α) (k : Kernel α σ) (a : Array α) (iw : Array Int) :
    Prop :=
  k.LeavesFactors → f.aAfter = a ∧ f.iwAfter = iw

/-- What a record says of the kernel whose calls it lists. Which records are allowed is left
open. -/
def recordSpec (k : Kernel α σ) (allowed : Controls α → List (KernelCall α) → Prop) :
    KernelSpec α (Recorded α σ) where
  Admits s := s.kernel = k.recorded ∧ allowed s.controls s.state.calls
  Ready s p keep := LeftIndices s.state.calls p keep
  Holds s p values negative a iw := ∃ f, latest? KernelCall.factorization? s.state.calls = some f ∧
    f.Made p values s.controls negative ∧ f.Left k a iw
  Solves _ _ _ _ := True

theorem leftIndices_factorize {calls : List (KernelCall α)} {keep : Array Int}
    (h : LeftIndices calls p keep) (a iw controls aAfter iwAfter keepAfter answer) :
    LeftIndices (calls ++ [.factorize p a iw keep controls aAfter iwAfter keepAfter answer]) p
      keepAfter := by
  obtain ⟨latest, c, result, hc, hp, answered, accepted, kept⟩ := h
  refine ⟨latest?_concat .., c, result, ?_, hp, answered, accepted, fun untouched => ?_⟩
  · rw [latest?_concat]
    exact hc
  · have same := untouched _ (List.mem_concat_self) _ rfl
    rw [kept fun c hc => untouched c (List.mem_append_left _ hc)]
    exact same.symm

theorem recordSpec_attempts {allowed : Controls α → List (KernelCall α) → Prop}
    (closed : ∀ controls calls c, allowed controls calls → c.factorization?.isSome →
      c.Serves p values controls calls → allowed controls (calls ++ [c])) :
    (recordSpec k allowed).Attempts p values where
  admits_factorize {s a} iw {keep} h ready front := by
    obtain ⟨answer, -, record⟩ := Session.record_factorize h.1 p a iw keep
    refine ⟨h.1, ?_⟩
    rw [record]
    exact closed _ _ _ h.2 rfl ⟨rfl, front, rfl, ready⟩
  ready_factorize {s a} iw {keep} h ready _ := by
    obtain ⟨answer, -, record⟩ := Session.record_factorize h.1 p a iw keep
    show LeftIndices (s.factorize p a iw keep).session.state.calls _ _
    rw [record]
    exact leftIndices_factorize ready ..
  holds_factorize {s a iw keep result} h _ front answered success := by
    obtain ⟨answer, read, record⟩ := Session.record_factorize h.1 p a iw keep
    show ∃ f, latest? _ (s.factorize p a iw keep).session.state.calls = some f ∧ _
    rw [record]
    exact ⟨_, latest?_concat .., ⟨rfl, front, rfl, result, read.symm.trans answered, success, rfl⟩,
      fun _ => ⟨rfl, rfl⟩⟩

theorem recordSpec_factorizes {allowed : Controls α → List (KernelCall α) → Prop}
    (closed : ∀ controls calls c, allowed controls calls → c.Serves p values controls calls →
      allowed controls (calls ++ [c])) : (recordSpec k allowed).Factorizes p values where
  toAttempts := recordSpec_attempts fun controls calls c h _ => closed controls calls c h
  admits_analyse {s} iw keep h := by
    obtain ⟨answer, -, record⟩ := Session.record_analyse h.1 p iw keep
    refine ⟨h.1, ?_⟩
    rw [record]
    exact closed _ _ _ h.2 ⟨rfl, rfl⟩
  ready_analyse {s iw keep result} h answered accepted := by
    obtain ⟨answer, read, record⟩ := Session.record_analyse h.1 p iw keep
    refine ⟨?_, ?_⟩ <;> rw [record]
    · exact latest?_concat ..
    · exact ⟨_, result, latest?_concat .., rfl, read.symm.trans answered, accepted, fun _ => rfl⟩

theorem LeftIndices.backsolve {calls : List (KernelCall α)} {keep : Array Int}
    (h : LeftIndices calls p keep) (dim a iw rhs aAfter iwAfter rhsAfter answer) :
    LeftIndices (calls ++ [.solve dim a iw rhs aAfter iwAfter rhsAfter answer]) p keep := by
  obtain ⟨latest, c, result, hc, hp, answered, accepted, kept⟩ := h
  refine ⟨?_, c, result, ?_, hp, answered, accepted, fun untouched => ?_⟩
  · rw [latest?_concat]
    exact latest
  · rw [latest?_concat]
    exact hc
  · exact kept fun c hc => untouched c (List.mem_append_left _ hc)

theorem recordSpec_backsolves : (recordSpec k fun _ _ => True).Backsolves where
  admits rhs h _ := ⟨(Session.kernel_backsolve ..).trans h.1, trivial⟩
  ready {s p _ _ a iw keep} rhs h _ ready := by
    show LeftIndices _ _ _
    rcases Session.record_backsolve h.1 p.dim rhs a iw with record | ⟨_, _, record⟩ <;> rw [record]
    · exact ready
    · exact ready.backsolve ..
  holds {s p values n a iw} rhs h holds := by
    obtain ⟨f, latest, made, left⟩ := holds
    refine ⟨f, ?_, { made with
      controls := made.controls.trans (Session.controls_backsolve ..).symm }, fun leaves => ?_⟩
    · rcases Session.record_backsolve h.1 p.dim rhs a iw with record | ⟨_, _, record⟩ <;> rw [record]
      · exact latest
      · rw [latest?_concat]
        exact latest
    · obtain ⟨ha, hiw⟩ := Session.backsolve_leaves h.1 leaves p.dim rhs a iw
      rw [ha, hiw]
      exact left leaves
  solves _ _ _ _ := trivial

/-- **The record meets its specification**, whatever the kernel is. -/
theorem recordSpec_met : (recordSpec k fun _ _ => True).Met where
  factorizes _ _ := recordSpec_factorizes fun _ _ _ _ _ => trivial
  backsolves := recordSpec_backsolves
  admits_withTolerance _ h := h
  ready_withTolerance _ h := h

end Spec

end SymSolve
