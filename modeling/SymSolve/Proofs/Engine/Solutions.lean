import SymSolve.Proofs.Engine.Outcomes
import SymSolve.Proofs.Engine.Record
import SymSolve.Proofs.Engine.Unmoved

/-!
# Who gets written

A call solves for its right-hand sides one after the other. The kernel works on a copy of each, and
what it makes of the copy is written to the solution vector in the same place.

**Theorem (`solutions_are_written_in_turn`).** Whatever the kernel answers and however the call ends,
the copies are those of the right-hand sides in front of the list, in order and as the caller gave
them. The vectors in front of the solutions hold what the kernel made of the copies for which it
answered, and the others are as they were. A success has solved for all right-hand sides; a refusal
is reported with the place of its right-hand side; and a call that ends before has solved for none.

Writing never fails: all dimensions were compared before the call began, and a kernel cannot change
the length of a copy.
-/

namespace SymSolve

section Scratch

variable {α : Type}

/-- A solve as its caller sees it: a copy of a right-hand side, what the kernel made of it, and the
answer. -/
structure Scratch (α : Type) where
  given : DenseVector α
  left : DenseVector α
  answer : Except Breakdown Int

/-- What a caller sees of the call, if it is one of the solve. -/
def KernelCall.scratch? : KernelCall α → Option (Scratch α)
  | solve _ _ _ rhs _ _ rhsAfter answer => some ⟨⟨rhs.toList⟩, ⟨rhsAfter.toList⟩, answer⟩
  | _ => none

/-- The flag with which the kernel refuses a right-hand side. -/
def Scratch.refusal? (s : Scratch α) : Option Int :=
  match s.answer with
  | .ok flag => if flag = 0 then none else some flag
  | .error .singular | .error .invalid => some Kernel.singularFlag
  | .error _ => none

/-- What a session reads off a solve. -/
def Scratch.Reads (s : Scratch α) : Except KernelFault (BacksolveResult α) → Prop
  | .ok ⟨some x, _⟩ => s.answer = .ok 0 ∧ x = s.left.entries
  | .ok ⟨none, flag⟩ => s.refusal? = some flag
  | .error fault => ∃ cause, fault = .breakdown cause ∧ s.answer = .error cause ∧ s.refusal? = none

theorem Scratch.reads (s : Scratch α) {n : Nat} (left : Vector α n)
    (same : left.toList = s.left.entries) :
    s.Reads ((Kernel.readSolve left s.answer).mapError .breakdown) := by
  obtain ⟨given, ⟨entries⟩, answer⟩ := s
  rcases answer with (_ | _ | _ | name) | flag
  · exact rfl
  · exact rfl
  · exact ⟨_, rfl, rfl, rfl⟩
  · exact ⟨_, rfl, rfl, rfl⟩
  · by_cases zero : flag = 0
    · subst zero
      exact ⟨rfl, same⟩
    · simp only [Kernel.readSolve, if_neg zero]
      exact if_neg zero

/-- A right-hand side of the dimension of the structure reaches the kernel, as a copy that keeps its
length. -/
theorem Session.scratch_backsolve {σ : Type} {k : Kernel α σ} {s : Session α (Recorded α σ)}
    (recorded : s.kernel = k.recorded) {dim : Int} {b : DenseVector α} (fits : (b.dim : Int) = dim)
    (a : Array α) (iw : Array Int) :
    ∃ c scratch, (s.backsolve dim b.entries a iw).session.state.calls = s.state.calls ++ [c] ∧
      c.scratch? = some scratch ∧ scratch.given = b ∧ scratch.left.dim = b.dim ∧
      scratch.Reads (s.backsolve dim b.entries a iw).result := by
  obtain ⟨kernel, state, controls⟩ := s
  cases recorded
  unfold backsolve
  rw [if_pos (show (b.entries.length : Int) = dim from fits)]
  let out := k.solve state.state dim ⟨a, rfl⟩ ⟨iw, rfl⟩ (⟨b.entries.toArray, rfl⟩ : Vector α _)
  refine ⟨_, ⟨b, ⟨out.rhs.toList⟩, out.answer⟩, rfl, rfl, rfl, ?_, Scratch.reads _ out.rhs rfl⟩
  exact out.rhs.length_toList

end Scratch

/-- The entry of the catalog for right-hand sides that could not be solved for. -/
def unsolved : CatalogEntry where
  code := "E_LIN_BACKSOLVE_FAILED"
  severity := .error
  stage := .backsolve
  action := "inspect kernel status and reset the solver structure before retrying"

/-- The report that a right-hand side was refused with a flag. -/
def refusalReport {α : Type} (solverId : String) (solveIndex index : Nat) (flag : Int) :
    Report α where
  message := "backsolve failed for right-hand side " ++ toString index ++ " (iflag=" ++
    toString flag ++ ")"
  solverId
  solveIndex := some solveIndex
  attemptIndex := none
  witness := .object [("iflag", .int flag), ("rhs_index", .int index)]

namespace Engine

section Scalar

variable {α σ : Type} [Scalar α] {kernel : Kernel α σ} {e e' : Engine α (Recorded α σ)}

/-- The solves so far. -/
def scratches (e : Engine α (Recorded α σ)) : List (Scratch α) :=
  e.calls.filterMap KernelCall.scratch?

/-! ## One right-hand side -/

theorem exec_emitBacksolveFailed (named : e.solverId ≠ "") (index : Nat) (flag : Int)
    (solveIndex : Nat) :
    exec (emitBacksolveFailed index flag solveIndex) e = (.ok (), { e with diagnostics :=
      e.diagnostics ++ [.ofEntry unsolved (refusalReport e.solverId solveIndex index flag)] }) := by
  have evidence : (Payload.ofFields [("iflag", .int flag), ("rhs_index", .int index)] :
      Payload α).normalize = .ok (.object [("iflag", .int flag), ("rhs_index", .int index)]) :=
    Payload.normalize_ofFields_sorted (by simp) rfl
  exact exec_emit unsolved (by decide +kernel) (by decide) (by decide) (by simp [toString]) named
    nofun evidence

/-- Between `e` and `e'` the kernel was asked to solve for `b`, and what came of it is `s`. -/
structure Asked (e : Engine α (Recorded α σ)) (b : DenseVector α) (s : Scratch α)
    (e' : Engine α (Recorded α σ)) : Prop where
  given : s.given = b
  added : e'.scratches = e.scratches ++ [s]
  kernel : e'.session.kernel = e.session.kernel
  dim : e'.dim = e.dim
  solverId : e'.solverId = e.solverId

theorem asked_afterBacksolve (recorded : e.session.kernel = kernel.recorded) {b : DenseVector α}
    (fits : (b.dim : Int) = e.dim) :
    ∃ s, Asked e b s (e.afterBacksolve b) ∧ s.left.dim = b.dim ∧
      s.Reads (e.session.backsolve e.dim b.entries e.workspace.reals.words
        e.workspace.integers.words).result := by
  obtain ⟨c, s, added, seen, given, long, reads⟩ := Session.scratch_backsolve recorded fits
    e.workspace.reals.words e.workspace.integers.words
  refine ⟨s, ⟨given, ?_, Session.kernel_backsolve .., rfl, rfl⟩, long, reads⟩
  show List.filterMap _ (e.session.backsolve ..).session.state.calls = _
  rw [added, List.filterMap_append, List.filterMap_cons, seen]
  rfl

/-- **One right-hand side**: the kernel solves for it, or refuses it, or breaks down. -/
theorem scratch_solveOne (recorded : e.session.kernel = kernel.recorded) (named : e.solverId ≠ "")
    {b x : DenseVector α} (fits : (b.dim : Int) = e.dim) (same : x.dim = b.dim)
    (solveIndex index : Nat) :
    Ends (solveOne solveIndex index b x) e
      (fun solved e' => ∃ s, Asked e b s e' ∧ match solved with
        | some y => s.answer = .ok 0 ∧ y = s.left
        | none => ∃ flag, s.refusal? = some flag ∧ e'.diagnostics.getLast? =
            some (.ofEntry unsolved (refusalReport e.solverId solveIndex index flag)))
      (fun fault e' => ∃ s cause, Asked e b s e' ∧ s.answer = .error cause ∧ s.refusal? = none ∧
        fault = .kernel (.breakdown cause)) := by
  obtain ⟨s, asked, long, reads⟩ := asked_afterBacksolve recorded fits
  unfold solveOne
  refine ends_callSolve (fun result answered => ?_) fun fault answered => ?_
  · rw [answered] at reads
    split
    · next refused =>
      have refusal : s.refusal? = some result.flag := by
        obtain ⟨_ | x, flag⟩ := result
        · exact reads
        · cases refused
      have name : (e.afterBacksolve b).solverId ≠ "" := named
      refine (ends_bind_of_ok (exec_emitBacksolveFailed name index result.flag solveIndex)).2
        ⟨s, { asked with }, result.flag, refusal, List.getLast?_concat ..⟩
    · next y found =>
      obtain ⟨answer, rfl⟩ : s.answer = .ok 0 ∧ y = s.left.entries := by
        obtain ⟨_ | x, flag⟩ := result
        · cases found
        · cases found
          exact reads
      have written : x.set s.left.entries = .ok s.left :=
        if_neg (not_not.2 (long.trans same.symm))
      rw [written]
      exact ⟨s, asked, answer, rfl⟩
  · rw [answered] at reads
    obtain ⟨cause, rfl, answer, refusal⟩ := reads
    exact ⟨s, cause, asked, answer, refusal, rfl⟩

/-! ## All right-hand sides -/

/-- In front of the solutions stands what the kernel made of its copies of the right-hand sides in
front, and the other solutions are as they were. If there is `failed`, the kernel was given one more
copy. -/
structure Wrote (rhs solutions : List (DenseVector α)) (done : List (Scratch α))
    (failed : Option (Scratch α)) (after : List (DenseVector α)) : Prop where
  given : (done ++ failed.toList).map Scratch.given <+: rhs
  answered : ∀ s ∈ done, s.answer = .ok 0
  written : after = done.map Scratch.left ++ solutions.drop done.length

/-- How the call `k` ends after it has solved for the right-hand sides of `done`, the first of which
has the place `first`, when there were `count` of them. -/
inductive Ending (k first count : Nat) (e' : Engine α (Recorded α σ)) (done : List (Scratch α)) :
    Option (Scratch α) → Except Fault Outcome → Prop
  /-- It has solved for all of them. -/
  | success (all : done.length = count) : Ending k first count e' done none (.ok .success)
  /-- The kernel has refused the next one, and its place is reported. -/
  | refused {s : Scratch α} {flag : Int} (refusal : s.refusal? = some flag)
      (reported : e'.diagnostics.getLast? = some
        (.ofEntry unsolved (refusalReport e'.solverId k (first + done.length) flag))) :
      Ending k first count e' done (some s) (.ok .fatalError)
  /-- The kernel has broken down over the next one, and that was not a refusal. -/
  | broken {s : Scratch α} {cause : Breakdown} (answer : s.answer = .error cause)
      (unrefused : s.refusal? = none) :
      Ending k first count e' done (some s) (.error (.kernel (.breakdown cause)))

omit [Scalar α] in
/-- Nothing is written for the first right-hand side. -/
theorem Wrote.head {b : DenseVector α} {more solutions : List (DenseVector α)} {s : Scratch α}
    (given : s.given = b) : Wrote (b :: more) solutions [] (some s) solutions where
  given := ⟨more, congrArg (· :: more) given⟩
  answered := nofun
  written := rfl

omit [Scalar α] in
theorem Wrote.cons {b x : DenseVector α} {more rest after : List (DenseVector α)} {s : Scratch α}
    {done : List (Scratch α)} {failed : Option (Scratch α)} (h : Wrote more rest done failed after)
    (given : s.given = b) (answered : s.answer = .ok 0) :
    Wrote (b :: more) (x :: rest) (s :: done) failed (s.left :: after) where
  given := by
    rw [List.cons_append, List.map_cons, given]
    exact (List.prefix_cons_inj b).2 h.given
  answered := List.forall_mem_cons.2 ⟨answered, h.answered⟩
  written := congrArg (s.left :: ·) h.written

theorem Ending.cons {k first count : Nat} {done : List (Scratch α)} {failed : Option (Scratch α)}
    {result : Except Fault Outcome} (s : Scratch α)
    (h : Ending k (first + 1) count e' done failed result) :
    Ending k first (count + 1) e' (s :: done) failed result := by
  have place : first + 1 + done.length = first + (s :: done).length := by
    rw [List.length_cons]
    omega
  cases h with
  | success all => exact .success (congrArg (· + 1) all)
  | refused refusal reported => exact .refused refusal (place ▸ reported)
  | broken answer unrefused => exact .broken answer unrefused

/-- **All right-hand sides, one after the other.** -/
theorem scratches_backsolve (k index : Nat) (rhs solutions : List (DenseVector α))
    (e : Engine α (Recorded α σ)) (recorded : e.session.kernel = kernel.recorded)
    (named : e.solverId ≠ "") (paired : rhs.length = solutions.length)
    (rhsDims : ∀ b ∈ rhs, (b.dim : Int) = e.dim)
    (solutionDims : ∀ x ∈ solutions, (x.dim : Int) = e.dim) :
    let answer := backsolve k index rhs solutions e
    ∃ done failed, answer.2.scratches = e.scratches ++ (done ++ failed.toList) ∧
      Wrote rhs solutions done failed answer.1.solutions ∧
      Ending k index rhs.length answer.2 done failed answer.1.result := by
  dsimp only
  fun_induction backsolve k index rhs solutions e with
  | case1 index b more x solutions e fault after solved =>
    have fits := rhsDims b List.mem_cons_self
    have same : x.dim = b.dim := Int.ofNat.inj ((solutionDims x List.mem_cons_self).trans fits.symm)
    obtain ⟨s, cause, asked, answer, unrefused, rfl⟩ :=
      (scratch_solveOne recorded named fits same k index).bad_of_exec solved
    exact ⟨[], some s, asked.added, .head asked.given, .broken answer unrefused⟩
  | case2 index b more x solutions e after solved =>
    have fits := rhsDims b List.mem_cons_self
    have same : x.dim = b.dim := Int.ofNat.inj ((solutionDims x List.mem_cons_self).trans fits.symm)
    obtain ⟨s, asked, flag, refusal, reported⟩ :=
      (scratch_solveOne recorded named fits same k index).ok_of_exec solved
    exact ⟨[], some s, asked.added, .head asked.given, .refused refusal (asked.solverId ▸ reported)⟩
  | case3 index b more x solutions e x' after solved answer last rest ih =>
    have fits := rhsDims b List.mem_cons_self
    have same : x.dim = b.dim := Int.ofNat.inj ((solutionDims x List.mem_cons_self).trans fits.symm)
    obtain ⟨s, asked, answered, rfl⟩ :=
      (scratch_solveOne recorded named fits same k index).ok_of_exec solved
    rw [rest] at ih
    obtain ⟨done, failed, added, wrote, ending⟩ := ih (asked.kernel.trans recorded)
      (asked.solverId ▸ named) (Nat.succ.inj paired)
      (fun b hb => asked.dim ▸ rhsDims b (List.mem_cons_of_mem _ hb))
      (fun x hx => asked.dim ▸ solutionDims x (List.mem_cons_of_mem _ hx))
    refine ⟨s :: done, failed, ?_, wrote.cons asked.given answered, ending.cons s⟩
    rw [added, asked.added, List.append_assoc]
    rfl
  | case4 rhs index solutions e unpaired =>
    cases rhs with
    | nil =>
      obtain rfl := List.length_eq_zero_iff.1 paired.symm
      exact ⟨[], none, (List.append_nil _).symm, ⟨List.nil_prefix, by simp, rfl⟩, .success rfl⟩
    | cons b more =>
      obtain ⟨x, rest, rfl⟩ := List.exists_cons_of_length_eq_add_one paired.symm
      exact (unpaired b more x rest rfl rfl).elim

/-! ## Before the first right-hand side -/

/-- Since `base` the kernel was not asked to solve, and no right-hand side was reported. -/
structure Unasked (kernel : Kernel α σ) (base e : Engine α (Recorded α σ)) : Prop where
  recorded : e.session.kernel = kernel.recorded
  scratches : e.scratches = base.scratches
  reports : Reports (callCodes.erase unsolved.code) base e

variable {m : MatrixView α} {base : Engine α (Recorded α σ)}

theorem unmoved_unasked (kernel : Kernel α σ) (base : Engine α (Recorded α σ)) :
    Unmoved (fun code _ => code ∈ callCodes.erase unsolved.code) (Unasked kernel base) where
  notes _ _ _ h := { h with }
  report event allowed h :=
    ⟨h.recorded, h.scratches, (untouched_reports _ base).report event allowed h.reports⟩

theorem unplanned_unasked (kernel : Kernel α σ) (base : Engine α (Recorded α σ)) :
    Unplanned (Unasked kernel base) where
  sizes _ h := { h with }
  plans _ _ _ h := { h with }

theorem Unasked.after_analysis (h : Unasked kernel base e) :
    Unasked kernel base e.afterAnalysis := by
  refine ⟨h.recorded, ?_, h.reports⟩
  obtain ⟨answer, -, added⟩ := Session.record_analyse h.recorded e.pattern
    e.workspace.integers.words e.workspace.keep.words
  rw [← h.scratches]
  show List.filterMap _ (e.session.analyse ..).session.state.calls = _
  rw [added, List.filterMap_append]
  exact List.append_nil _

theorem Unasked.after_factorization (h : Unasked kernel base e) (m : MatrixView α) :
    Unasked kernel base (e.afterFactorization m) := by
  refine ⟨h.recorded, ?_, h.reports⟩
  obtain ⟨answer, -, added⟩ := Session.record_factorize h.recorded e.pattern
    (overwriteFront m.values.toArray e.workspace.reals.words) e.workspace.integers.words
    e.workspace.keep.words
  rw [← h.scratches]
  show List.filterMap _ (e.session.factorize ..).session.state.calls = _
  rw [added, List.filterMap_append]
  exact List.append_nil _

theorem Unasked.attempt (h : Unasked kernel base e) (solveIndex i : Nat) :
    Unasked kernel base (attempt m solveIndex i e).2 := by
  by_cases fits : m.values.length ≤ e.workspace.reals.length
  · have after := h.after_factorization m
    rw [attempt_eq fits]
    split
    · exact after
    · exact { after with }
  · have unfilled : m.fill e.workspace.reals.words = .error .shortOutput := if_pos (not_le.1 fits)
    unfold Engine.attempt
    rw [unfilled]
    exact h

/-- A preparation does not ask the kernel to solve. -/
theorem prepare_unasked (recorded : e.session.kernel = kernel.recorded) (m : MatrixView α)
    (demand : InertiaDemand) (solveIndex : Nat) :
    Ends (prepare m demand solveIndex) e (fun _ => Unasked kernel e) (fun _ => Unasked kernel e) :=
  (unmoved_unasked kernel e).prepare (unplanned_unasked kernel e) Unasked.after_analysis
    (fun _ listed other _ => (List.mem_erase_of_ne other).2 listed)
    (fun _ i h => h.attempt solveIndex i) demand e ⟨recorded, rfl, .refl _ e⟩

/-! ## Whole calls -/

/-- How a call ends that solves for nothing: not with success, and if it comes to an outcome, then
no right-hand side is reported. -/
def EndsEarly (k : Nat) (e' : Engine α (Recorded α σ)) : Except Fault Outcome → Prop
  | .ok outcome => outcome ≠ .success ∧
    ∀ event ∈ e'.diagnostics, event.solveIndex = some k → event.code ≠ unsolved.code
  | .error _ => True

theorem Unasked.unreported {e : Engine α (Recorded α σ)} (h : Unasked kernel e.beginCall e') (k : Nat) :
    ∀ event ∈ e'.diagnostics, event.solveIndex = some k → event.code ≠ unsolved.code := by
  obtain ⟨events, added, coded⟩ := h.reports
  intro event hevent own
  rw [added] at hevent
  rcases List.mem_append.1 hevent with old | new
  · have unowned := (List.mem_filter.1 old).2
    rw [own] at unowned
    cases unowned
  · intro same
    exact absurd (same ▸ coded event new) (by decide)

theorem dim_captured {rhs solutions : List (DenseVector α)} {demand : InertiaDemand}
    (accepted : Accepted e m rhs solutions demand) : (e.captured m).dim = m.dim := by
  by_cases new : e.phase = .uninitialized
  · rw [captured_of_new new]
    rfl
  · rw [captured_of_known new]
    exact (accepted.sameDim new).symm

/-- The call that started at `e` and ended at `e'` with this answer has solved for the right-hand sides
in turn, or ended before. -/
def WritesInTurn (e : Engine α (Recorded α σ)) (rhs solutions : List (DenseVector α))
    (answer : SolveAnswer α) (e' : Engine α (Recorded α σ)) : Prop :=
  ∃ done failed, e'.scratches = e.scratches ++ (done ++ failed.toList) ∧
    Wrote rhs solutions done failed answer.solutions ∧
    (Ending e.solveCount 0 rhs.length e' done failed answer.result ∨
      done = [] ∧ failed = none ∧ EndsEarly e.solveCount e' answer.result)

theorem writesInTurn_of_early {e : Engine α (Recorded α σ)} {rhs solutions : List (DenseVector α)}
    {result : Except Fault Outcome} (same : e'.scratches = e.scratches)
    (early : EndsEarly e.solveCount e' result) :
    WritesInTurn e rhs solutions ⟨result, solutions⟩ e' :=
  ⟨[], none, same.trans (List.append_nil _).symm, ⟨List.nil_prefix, by simp, rfl⟩,
    .inr ⟨rfl, rfl, early⟩⟩

/-- **A whole call** solves for its right-hand sides in turn, or ends before. -/
theorem multiSolve_writes (recorded : e.session.kernel = kernel.recorded) (named : e.solverId ≠ "")
    (m : MatrixView α) (rhs solutions : List (DenseVector α)) (demand : InertiaDemand) :
    WritesInTurn e rhs solutions (e.multiSolve m rhs solutions demand).1
      (e.multiSolve m rhs solutions demand).2 := by
  cases used : e.usageFault? m rhs solutions demand with
  | some cause =>
    rw [multiSolve_of_rejected used]
    exact writesInTurn_of_early rfl trivial
  | none =>
    have accepted := usageFault?_eq_none.1 used
    have prepared := ((stage_prepare (e := e.beginCall) named m demand).and
      (prepare_unasked (e := e.beginCall) recorded m demand e.solveCount)).and
      (prepare_unsuccessful m demand e.solveCount e.beginCall)
    refine multiSolve_of_prepare
      (fun e₁ => Leads e.solveCount (e.captured m) e₁ ∧ Unasked kernel e.beginCall e₁)
      (WritesInTurn e rhs solutions) used ?_ ?_
    · refine prepared.mono ?_ ?_
      · rintro (_ | outcome) e₁ ⟨⟨staged, unasked⟩, unsuccessful⟩
        · exact ⟨staged.1, unasked⟩
        · exact writesInTurn_of_early unasked.scratches
            ⟨fun success => unsuccessful (congrArg some success), unasked.unreported e.solveCount⟩
      · rintro fault e₁ ⟨⟨-, unasked⟩, -⟩
        exact writesInTurn_of_early unasked.scratches trivial
    · rintro e₁ ⟨leads, unasked⟩
      have steady := leads.during.steady
      have dim : e₁.dim = m.dim := steady.dim.trans (dim_captured accepted)
      obtain ⟨done, failed, added, wrote, ending⟩ := scratches_backsolve e.solveCount 0 rhs solutions
        e₁ unasked.recorded (steady.solverId ▸ solverId_captured m e ▸ named) accepted.paired
        (fun b hb => dim ▸ congrArg Nat.cast (accepted.rhsDims b hb))
        (fun x hx => dim ▸ congrArg Nat.cast (accepted.solutionDims x hx))
      exact ⟨done, failed, added.trans (unasked.scratches ▸ rfl), wrote, .inl ending⟩

end Scalar

end Engine

section Reached

variable {α σ : Type} [RealScalar α] [Printable α]

/-- **Solutions are written in turn**, and only for right-hand sides that the kernel has solved for.
Between the first solve and the end of a call there is no other fault than a breakdown of the
kernel. -/
theorem solutions_are_written_in_turn {k : Kernel α σ} {w : World α (Recorded α σ)}
    (reached : w.Reached k) (m : MatrixView α) (rhs solutions : List (DenseVector α))
    (demand : InertiaDemand) :
    let called := w.engine.multiSolve m rhs solutions demand
    ∃ done failed, called.2.scratches = w.engine.scratches ++ (done ++ failed.toList) ∧
      Engine.Wrote rhs solutions done failed called.1.solutions ∧
      (Engine.Ending w.engine.solveCount 0 rhs.length called.2 done failed called.1.result ∨
        done = [] ∧ failed = none ∧
          Engine.EndsEarly w.engine.solveCount called.2 called.1.result) :=
  Engine.multiSolve_writes reached.arises.regular.kernel reached.arises.regular.named m rhs
    solutions demand

end Reached

/-- A caller whose kernel is going to break down over the second right-hand side. -/
def brokenWorld : World ℚ (Recorded ℚ (Script ℚ)) :=
  (World.start (scriptedEngine ⟨[], [], [.scale 2 0, .fail .outOfRange]⟩) ⟨0⟩).run []

theorem solutions_are_written_in_turn_broken :
    let called := brokenWorld.engine.multiSolve ⟨1, [0], [0], [2], 1⟩ [⟨[4]⟩, ⟨[5]⟩, ⟨[6]⟩]
      [⟨[0]⟩, ⟨[1]⟩, ⟨[2]⟩] none
    called.1.solutions.map DenseVector.entries = [[8], [1], [2]] ∧
      ∃ s t, called.2.scratches = [s, t] ∧
        Engine.Wrote [⟨[4]⟩, ⟨[5]⟩, ⟨[6]⟩] [⟨[0]⟩, ⟨[1]⟩, ⟨[2]⟩] [s] (some t) called.1.solutions ∧
        Engine.Ending 0 0 3 called.2 [s] (some t) (.error (.kernel (.breakdown .outOfRange))) := by
  intro called
  obtain ⟨done, failed, added, wrote, ending⟩ := solutions_are_written_in_turn (w := brokenWorld)
    (reached_scripted _ _) ⟨1, [0], [0], [2], 1⟩ [⟨[4]⟩, ⟨[5]⟩, ⟨[6]⟩] [⟨[0]⟩, ⟨[1]⟩, ⟨[2]⟩] none
  have ended : called.1.result = .error (.kernel (.breakdown .outOfRange)) := by decide +kernel
  have asked : called.2.scratches.length = 2 := by decide +kernel
  have before : brokenWorld.engine.scratches = [] := rfl
  have added : called.2.scratches = done ++ failed.toList := added
  refine ⟨by decide +kernel, ?_⟩
  rw [show _ = _ from ended] at ending
  rcases ending with ending | ⟨rfl, rfl, -⟩
  · cases ending with
    | @broken t cause answer unrefused =>
      obtain ⟨s, rfl⟩ : ∃ s, done = [s] := by
        rw [added] at asked
        exact List.length_eq_one_iff.1 (by simpa using asked)
      exact ⟨s, t, added, wrote, .broken answer unrefused⟩
  · rw [added] at asked
    cases asked

end SymSolve
