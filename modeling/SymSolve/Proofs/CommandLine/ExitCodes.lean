import SymSolve.CommandLine.Answer
import SymSolve.Proofs.Engine.ExactSolutions
import SymSolve.Proofs.Engine.Outcomes
import SymSolve.Proofs.Matrices.LowerTriangle

/-!
# What exit codes mean

**Theorem (`exit_zero_solves_lower_triangle`).** Over exact arithmetic, a request to solve ends with
the exit code 1, or with 2 and an error in its report, or with 0 and a solution. What is solved then
is the system of the lower triangle of the matrix in the file. It is that of the matrix itself for
every symmetric one, and else only if the differences between the triangles happen to cancel; nothing
in the report tells which (`exit_zero_with_foreign_solution`).

A report on a system is taken apart into the call of a new engine and what is read off afterwards
(`solveSystem_eq_ok`, `reportOf_eq_ok`). The call solves what it was given, or reports an error
(`multiSolve_of_create`), and what it was given is what `symmetricPart_mirrors` says of the file.
-/

namespace SymSolve

open MatrixMarket

namespace CommandLine

/-! ## Reports -/

/-- Faults in files are errors of the catalog. -/
theorem InputFault.catalogued (fault : InputFault) : fault.code ∈ Catalog.canonical.codes ∧
    (Catalog.canonical.find? fault.code).map CatalogEntry.severity = some .error := by
  have code : fault.code = "E_CLI_OPTIONS_INVALID" ∨ fault.code = "E_CLI_MATRIX_LOAD_FAILED" := by
    cases fault <;> simp [InputFault.code]
  rcases code with code | code <;> rw [code] <;> decide +kernel

section Reports

variable {α : Type} [RealScalar α] [Printable α]

/-- A report of an error, without a solution. -/
def SolveReport.Fails {α : Type} (report : SolveReport α) : Prop :=
  report.outcome ≠ .success ∧ report.solution = none ∧
    ∃ event ∈ report.diagnostics, event.severity = .error

/-- What a report says of a call. -/
theorem reportOf_eq_ok {σ : Type} {s : LinearSystem α} {outcome : Outcome} {x : List α}
    {e : Engine α σ} {report : SolveReport α} (h : reportOf s outcome x e = .ok report) :
    report.outcome = outcome ∧ report.solution = (if outcome = .success then some x else none) ∧
      report.diagnostics = Event.sort e.diagnostics := by
  unfold reportOf at h
  cases outcome <;>
  · obtain ⟨negative, -, h⟩ := exists_of_bind_eq_ok h
    obtain ⟨residual, -, h⟩ := exists_of_bind_eq_ok h
    cases h
    exact ⟨rfl, rfl, rfl⟩

theorem mem_sort {events : List (Event α)} {event : Event α} :
    event ∈ Event.sort events ↔ event ∈ events :=
  List.mem_mergeSort

/-- What is told of a fault. -/
def faultRequest {α : Type} (fault : InputFault) : EventRequest α where
  code := .text fault.code
  message := .text fault.text
  solverId := .text solverId
  witness := .ofFields [("error_type", .text fault.kind)]

omit [Printable α] in
/-- A fault with a text can be told. -/
theorem build_faultRequest {fault : InputFault} (text : fault.text ≠ "") :
    ∃ event : Event α, Event.build (faultRequest fault) = .ok event ∧ event.code = fault.code ∧
      event.severity = .error := by
  obtain ⟨listed, grave⟩ := fault.catalogued
  obtain ⟨entry, found, code, known, advised⟩ := Catalog.find?_of_mem_codes listed
  have evidence : (Payload.ofFields [("error_type", .text fault.kind)] : Payload α).normalize =
      .ok (.object [("error_type", .text fault.kind)]) :=
    Payload.normalize_ofFields_sorted (by simp) rfl
  have named : CommandLine.solverId ≠ "" := by decide
  have built := Event.build_catalogued (r := ⟨fault.text, solverId, none, none, _⟩) found known
    advised text named id evidence
  rw [code] at built found
  rw [found] at grave
  exact ⟨_, built, code, Option.some.inj grave⟩

omit [Printable α] in
theorem severity_of_build {fault : InputFault} {event : Event α}
    (h : Event.build (faultRequest fault) = .ok event) : event.severity = .error := by
  by_cases silent : fault.text = ""
  · simp only [Event.build, faultRequest, Payload.isBlank, silent] at h
    split at h <;> cases h
  · obtain ⟨told, built, -, severity⟩ := build_faultRequest (α := α) silent
    cases h.symm.trans built
    exact severity

omit [Printable α] in
theorem fails_of_reportFault {fault : InputFault} {report : SolveReport α}
    (h : reportFault fault = .ok report) : report.Fails := by
  unfold reportFault at h
  dsimp only at h
  split at h
  · cases h
  · next event built =>
    cases h
    exact ⟨nofun, rfl, event, List.mem_singleton.2 rfl, severity_of_build built⟩

/-- What a report is made from: a fault in a file, or the system of the files. -/
theorem reportFor_eq_ok {r : SolveRequest} {files : Files} {report : SolveReport α}
    (h : Answer.reportFor r files = .ok report) :
    (∃ fault, reportFault fault = .ok report) ∨
      ∃ options M A b, readMarket (files r.matrix) = .ok M ∧ symmetricPart M = .ok A ∧
        loadRhs r.rhs A.dim files = .ok b ∧ solveSystem options ⟨A, b⟩ r.demand = .ok report := by
  unfold Answer.reportFor at h
  dsimp only at h
  split at h
  · next o system loaded =>
    obtain ⟨o', -, loaded⟩ := exists_of_bind_eq_ok loaded
    obtain ⟨system', found, loaded⟩ := exists_of_bind_eq_ok loaded
    cases loaded
    obtain ⟨A, matrix, found⟩ := exists_of_bind_eq_ok found
    obtain ⟨b, rhs, found⟩ := exists_of_bind_eq_ok found
    cases found
    obtain ⟨M, read, matrix⟩ := exists_of_bind_eq_ok matrix
    exact .inr ⟨o, M, A, b, eq_ok_of_mapError read, eq_ok_of_mapError matrix, rhs, h⟩
  · next fault loaded => exact .inl ⟨fault, h⟩
  · cases h

/-- What a report on a system is made from. -/
theorem solveSystem_eq_ok {options : Options α} {s : LinearSystem α} {demand : InertiaDemand}
    {report : SolveReport α} (h : solveSystem options s demand = .ok report) :
    let zero : DenseVector α := ⟨List.replicate s.matrix.dim 0⟩
    ∃ e, Engine.create .machine options Reference.kernel () solverId true = .ok e ∧
      let called := e.multiSolve s.matrix.view [⟨s.rhs⟩] [zero] demand
      ∃ outcome, called.1.result = .ok outcome ∧
        reportOf s outcome (called.1.solutions.headD zero).entries called.2 = .ok report := by
  unfold solveSystem at h
  obtain ⟨e, created, h⟩ := exists_of_bind_eq_ok h
  obtain ⟨outcome, ended, h⟩ := exists_of_bind_eq_ok h
  exact ⟨e, eq_ok_of_mapError created, outcome, eq_ok_of_mapError ended, h⟩

end Reports

/-! ## Solving the system of the files -/

section Exact

variable {K : Type} [Field K] [LinearOrder K] [IsStrictOrderedRing K] [FloorRing K]
variable [Powers K] [Printable K]

/-- **A new engine solves** the system of triplets that a caller made, or it reports an error. -/
theorem multiSolve_of_create {options : Options K} {solverId : String} {e : Engine K Unit}
    (created : Engine.create .machine options Reference.kernel () solverId true = .ok e)
    {S : Sparse K} {A : SymTriplets K} {tags : TagSource}
    (made : (SymTriplets.ofSparse S).exec ⟨0⟩ = (.ok A, tags)) {rhs solutions : List (DenseVector K)}
    {demand : InertiaDemand} {outcome : Outcome}
    (ended : (e.multiSolve A.view rhs solutions demand).1.result = .ok outcome) :
    if outcome = .success then
      List.Forall₂ (fun b x => A.toDense.Solves b.entries x.entries) rhs
        (e.multiSolve A.view rhs solutions demand).1.solutions
    else ∃ event ∈ (e.multiSolve A.view rhs solutions demand).2.diagnostics,
      event.severity = .error := by
  have begun : (World.start e ⟨0⟩).InOrder referenceSpec :=
    World.inOrder_start created ⟨0⟩ (World.new_of_create created).1
  split
  · next success =>
    subst success
    let w : World K Unit := (World.start e ⟨0⟩).step (.ofSparse S)
    have engine : w.engine = e := World.engine_adopt ..
    have held : A ∈ w.matrices := by
      show A ∈ ((World.start e ⟨0⟩).adopt (SymTriplets.ofSparse S)).matrices
      unfold World.adopt
      rw [show (World.start e ⟨0⟩).tags = ⟨0⟩ from rfl, made]
      exact List.mem_append_right _ (List.mem_singleton.2 rfl)
    have ordered : w.InOrder referenceSpec := begun.step referenceSpec_met _
    rw [← engine] at ended ⊢
    exact (ordered.solves_of_success held (.inl (engine ▸ (World.new_of_create created).2)) ended).1
  · next failed =>
    have accounts := Engine.accounts_of_ok (e := e) begun.solver ended
    exact accounts.exists_error failed

/-- A report on a system of triplets that a caller made: either it fails, or it has a solution. -/
theorem solves_or_fails {options : Options K} {S : Sparse K} {A : SymTriplets K}
    {tags : TagSource} (made : (SymTriplets.ofSparse S).exec ⟨0⟩ = (.ok A, tags)) {b : List K}
    {demand : InertiaDemand} {report : SolveReport K}
    (reported : solveSystem options ⟨A, b⟩ demand = .ok report) :
    report.Fails ∨ report.outcome = .success ∧ ∃ x, report.solution = some x ∧
      A.toDense.Solves b x := by
  obtain ⟨e, created, outcome, ended, reported⟩ := solveSystem_eq_ok reported
  have came := multiSolve_of_create created made ended
  obtain ⟨same, solution, diagnostics⟩ := reportOf_eq_ok reported
  by_cases success : outcome = .success
  · rw [if_pos success] at came solution
    obtain ⟨x, _, solves, -, found⟩ := List.forall₂_cons_left_iff.1 came
    refine .inr ⟨same.trans success, x.entries, ?_, solves⟩
    rw [solution, found]
    rfl
  · rw [if_neg success] at came solution
    obtain ⟨event, listed, grave⟩ := came
    exact .inl ⟨same ▸ success, solution, event, diagnostics ▸ mem_sort.2 listed, grave⟩

/-! ## Exit codes -/

/-- A vector `x` is reported that solves the system of the lower triangle of the matrix `M` in the
file, with the right-hand side `b`. -/
structure SolvesLower (files : Files) (r : SolveRequest) (answer : Answer K) (M : Content K)
    (b x : List K) : Prop where
  read : readMarket (files r.matrix) = .ok M
  rhs : loadRhs r.rhs M.height files = .ok b
  reported : ∃ report, answer = .solved r report ∧ report.solution = some x
  loaded : ∃ A, symmetricPart M = .ok A ∧ Mirrors M A ∧ A.toDense.Solves b x
  /-- The system of the matrix itself is solved exactly if the differences between the triangles
  cancel. -/
  own_iff : SolvesSystem M b x ↔ ∀ i < M.height, excess M x i = 0
  own_of_symmetric : M.IsSymmetric → SolvesSystem M b x

/-- What a report is, in terms of the files. -/
theorem reportFor_solves {r : SolveRequest} {files : Files} {report : SolveReport K}
    (reported : Answer.reportFor r files = .ok report) :
    report.Fails ∨ report.outcome = .success ∧
      ∃ M b x, SolvesLower files r (.solved r report) M b x := by
  rcases reportFor_eq_ok reported with ⟨fault, faulty⟩ | ⟨o, M, A, b, read, part, rhs, solved⟩
  · exact .inl (fails_of_reportFault faulty)
  have parts := symmetricPart_mirrors M
  by_cases square : M.width = M.height
  · obtain ⟨A', made, mirrors⟩ := exec_toSparse square ⟨0⟩
    obtain rfl : A = A' := Except.ok.inj (part.symm.trans (congrArg Prod.fst made))
    refine (solves_or_fails made solved).imp_right ?_
    rintro ⟨success, x, found, solves⟩
    have own_iff := mirrors.solves_iff solves
    exact ⟨success, M, b, x, read, mirrors.dim ▸ rhs, ⟨report, rfl, found⟩, ⟨A, part, mirrors, solves⟩,
      own_iff, fun symmetric => own_iff.2 fun i hi => excess_of_symmetric symmetric x hi⟩
  · rw [if_neg square, part] at parts
    cases parts

/-- **Exit codes.** With 0 a solution is reported, of the lower triangle of what the file holds; only
for a symmetric matrix is this what the file holds. -/
theorem exit_zero_solves_lower_triangle {args : List String} {r : SolveRequest}
    (asked : Request.ofArgs args = .ok (.solve r)) (files : Files) :
    let answer : Answer K := .ofArgs args files
    (answer.exitCode = 1 ∨
      answer.exitCode = 2 ∧ (∃ report, answer = .solved r report ∧ report.Fails) ∨
      answer.exitCode = 0 ∧ ∃ M b x, SolvesLower files r answer M b x) ∧
    ∀ M : Content K,
      if M.width = M.height then
        ∃ A, symmetricPart M = .ok A ∧ Mirrors M A ∧
          ((∀ i < M.height, ∀ j < M.height, A.full.value i j = M.entry i j) ↔ M.IsSymmetric)
      else symmetricPart M = .error .notSquare := by
  intro answer
  constructor
  · cases reported : (Answer.reportFor r files : Except Abort (SolveReport K)) with
    | error cause =>
      have asks : answer = .aborted cause := by
        simp only [answer, Answer.ofArgs, asked, Answer.ofRequest, reported]
      exact .inl (asks ▸ rfl)
    | ok report =>
      have asks : answer = .solved r report := by
        simp only [answer, Answer.ofArgs, asked, Answer.ofRequest, reported]
      rw [asks]
      rcases reportFor_solves reported with fails | ⟨success, solves⟩
      · cases outcome : report.outcome with
        | success => exact absurd outcome fails.1
        | wrongInertia => exact .inl (congrArg Outcome.exitCode outcome)
        | _ => exact .inr (.inl ⟨congrArg Outcome.exitCode outcome, report, rfl, fails⟩)
      · exact .inr (.inr ⟨congrArg Outcome.exitCode success, solves⟩)
  · intro M
    have parts := symmetricPart_mirrors M
    split
    · next square =>
      rw [if_pos square] at parts
      obtain ⟨A, part, mirrors⟩ := parts
      exact ⟨A, part, mirrors, mirrors.own_iff⟩
    · next oblong =>
      rw [if_neg oblong] at parts
      exact parts

end Exact

/-! ## Two files -/

/-- A file with that text at every path. -/
def textAt (text : String) : Files := fun _ => .content text.toUTF8

/-- A symmetric matrix. -/
def mirroredText : String :=
  "%%MatrixMarket matrix coordinate real symmetric\n2 2 3\n1 1 2\n2 1 1\n2 2 2\n"

/-- A matrix with the entry 1 above the diagonal only. -/
def upperText : String :=
  "%%MatrixMarket matrix coordinate real general\n2 2 3\n1 1 2\n1 2 1\n2 2 2\n"

/-- A request without options. -/
def plainRequest : SolveRequest := ⟨"a.mtx", none, none, none, .text⟩

theorem asked_plain : Request.ofArgs ["solve", "a.mtx"] = .ok (.solve plainRequest) := by
  decide +kernel

/-- The answer to that request for a file with that text. -/
def answerFor (text : String) : Answer ℚ := .ofArgs ["solve", "a.mtx"] (textAt text)

/-- The vector in an answer. -/
def Answer.solution? {α : Type} : Answer α → Option (List α)
  | solved _ report => report.solution
  | _ => none

/-- Sorts up to two values without recursion. -/
def sortFew {β : Type} (le : β → β → Bool) : List β → List β
  | [] => []
  | [a] => [a]
  | [a, b] => if le a b then [a, b] else [b, a]
  | l => l.mergeSort le

theorem mergeSort_eq_sortFew : @List.mergeSort.{0} = fun _ l le => sortFew le l := by
  funext β l le
  match l with
  | [] => simp [sortFew]
  | [a] => simp [sortFew]
  | [a, b] => by_cases h : le a b <;> simp [sortFew, List.mergeSort, h]
  | a :: b :: c :: l => rfl

/-- What comes of the two files. -/
theorem answers_mirrored_upper : (answerFor mirroredText).exitCode = 0 ∧
    (answerFor upperText).exitCode = 0 ∧
    (answerFor upperText).solution? = some [1 / 2, 1 / 2] := by
  unfold answerFor Answer.ofArgs Answer.ofRequest Answer.reportFor solveSystem Reference.kernel
    Reference.analyse Graph.narrowOrder Graph.breadthFirst Graph.round Graph.withSeed Graph.byDegree
  -- The recursion of the sort is not one that evaluates.
  rw [mergeSort_eq_sortFew]
  decide +kernel

/-- The size of a matrix, and its entries if it has two rows and two columns. -/
def corner (M : Content ℚ) : Nat × Nat × ℚ × ℚ × ℚ × ℚ :=
  (M.height, M.width, M.entry 0 0, M.entry 0 1, M.entry 1 0, M.entry 1 1)

theorem corner_mirrored {M : Content ℚ}
    (read : readMarket (textAt mirroredText "a.mtx") = .ok M) : corner M = (2, 2, 2, 1, 1, 2) := by
  have known : (readMarket (textAt mirroredText "a.mtx")).map corner = .ok (2, 2, 2, 1, 1, 2) := by
    decide +kernel
  rw [read] at known
  exact Except.ok.inj known

theorem corner_upper :
    (readMarket (textAt upperText "a.mtx")).map corner = .ok (2, 2, 2, 1, 0, 2) := by
  decide +kernel

theorem exit_zero_solves_lower_triangle_mirrored :
    Request.ofArgs ["solve", "a.mtx"] = .ok (.solve plainRequest) ∧
      (answerFor mirroredText).exitCode = 0 ∧
      ∃ M b x, SolvesLower (textAt mirroredText) plainRequest (answerFor mirroredText) M b x ∧
        corner M = (2, 2, 2, 1, 1, 2) ∧ SolvesSystem M b x := by
  obtain ⟨exit, -, -⟩ := answers_mirrored_upper
  refine ⟨asked_plain, exit, ?_⟩
  rcases (exit_zero_solves_lower_triangle (K := ℚ) asked_plain (textAt mirroredText)).1 with
    one | ⟨two, -⟩ | ⟨-, M, b, x, solves⟩
  · exact absurd (exit.symm.trans one) (by decide)
  · exact absurd (exit.symm.trans two) (by decide)
  · have shape := corner_mirrored solves.read
    refine ⟨M, b, x, solves, shape, solves.own_of_symmetric ?_⟩
    simp only [corner, Prod.mk.injEq] at shape
    obtain ⟨height, width, -, upper, lower, -⟩ := shape
    refine ⟨width.trans height.symm, fun i hi j hj => ?_⟩
    rw [height] at hi hj
    interval_cases i <;> interval_cases j <;> simp [upper, lower]

/-- **A file whose system is not solved**, with exit code 0. -/
theorem exit_zero_with_foreign_solution :
    (answerFor upperText).exitCode = 0 ∧ ∃ M x,
      readMarket (textAt upperText "a.mtx") = .ok M ∧ M.width = M.height ∧
      loadRhs (α := ℚ) none M.height (textAt upperText) = .ok [1, 1] ∧
      (answerFor upperText).solution? = some x ∧ ¬ SolvesSystem M [1, 1] x := by
  obtain ⟨-, exit, solution⟩ := answers_mirrored_upper
  have known := corner_upper
  cases read : (readMarket (textAt upperText "a.mtx") : Except ReadFault (Content ℚ)) with
  | error cause =>
    rw [read] at known
    cases known
  | ok M =>
    rw [read] at known
    have shape : corner M = (2, 2, 2, 1, 0, 2) := Except.ok.inj known
    simp only [corner, Prod.mk.injEq] at shape
    obtain ⟨height, width, first, upper, -, -⟩ := shape
    refine ⟨exit, M, _, rfl, width.trans height.symm, ?_, solution, fun own => ?_⟩
    · rw [height]
      rfl
    · have row := own.rows 0 (height ▸ Nat.two_pos)
      rw [width, Finset.sum_range_succ, Finset.sum_range_one, first, upper] at row
      norm_num at row

end CommandLine

end SymSolve
