import SymSolve.Proofs.Engine.Consistency
import SymSolve.Proofs.Engine.Relief

/-!
# Two engines that differ in lengths

Two engines over a kernel with fixed needs may have different factors for lengths and another
threshold for compressions: then their workspaces have other lengths, grow at other times, and are
found too short in other calls. `Twin` says that they have the same core all the same.

A step of both concurs (`Concur`) if it ends in the same way and leaves twins, unless one of the two
is refused a length. There is one rule for each way of putting steps together.

A factorization is the one step that is not taken in lockstep: each engine attempts it as often as
its workspaces are too short. It concurs because what comes of it is told by the core
(`Stands.after_factorize`).

**Theorem (`concur_multiSolve`).** A call gives the same answer and leaves twins.
-/

namespace SymSolve

namespace Engine

section Scalar

variable {α σ β γ : Type} [Scalar α] {k : Kernel α σ}
variable {needs : k.FixedNeeds} {memory : Memory} {o o' : Options α} {c : Core α needs.Factors}
variable {m : MatrixView α} {e e' n n' : Engine α σ}

/-! ## Steps that need no workspace -/

theorem stands_create (needs : k.FixedNeeds) {solverId : String} {providesInertia : Bool} {state : σ}
    (created : create memory o k state solverId providesInertia = .ok e) :
    Stands needs memory o (e.core needs) e := by
  unfold create at created
  split at created
  · cases created
  · next named =>
    cases created
    exact ⟨rfl, rfl, rfl, rfl, ⟨named, Int.le_refl 0, rfl⟩, False.elim⟩

theorem Stands.captureIfNew (h : Stands needs memory o c e) (m : MatrixView α) :
    Stands needs memory o (c.captured m) (captureIfNew m e) := by
  have proper := h.proper.captured m
  by_cases new : e.phase = .uninitialized
  · rw [captureIfNew_of_eq new]
    rw [Core.captured, if_pos (h.phase ▸ new)] at proper ⊢
    obtain rfl := h.core
    exact ⟨h.kernel, h.memory, h.options, rfl, proper, False.elim⟩
  · rw [captureIfNew_of_ne new, Core.captured, if_neg (h.phase ▸ new)]
    exact h

/-- Factors may go out of date. -/
theorem Stands.stale (h : Stands needs memory o c e) (matrixTag : Nat) (tolerance : α)
    (session : Session α σ) (kernel : session.kernel = e.session.kernel) :
    Stands needs memory o
      { c with
        matrixTag, tolerance, pivot := session.tolerance, phase := c.phase.stale, factors := none }
      { e with matrixTag, tolerance, session, phase := e.phase.stale } := by
  obtain rfl := h.core
  refine ⟨kernel.trans h.kernel, h.memory, h.options, ?_, ⟨h.named, h.proper.dim, h.proper.rows⟩,
    fun analysed => h.room (Phase.analysed_stale.1 analysed)⟩
  simp only [Engine.core, Phase.stale_ne_factorized, if_false]

theorem Stands.noteValues (h : Stands needs memory o c e) (m : MatrixView α) :
    Stands needs memory o (c.noted m) (noteValues m e) := by
  have stale := h.stale m.tag e.tolerance e.session rfl
  obtain rfl := h.core
  unfold Core.noted Engine.noteValues
  by_cases changed : m.hasChanged e.matrixTag
  · rw [if_pos changed, if_pos (by exact changed)]
    exact stale
  · rw [if_neg changed, if_neg (by exact changed)]
    exact h

theorem Stands.raised (h : Stands needs memory o c e) (tolerance : α) :
    Stands needs memory o (c.raised tolerance) { e with
      tolerance, session := e.session.withTolerance tolerance, phase := e.phase.stale } := by
  have pivot : (e.session.withTolerance tolerance).tolerance = tolerance :=
    Vector.getElem_set_self ..
  have stale := h.stale e.matrixTag tolerance (e.session.withTolerance tolerance) rfl
  rw [pivot] at stale
  obtain rfl := h.core
  exact stale

theorem Stands.resetStructure (h : Stands needs memory o c e) :
    Stands needs memory o c.blank e.resetStructure := by
  obtain rfl := h.core
  exact ⟨h.kernel, h.memory, h.options, rfl, ⟨h.named, Int.le_refl 0, rfl⟩, False.elim⟩

theorem Stands.factors (h : Stands needs memory o c e) (late : c.phase = .factorized) :
    c.factors = some (e.factorWords needs) := by
  obtain rfl := h.core
  exact if_pos late

theorem Stands.afterBacksolve (h : Stands needs memory o c e) (late : c.phase = .factorized)
    (rhs : DenseVector α) :
    Stands needs memory o { c with factors := some ((e.afterBacksolve rhs).factorWords needs) }
      (e.afterBacksolve rhs) := by
  obtain rfl := h.core
  have same : (e.afterBacksolve rhs).workspace.reals.length = e.workspace.reals.length :=
    Session.size_backsolve_a ..
  refine ⟨(Session.kernel_backsolve ..).trans h.kernel, h.memory, h.options, ?_,
    ⟨h.named, h.proper.dim, h.proper.rows⟩, fun analysed => same ▸ h.room analysed⟩
  have controls : (e.afterBacksolve rhs).session.tolerance = e.session.tolerance :=
    congrArg Controls.tolerance (Session.controls_backsolve ..)
  have late : (e.afterBacksolve rhs).phase = .factorized := late
  simp only [Engine.core, controls]
  rw [if_pos late]
  rfl

/-! ## Two engines -/

/-- Engines with the same core, each with its own options. -/
def Twin (needs : k.FixedNeeds) (memory : Memory) (o o' : Options α) (e n : Engine α σ) : Prop :=
  ∃ c, Stands needs memory o c e ∧ Stands needs memory o' c n

theorem Twin.core (h : Twin needs memory o o' e n) : e.core needs = n.core needs := by
  obtain ⟨c, left, right⟩ := h
  exact left.core.trans right.core.symm

theorem Twin.phase (h : Twin needs memory o o' e n) : e.phase = n.phase :=
  congrArg Core.phase h.core

theorem Twin.negative (h : Twin needs memory o o' e n) : e.negative = n.negative :=
  congrArg Core.negative h.core

theorem Twin.named (h : Twin needs memory o o' e n) : e.solverId ≠ "" := by
  obtain ⟨c, left, -⟩ := h
  exact left.named

/-- The results `r` and `r'` of two steps tell no difference and `same` holds, unless one of the two
steps was refused a length. -/
def Concurs (memory : Memory) (o o' : Options α) (r r' : Except Fault β) (same : Prop) : Prop :=
  Refused memory o r ∨ Refused memory o' r' ∨ (∀ cause, r ≠ .error (.length cause)) ∧ same

variable {r r' : Except Fault β} {same same' : Prop}

/-- Neither step was refused a length. -/
theorem Concurs.of_same (afforded : ∀ cause, r ≠ .error (.length cause)) (h : same) :
    Concurs memory o o' r r' same := .inr (.inr ⟨afforded, h⟩)

theorem Concurs.of_ok {b : β} (h : same) : Concurs memory o o' (.ok b) r' same :=
  .of_same (fun _ told => by cases told) h

/-- A fault that is not a refused length ends what comes after as well. -/
theorem Concurs.of_fault {fault : Fault}
    (afforded : ∀ cause, (.error fault : Except Fault γ) ≠ .error (.length cause)) (h : same) :
    Concurs memory o o' (.error fault) r' same :=
  .of_same (fun cause told => afforded cause (congrArg _ (Except.error.inj told))) h

theorem Concurs.mono (h : Concurs memory o o' r r' same) (more : same → same') :
    Concurs memory o o' r r' same' :=
  h.imp_right fun h => h.imp_right fun h => ⟨h.1, more h.2⟩

/-- Where nothing is refused, the results are the same. -/
theorem Concurs.of_afforded (h : Concurs memory o o' r r' same)
    (afforded : ∀ cause, r ≠ .error (.length cause))
    (afforded' : ∀ cause, r' ≠ .error (.length cause)) : same := by
  rcases h with ⟨_, rfl, ⟨cause, rfl⟩, -⟩ | ⟨_, rfl, ⟨cause, rfl⟩, -⟩ | ⟨-, same⟩
  · exact absurd rfl (afforded cause)
  · exact absurd rfl (afforded' cause)
  · exact same

theorem Concurs.of_boundless (h : Concurs memory o o' r r' same) (free : Boundless memory o)
    (free' : Boundless memory o') : ∀ cause, r ≠ .error (.length cause) := by
  rcases h with ⟨fault, -, refused⟩ | ⟨fault, -, refused⟩ | ⟨afforded, -⟩
  · exact absurd refused (free.not_refuses fault)
  · exact absurd refused (free'.not_refuses fault)
  · exact afforded

/-- One step at the engine `e` and one at the engine `n` concur: they end in the same way and leave
twins. -/
def Concur (needs : k.FixedNeeds) (memory : Memory) (o o' : Options α) (step : EngineM α σ β)
    (e : Engine α σ) (step' : EngineM α σ β) (n : Engine α σ) : Prop :=
  Concurs memory o o' (exec step e).1 (exec step' n).1
    ((exec step e).1 = (exec step' n).1 ∧ Twin needs memory o o' (exec step e).2 (exec step' n).2)

variable {step step' : EngineM α σ β} {next next' : β → EngineM α σ γ}

/-! ### Steps put together -/

theorem Concur.bind {post : β → Engine α σ → Prop} (h : Concur needs memory o o' step e step' n)
    (post_e : Ends step e post fun _ _ => True)
    (hn : ∀ b e' n', post b e' → Twin needs memory o o' e' n' →
      Concur needs memory o o' (next b) e' (next' b) n') :
    Concur needs memory o o' (step >>= next) e (step' >>= next') n := by
  unfold Concur at h ⊢
  rw [exec_bind, exec_bind]
  unfold Ends at post_e
  generalize exec step e = left at *
  generalize exec step' n = right at *
  obtain ⟨r, e'⟩ := left
  obtain ⟨r', n'⟩ := right
  rcases h with ⟨fault, rfl, refused⟩ | ⟨fault, rfl, refused⟩ | ⟨afforded, rfl, twin⟩
  · exact .inl ⟨fault, rfl, refused⟩
  · exact .inr (.inl ⟨fault, rfl, refused⟩)
  · cases r with
    | error fault =>
      exact .of_fault afforded ⟨rfl, twin⟩
    | ok b => exact hn b e' n' post_e twin

/-- A step whose faults are of other kinds is refused no length. -/
theorem Ends.affords {post : β → Engine α σ → Prop}
    (h : Ends step e post fun fault _ => ∀ cause, fault ≠ .length cause) :
    ∀ cause, (exec step e).1 ≠ .error (.length cause) := by
  intro cause told
  unfold Ends at h
  rcases run : exec step e with ⟨fault | b, e'⟩
  · rw [run] at h told
    exact h cause (Except.error.inj told)
  · rw [run] at told
    cases told

/-- Two steps in a row, where nothing is needed of the engines between them but that they are
twins. -/
theorem Concur.bind_twins (h : Concur needs memory o o' step e step' n)
    (hn : ∀ b e' n', Twin needs memory o o' e' n' →
      Concur needs memory o o' (next b) e' (next' b) n') :
    Concur needs memory o o' (step >>= next) e (step' >>= next') n :=
  h.bind (ends_trivial step e) fun b e' n' _ => hn b e' n'

theorem concur_pure (h : Twin needs memory o o' e n) (b : β) :
    Concur needs memory o o' (pure b) e (pure b) n := .of_ok ⟨rfl, h⟩

theorem concur_get {next next' : Engine α σ → EngineM α σ γ}
    (h : Concur needs memory o o' (next e) e (next' n) n) :
    Concur needs memory o o' (get >>= next) e (get >>= next') n := by
  unfold Concur at *
  rwa [exec_bind, exec_get, exec_bind, exec_get]

theorem concur_orFault {ε : Type} (fault : ε → Fault)
    (other : ∀ cause cause', fault cause ≠ .length cause') (r : Except ε β)
    (h : Twin needs memory o o' e n) :
    Concur needs memory o o' (orFault fault r) e (orFault fault r) n := by
  unfold Concur
  rw [exec_orFault, exec_orFault]
  refine .of_same (fun cause' told => ?_) ⟨rfl, h⟩
  cases r with
  | ok b => cases told
  | error cause => exact other cause cause' (Except.error.inj told)

theorem concur_modify {f g : Engine α σ → Engine α σ} {next next' : PUnit → EngineM α σ γ}
    (h : Concur needs memory o o' (next ⟨⟩) (f e) (next' ⟨⟩) (g n)) :
    Concur needs memory o o' (modify f >>= next) e (modify g >>= next') n := h

theorem concur_set {next next' : PUnit → EngineM α σ γ}
    (h : Concur needs memory o o' (next ⟨⟩) e' (next' ⟨⟩) n') :
    Concur needs memory o o' (set e' >>= next) e (set n' >>= next') n := h

theorem concur_ite {p : Prop} [Decidable p] {other other' : EngineM α σ β}
    (h : p → Concur needs memory o o' step e step' n)
    (h' : ¬ p → Concur needs memory o o' other e other' n) :
    Concur needs memory o o' (if p then step else other) e (if p then step' else other') n := by
  split
  · next yes => exact h yes
  · next no => exact h' no

/-- A step that is one of two, and another one after it. -/
theorem concur_ite_bind {p : Prop} [Decidable p] {other other' : EngineM α σ β}
    {post : β → Engine α σ → Prop} (h : p → Concur needs memory o o' step e step' n)
    (h' : ¬ p → Concur needs memory o o' other e other' n)
    (post_e : Ends (if p then step else other) e post fun _ _ => True)
    (hn : ∀ b e' n', post b e' → Twin needs memory o o' e' n' →
      Concur needs memory o o' (next b) e' (next' b) n') :
    Concur needs memory o o' (if p then step >>= next else other >>= next) e
      (if p then step' >>= next' else other' >>= next') n :=
  concur_ite (fun yes => (h yes).bind (by rwa [if_pos yes] at post_e) hn)
    fun no => (h' no).bind (by rwa [if_neg no] at post_e) hn

/-! ### Reports -/

theorem concur_emit {code message message' : String} {i i' : Nat} {attemptIndex : Option Nat}
    {fields fields' : List (String × Payload α)} (severity : Severity)
    (graded : (Catalog.canonical.find? code).map CatalogEntry.severity = some severity)
    (text : message ≠ "") (text' : message' ≠ "")
    (plain : ∀ field ∈ fields, ∃ v, field.2.normalize = .ok v)
    (plain' : ∀ field ∈ fields', ∃ v, field.2.normalize = .ok v)
    (h : Twin needs memory o o' e n) :
    Concur needs memory o o' (emit code message (some i) attemptIndex fields) e
      (emit code message' (some i') attemptIndex fields') n := by
  obtain ⟨c, left, right⟩ := h
  obtain ⟨_, e', run, left'⟩ := (left.after_emit severity graded text plain).exists_ok
  obtain ⟨_, n', run', right'⟩ := (right.after_emit severity graded text' plain').exists_ok
  unfold Concur
  rw [run, run']
  exact .of_ok ⟨rfl, c, left', right'⟩

theorem stands_after_emit (h : Stands needs memory o c e) (code message : String)
    (solveIndex attemptIndex : Option Nat) (fields : List (String × Payload α)) :
    Stands needs memory o c (exec (emit code message solveIndex attemptIndex fields) e).2 := by
  refine ((ends_emit code message solveIndex attemptIndex fields e).mono ?_ ?_).always
  · rintro - _ ⟨diagnostics, rfl⟩
    exact h.note ..
  · rintro - _ rfl
    exact h

/-- A report needs no length. -/
theorem ends_emit_affords (code message : String) (solveIndex attemptIndex : Option Nat)
    (fields : List (String × Payload α)) (e : Engine α σ) :
    Ends (emit code message solveIndex attemptIndex fields) e (fun _ _ => True)
      fun fault _ => ∀ cause, fault ≠ .length cause := by
  unfold emit
  rw [ends_get]
  dsimp only
  split
  · exact nofun
  · trivial

/-- A report that belongs to no call is made or refused by both. -/
theorem concur_emit_aside (code message : String) (fields : List (String × Payload α))
    (h : Twin needs memory o o' e n) :
    Concur needs memory o o' (emit code message none none fields) e
      (emit code message none none fields) n := by
  have named : e.solverId = n.solverId := congrArg Core.solverId h.core
  obtain ⟨c, left, right⟩ := h
  have same : (exec (emit code message none none fields) e).1 =
      (exec (emit code message none none fields) n).1 := by
    unfold emit
    rw [exec_bind, exec_get, exec_bind, exec_get]
    dsimp only
    rw [named]
    split <;> rfl
  exact .of_same (ends_emit_affords code message none none fields e).affords
    ⟨same, c, stands_after_emit left .., stands_after_emit right ..⟩

/-! ### Analysis and factorization -/

theorem ne_length_of_kernel {ε : Except KernelFault β} :
    ∀ cause, ε.mapError Fault.kernel ≠ .error (.length cause) := by
  cases ε <;> nofun

/-- The analysis is told by the structure. -/
theorem concur_analyse (h : Twin needs memory o o' e n) (fresh : e.phase = .structureKnown)
    (i i' : Nat) : Concur needs memory o o' (analyse i) e (analyse i') n := by
  obtain ⟨c, left, right⟩ := h
  have fresh : c.phase = .structureKnown := left.phase ▸ fresh
  rcases ends_iff.1 (left.after_analyse fresh i) with refused | ⟨s, iw, kernel, told, after⟩
  · exact .inl refused
  rcases ends_iff.1 (right.after_analyse fresh i') with refused | ⟨s', iw', kernel', told', after'⟩
  · exact .inr (.inl refused)
  obtain ⟨result, keep⟩ := needs.analysis c.pattern iw iw' kernel kernel' rfl
  rw [result, keep] at after
  rw [result] at told
  exact .of_same (told ▸ ne_length_of_kernel) ⟨told.trans told'.symm, _, after, after'⟩

theorem front_overwriteFront (h : Stands needs memory o c e)
    (count : m.values.length = c.nonzeros) :
    (overwriteFront m.values.toArray e.workspace.reals.words).toList.take c.pattern.rows.length =
      m.values := by
  rw [h.proper.rows, ← count]
  exact (List.prefix_iff_eq_take.1 (prefix_overwriteFront m.values.toArray _)).symm

/-- With enough words, the kernel does the same for both engines. -/
theorem factorization_twins (left : Stands needs memory o c e) (right : Stands needs memory o' c n)
    (count : m.values.length = c.nonzeros) (waiting : c.phase.Waiting)
    (enough : e.lacking? needs = none) (enough' : n.lacking? needs = none) :
    let f := e.factorization m
    let f' := n.factorization m
    f.result.map FactorizationResult.uncounted = f'.result.map FactorizationResult.uncounted ∧
      f.keep = f'.keep ∧
      needs.factors c.pattern.dim f.a f.iw = needs.factors c.pattern.dim f'.a f'.iw := by
  have pivots : e.session.tolerance = n.session.tolerance :=
    congrArg Core.pivot (left.core.trans right.core.symm)
  have front := (front_overwriteFront left count).trans (front_overwriteFront right count).symm
  rw [lacking?, left.pattern, ← size_overwriteFront (left.fits waiting count)] at enough
  rw [lacking?, right.pattern, ← size_overwriteFront (right.fits waiting count)] at enough'
  have same := needs.factorization c.keep left.kernel right.kernel pivots enough enough' front
  simp only [factorization, left.pattern, left.keep, right.pattern, right.keep]
  exact same

/-- The factorization is told by the core. -/
theorem concur_factorize (h : Twin needs memory o o' e n) (waiting : e.phase.Waiting)
    (count : m.values.length = e.nonzeros) (i i' : Nat) :
    Concur needs memory o o' (factorize m i) e (factorize m i') n := by
  obtain ⟨c, left, right⟩ := h
  have waiting : c.phase.Waiting := left.phase ▸ waiting
  have count : m.values.length = c.nonzeros := count.trans left.nonzeros
  rcases ends_iff.1 (left.after_factorize waiting count i) with
    refused | ⟨e₁, at_e, enough, told, after⟩
  · exact .inl refused
  rcases ends_iff.1 (right.after_factorize waiting count i') with
    refused | ⟨n₁, at_n, enough', told', after'⟩
  · exact .inr (.inl refused)
  obtain ⟨result, keep, factors⟩ := factorization_twins at_e at_n count waiting enough enough'
  have outcomes := congrArg (Except.map FactorizationResult.outcome?) result
  rw [FactorizationResult.outcomes_uncounted, FactorizationResult.outcomes_uncounted] at outcomes
  rw [outcomes] at told
  rw [← Core.judged_uncounted, keep, factors, result, Core.judged_uncounted] at after
  exact .of_same (told ▸ ne_length_of_kernel) ⟨told.trans told'.symm, _, after, after'⟩

/-! ### Preparing -/

theorem Twin.captureIfNew (h : Twin needs memory o o' e n) (m : MatrixView α) :
    Twin needs memory o o' (captureIfNew m e) (captureIfNew m n) := by
  obtain ⟨c, left, right⟩ := h
  exact ⟨_, left.captureIfNew m, right.captureIfNew m⟩

theorem Twin.noteValues (h : Twin needs memory o o' e n) (m : MatrixView α) :
    Twin needs memory o o' (noteValues m e) (noteValues m n) := by
  obtain ⟨c, left, right⟩ := h
  exact ⟨_, left.noteValues m, right.noteValues m⟩

theorem concur_demand (h : Twin needs memory o o' e n) (demand : InertiaDemand) (i i' : Nat) :
    Concur needs memory o o' (checkInertia demand i) e (checkInertia demand i') n := by
  refine concur_get ?_
  cases demand with
  | none => exact concur_pure h _
  | some expected =>
    dsimp only
    rw [h.negative]
    refine concur_ite (fun _ => concur_pure h _) fun _ => ?_
    refine Concur.bind_twins ?_ fun _ _ _ h => concur_pure h _
    unfold emitWrongInertia
    refine concur_emit .error (by decide +kernel) (by simp [toString]) (by simp [toString]) ?_ ?_ h
    all_goals cases n.negative <;> simp [Payload.normalize]

theorem concur_prepare (h : Twin needs memory o o' e n) (counted : m.values.length = m.nonzeros)
    (same : e.phase ≠ .uninitialized → m.nonzeros = e.nonzeros) (demand : InertiaDemand)
    (i i' : Nat) : Concur needs memory o o' (prepare m demand i) e (prepare m demand i') n := by
  have count := nonzeros_captureIfNew counted same
  have known := captureIfNew_phase m e
  unfold prepare
  refine concur_modify (concur_get ?_)
  replace h := h.captureIfNew m
  generalize captureIfNew m e = e₁ at h count known
  generalize captureIfNew m n = n₁ at h
  dsimp only
  rw [← h.phase]
  have analysis : Ends (if e₁.phase = .structureKnown then analyse i else pure none) e₁
      (fun refused e₂ => refused = none → e₂.phase.Analysed ∧ e₂.nonzeros = e₁.nonzeros)
      (fun _ _ => True) := by
    refine (stage_analysis h.named known m).mono ?_ fun _ _ _ => trivial
    rintro _ e₂ staged rfl
    exact ⟨staged.2, staged.1.during.steady.nonzeros⟩
  refine concur_ite_bind (fun fresh => concur_analyse h fresh i i') (fun _ => concur_pure h _)
    analysis fun refused e₂ n₂ post h₂ => ?_
  refine concur_ite (fun _ => concur_pure h₂ _) fun accepted => ?_
  obtain ⟨analysed, nonzeros⟩ := post (by simpa using accepted)
  refine concur_modify (concur_get ?_)
  obtain ⟨led, analysed⟩ := leads_noteValues (k := i) m analysed
  replace count := count.trans (nonzeros.symm.trans led.during.steady.nonzeros.symm)
  replace h₂ := h₂.noteValues m
  generalize noteValues m e₂ = e₃ at h₂ analysed count
  generalize noteValues m n₂ = n₃ at h₂
  rw [← h₂.phase]
  refine concur_ite_bind (fun _ => concur_pure h₂ _)
    (fun out => concur_factorize h₂ (analysed.waiting out) count i i') (ends_trivial _ _)
    fun failed e₄ n₄ _ h₄ => ?_
  exact concur_ite (fun _ => concur_pure h₄ _) fun _ => concur_demand h₄ demand i i'

/-! ### Solving -/

theorem exec_callSolve (rhs : DenseVector α) (e : Engine α σ) :
    exec (callSolve rhs) e = ((e.session.backsolve e.dim rhs.entries e.workspace.reals.words
      e.workspace.integers.words).result.mapError .kernel, e.afterBacksolve rhs) := by
  unfold callSolve
  rw [exec_bind, exec_get]
  dsimp only
  rw [exec_bind, exec_set]
  dsimp only
  rw [exec_orFault]
  rfl

theorem concur_callSolve (h : Twin needs memory o o' e n) (late : e.phase = .factorized)
    (rhs : DenseVector α) : Concur needs memory o o' (callSolve rhs) e (callSolve rhs) n := by
  obtain ⟨c, left, right⟩ := h
  have late : c.phase = .factorized := left.phase ▸ late
  have dim : n.dim = e.dim := right.dim.trans left.dim.symm
  have same : e.factorWords needs = n.factorWords needs :=
    Option.some.inj ((left.factors late).symm.trans (right.factors late))
  unfold factorWords at same
  rw [dim] at same
  obtain ⟨result, words⟩ := needs.solution rhs.entries left.kernel right.kernel same
  have factors : (e.afterBacksolve rhs).factorWords needs =
      (n.afterBacksolve rhs).factorWords needs := by
    refine words.trans ?_
    rw [← dim]
    rfl
  have after := left.afterBacksolve late rhs
  unfold Concur
  rw [exec_callSolve, exec_callSolve, dim, result]
  exact .of_same ne_length_of_kernel ⟨rfl, _, factors ▸ after, right.afterBacksolve late rhs⟩

theorem concur_solveOne (h : Twin needs memory o o' e n) (late : e.phase = .factorized)
    (i i' index : Nat) (rhs solution : DenseVector α) :
    Concur needs memory o o' (solveOne i index rhs solution) e
      (solveOne i' index rhs solution) n := by
  refine (concur_callSolve h late rhs).bind_twins fun result e₁ n₁ h₁ => ?_
  cases result.solution with
  | none =>
    refine Concur.bind_twins ?_ fun _ _ _ h => concur_pure h _
    unfold emitBacksolveFailed
    exact concur_emit .error (by decide +kernel) (by simp [toString]) (by simp [toString])
      (by simp [Payload.normalize]) (by simp [Payload.normalize]) h₁
  | some x =>
    have other (cause) (cause') : Fault.view cause ≠ .length cause' := by simp
    exact (concur_orFault .view other _ h₁).bind_twins fun _ _ _ h => concur_pure h _

theorem concur_backsolve (i i' index : Nat) (rhs solutions : List (DenseVector α))
    (h : Twin needs memory o o' e n) (late : e.phase = .factorized) :
    let ended := backsolve i index rhs solutions e
    let ended' := backsolve i' index rhs solutions n
    Concurs memory o o' ended.1.result ended'.1.result
      (ended.1 = ended'.1 ∧ Twin needs memory o o' ended.2 ended'.2) := by
  induction rhs generalizing index solutions e n with
  | nil => exact .of_ok ⟨rfl, h⟩
  | cons b more ih =>
    cases solutions with
    | nil => exact .of_ok ⟨rfl, h⟩
    | cons x solutions =>
      have solves := concur_solveOne h late i i' index b x
      have during := solveOne_during (k := i) h.named index b x
      simp only [backsolve]
      rcases run : exec (solveOne i index b x) e with ⟨r, e'⟩
      rcases run' : exec (solveOne i' index b x) n with ⟨r', n'⟩
      rw [Concur, run, run'] at solves
      rcases solves with ⟨fault, rfl, refused⟩ | ⟨fault, rfl, refused⟩ | ⟨afforded, rfl, twin⟩
      · exact .inl ⟨fault, rfl, refused⟩
      · exact .inr (.inl ⟨fault, rfl, refused⟩)
      · rcases r with fault | _ | y
        · exact .of_fault afforded ⟨rfl, twin⟩
        · exact .of_ok ⟨rfl, twin⟩
        · have late : e'.phase = .factorized :=
            (congrArg Notes.phase (during.ok_of_exec run).2).trans late
          refine (ih (index + 1) solutions twin late).mono fun h => ⟨?_, h.2⟩
          dsimp only
          rw [h.1]

/-! ## What a caller does -/

theorem Twin.beginCall (h : Twin needs memory o o' e n) :
    Twin needs memory o o' e.beginCall n.beginCall := by
  obtain ⟨c, left, right⟩ := h
  exact ⟨c, left.note .., right.note ..⟩

theorem Twin.resetStructure (h : Twin needs memory o o' e n) :
    Twin needs memory o o' e.resetStructure n.resetStructure := by
  obtain ⟨c, left, right⟩ := h
  exact ⟨_, left.resetStructure, right.resetStructure⟩

theorem Twin.usageFault? (h : Twin needs memory o o' e n) (m : MatrixView α)
    (rhs solutions : List (DenseVector α)) (demand : InertiaDemand) :
    e.usageFault? m rhs solutions demand = n.usageFault? m rhs solutions demand := by
  have inertia : e.providesInertia = n.providesInertia := congrArg Core.providesInertia h.core
  have dim : e.dim = n.dim := congrArg (fun c => c.pattern.dim) h.core
  have nonzeros : e.nonzeros = n.nonzeros := congrArg Core.nonzeros h.core
  simp only [Engine.usageFault?, inertia, h.phase, dim, nonzeros]

theorem Twin.negativeEigenvalues (h : Twin needs memory o o' e n) :
    e.negativeEigenvalues = n.negativeEigenvalues := by
  have inertia : e.providesInertia = n.providesInertia := congrArg Core.providesInertia h.core
  simp only [Engine.negativeEigenvalues, inertia, h.phase, h.negative]

/-- **A call gives the same answer**, unless one of the two is refused a length. -/
theorem concur_multiSolve (h : Twin needs memory o o' e n) (A : SymTriplets α)
    (rhs solutions : List (DenseVector α)) (demand : InertiaDemand) :
    let called := e.multiSolve A.view rhs solutions demand
    let called' := n.multiSolve A.view rhs solutions demand
    Concurs memory o o' called.1.result called'.1.result
      (called.1 = called'.1 ∧ Twin needs memory o o' called.2 called'.2) := by
  cases used : e.usageFault? A.view rhs solutions demand with
  | some cause =>
    rw [multiSolve_of_rejected used, multiSolve_of_rejected ((h.usageFault? ..).symm.trans used)]
    exact .of_same (by rintro _ ⟨⟩) ⟨rfl, h⟩
  | none =>
    have checked := usageFault?_eq_none.1 used
    have prepares := concur_prepare (m := A.view) h.beginCall A.length_values checked.sameCount
      demand e.solveCount n.solveCount
    have prepared := stage_prepare (k := e.solveCount) (e := e.beginCall) h.named A.view demand
    simp only [multiSolve, used, (h.usageFault? ..).symm.trans used]
    rcases run : exec (prepare A.view demand e.solveCount) e.beginCall with ⟨r, e'⟩
    rcases run' : exec (prepare A.view demand n.solveCount) n.beginCall with ⟨r', n'⟩
    rw [Concur, run, run'] at prepares
    rcases prepares with ⟨fault, rfl, refused⟩ | ⟨fault, rfl, refused⟩ | ⟨afforded, rfl, twin⟩
    · exact .inl ⟨fault, rfl, refused⟩
    · exact .inr (.inl ⟨fault, rfl, refused⟩)
    · rcases r with fault | _ | outcome
      · exact .of_fault afforded ⟨rfl, twin⟩
      · exact concur_backsolve e.solveCount n.solveCount 0 rhs solutions twin
          (prepared.ok_of_exec run).2
      · exact .of_ok ⟨rfl, twin⟩

end Scalar

end Engine

end SymSolve
