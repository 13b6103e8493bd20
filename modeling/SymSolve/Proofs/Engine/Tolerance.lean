import SymSolve.Proofs.Engine.Consistency
import SymSolve.Proofs.Engine.Retries
import SymSolve.Proofs.Engine.Unmoved

/-!
# The history of the tolerance

The pivot tolerance is kept by the engine and, for the kernel, among the control words. A caller
raises it with the quality; nothing else changes it.

**Theorem (`tolerances_form_a_chain`).** The raises of a run lead from the tolerance of the options
to the present one, each from where the one before it ended, and the tolerance stays between the
bounds of the options. For each raise there is one event, in this order: events without a call are
kept by every call and by every reset, and no call reports a raise. All calls of the kernel and all
recorded attempts have the tolerance that the engine had at the time.

Powers need not be exact. All that is asked of them is that `t ≤ t ^ e` where both are between
zero and one.
-/

namespace SymSolve

/-! ## Raises -/

/-- The tolerance before it was raised, and after it. -/
structure Raise (α : Type) where
  before : α
  after : α
  deriving DecidableEq

/-- The entry of the catalog for a raised tolerance. -/
def qualityIncreased : CatalogEntry where
  code := "W_LIN_QUALITY_INCREASED"
  severity := .warning
  stage := .factorize
  action := "expect a refactorization on the next solve"

namespace Raise

variable {α : Type}

/-- Each raise starts where the one before it ended. They lead from one tolerance to another. -/
def Chain : α → List (Raise α) → α → Prop
  | a, [], b => a = b
  | a, r :: raises, b => r.before = a ∧ Chain r.after raises b

theorem Chain.concat {a b : α} {raises : List (Raise α)} (h : Chain a raises b) (c : α) :
    Chain a (raises ++ [⟨b, c⟩]) c := by
  induction raises generalizing a with
  | nil => exact ⟨h.symm, rfl⟩
  | cons r raises ih => exact ⟨h.1, ih h.2⟩

/-- The event that reports a raise. It belongs to no call. -/
def event [Printable α] (solverId : String) (r : Raise α) : Event α :=
  .ofEntry qualityIncreased {
    message := "pivot tolerance raised from " ++ Printable.scientific 3 r.before ++ " to " ++
      Printable.scientific 3 r.after
    solverId
    solveIndex := none
    attemptIndex := none
    witness := .object [("from", .real r.before), ("to", .real r.after)] }

end Raise

/-- The tolerance that the call was given, if it was given one. -/
def KernelCall.tolerance? {α : Type} : KernelCall α → Option α
  | analyse _ _ _ controls .. | factorize _ _ _ _ controls .. => some controls.tolerance
  | solve .. => none

namespace Engine

section Scalar

variable {α σ : Type} [Scalar α]

/-- What is reported about raises. -/
def raiseEvents (e : Engine α σ) : List (Event α) :=
  e.diagnostics.filter fun event => event.code == qualityIncreased.code

/-- No call reports a raise. -/
theorem raiseEvents_multiSolve {e : Engine α σ} {m : MatrixView α}
    {rhs solutions : List (DenseVector α)} {demand : InertiaDemand}
    (accepted : e.usageFault? m rhs solutions demand = none) :
    (e.multiSolve m rhs solutions demand).2.raiseEvents =
      e.raiseEvents.filter fun event => event.solveIndex.isNone := by
  obtain ⟨events, added, coded⟩ := reports_multiSolve accepted
  have none : events.filter (fun event => event.code == qualityIncreased.code) = [] := by
    refine List.filter_eq_nil_iff.2 fun event hevent same => ?_
    have mem := coded event hevent
    rw [eq_of_beq same] at mem
    exact absurd mem (by decide)
  rw [raiseEvents, added, List.filter_append, none, List.append_nil, beginCall, List.filter_filter,
    raiseEvents, List.filter_filter]
  simp only [Bool.and_comm]

end Scalar

/-! ## One raise -/

variable {K σ : Type} [Field K] [LinearOrder K] [FloorRing K] [Powers K] [Printable K]

/-- The tolerance that an increase of quality leads to. -/
def nextTolerance (e : Engine K σ) : K :=
  min e.options.toleranceMax (Powers.pow e.tolerance e.options.qualityExponent)

/-- The engine with a raised tolerance. -/
def raised (e : Engine K σ) : Engine K σ :=
  { e with
    tolerance := e.nextTolerance
    session := e.session.withTolerance e.nextTolerance
    phase := e.phase.stale
    diagnostics := e.diagnostics ++ [Raise.event e.solverId ⟨e.tolerance, e.nextTolerance⟩] }

omit [Field K] [LinearOrder K] [FloorRing K] [Powers K] [Printable K] in
/-- The evidence of a raise, in its JSON form. -/
theorem normalize_bounds (a b : K) :
    (Payload.ofFields [("from", .real a), ("to", .real b)]).normalize =
      .ok (.object [("from", .real a), ("to", .real b)]) :=
  Payload.normalize_ofFields_sorted (by simp) rfl

theorem exec_increaseQuality {e : Engine K σ} (named : e.solverId ≠ "") :
    exec increaseQuality e =
      if e.options.toleranceMax ≤ e.tolerance then (.ok false, e) else (.ok true, e.raised) := by
  unfold increaseQuality
  rw [exec_bind, exec_get]
  dsimp only
  split_ifs with room full full
  · rfl
  · exact absurd ((Scalar.le_iff ..).1 room) full
  · exact absurd ((Scalar.le_iff ..).2 full) room
  · let next : Engine K σ := { e with
      tolerance := e.nextTolerance
      session := e.session.withTolerance e.nextTolerance
      phase := e.phase.stale }
    have reported : exec (emit qualityIncreased.code ("pivot tolerance raised from " ++
        Printable.scientific 3 e.tolerance ++ " to " ++ Printable.scientific 3 e.nextTolerance)
        none none [("from", .real e.tolerance), ("to", .real e.nextTolerance)]) next =
        (.ok (), e.raised) :=
      exec_emit qualityIncreased (by decide +kernel) (by decide) (by decide) (by simp) named
        (fun h => h) (normalize_bounds e.tolerance e.nextTolerance)
    have same : Scalar.smaller e.options.toleranceMax
        (RealScalar.pow e.tolerance e.options.qualityExponent) = e.nextTolerance :=
      Scalar.smaller_eq ..
    rw [exec_bind, exec_set, same]
    dsimp only
    rw [exec_bind]
    split
    · next ended =>
      cases ended.symm.trans reported
      rfl
    · next ended => cases ended.symm.trans reported

/-- What an increase of quality answers and does. -/
structure IncreasesQuality (e : Engine K σ) : Prop where
  refused_iff : (exec increaseQuality e).1 = .ok false ↔ e.tolerance = e.options.toleranceMax
  same : (exec increaseQuality e).1 = .ok false → (exec increaseQuality e).2 = e
  done_iff : (exec increaseQuality e).1 = .ok true ↔ e.tolerance ≠ e.options.toleranceMax
  stale : (exec increaseQuality e).1 = .ok true → (exec increaseQuality e).2.phase ≠ .factorized

theorem increasesQuality {e : Engine K σ} (named : e.solverId ≠ "")
    (bounded : e.tolerance ≤ e.options.toleranceMax) : IncreasesQuality e := by
  by_cases full : e.options.toleranceMax ≤ e.tolerance
  · have run := exec_increaseQuality named
    rw [if_pos full] at run
    have most := bounded.antisymm full
    constructor <;> simp [run, most]
  · have run := exec_increaseQuality named
    rw [if_neg full] at run
    have less : e.tolerance ≠ e.options.toleranceMax := fun most => full most.ge
    have stale : e.raised.phase ≠ .factorized := e.phase.stale_ne_factorized
    constructor <;> simp [run, less, stale]

end Engine

/-! ## Raises of a run -/

namespace World

variable {K σ : Type} [Field K] [LinearOrder K] [FloorRing K] [Powers K] [Printable K]

/-- The raise that an action makes: an increase of quality that is answered with yes. -/
def raise? (w : World K σ) : Action K → Option (Raise K)
  | .increaseQuality =>
    match w.engine.exec Engine.increaseQuality with
    | (.ok true, e) => some ⟨w.engine.tolerance, e.tolerance⟩
    | _ => none
  | _ => none

theorem raise?_of_room {w : World K σ} (named : w.engine.solverId ≠ "")
    (room : w.engine.tolerance < w.engine.options.toleranceMax) :
    w.raise? .increaseQuality = some ⟨w.engine.tolerance, w.engine.nextTolerance⟩ := by
  unfold raise?
  rw [Engine.exec_increaseQuality named, if_neg (not_le_of_gt room)]
  rfl

theorem raise?_of_full {w : World K σ} (named : w.engine.solverId ≠ "")
    (full : w.engine.options.toleranceMax ≤ w.engine.tolerance) :
    w.raise? .increaseQuality = none := by
  unfold raise?
  rw [Engine.exec_increaseQuality named, if_pos full]

/-- The raises of a run, in order. -/
def raises (w : World K σ) : List (Action K) → List (Raise K)
  | [] => []
  | action :: actions => (w.raise? action).toList ++ (w.step action).raises actions

end World

/-- The history of the tolerance of an engine that was made with these options and has gone through
these raises. -/
structure ToleranceHistory {K σ : Type} [Field K] [LinearOrder K] [FloorRing K] [Printable K]
    (options : Options K) (solverId : String) (raises : List (Raise K)) (e : Engine K σ) :
    Prop where
  made : e.options = options
  solver : e.solverId = solverId
  least : options.tolerance ≤ e.tolerance
  most : e.tolerance ≤ options.toleranceMax
  chain : Raise.Chain options.tolerance raises e.tolerance
  /-- There is one event for each raise, in order. -/
  events : e.raiseEvents = raises.map (Raise.event solverId)

section History

variable {K σ : Type} [Field K] [LinearOrder K] [FloorRing K] [Printable K]
variable {options : Options K} {solverId : String} {raises : List (Raise K)}

omit [Printable K] in
theorem Options.bounds (o : Options K) : 0 < o.tolerance ∧ o.tolerance ≤ o.toleranceMax ∧
    o.toleranceMax < 1 ∧ 0 < o.qualityExponent ∧ o.qualityExponent < 1 := by
  have valid := o.valid
  unfold Settings.fault? at valid
  split_ifs at valid with h₁ h₂ h₃
  simp at h₁ h₂ h₃
  exact ⟨h₁.1, h₂.1, h₂.2, h₃⟩

namespace ToleranceHistory

variable {e e' : Engine K σ}

/-- The events of raises outlive every call. -/
theorem multiSolve (h : ToleranceHistory options solverId raises e) (named : e.solverId ≠ "")
    {m : MatrixView K} {rhs solutions : List (DenseVector K)} {demand : InertiaDemand}
    (accepted : e.usageFault? m rhs solutions demand = none) :
    ToleranceHistory options solverId raises (e.multiSolve m rhs solutions demand).2 := by
  obtain ⟨made, -, -, tolerance⟩ := Engine.made_multiSolve named m rhs solutions demand
  refine ⟨made.options.trans h.made, made.solverId.trans h.solver, ?_, ?_, ?_, ?_⟩
  · exact tolerance.symm ▸ h.least
  · exact tolerance.symm ▸ h.most
  · exact tolerance.symm ▸ h.chain
  · rw [Engine.raiseEvents_multiSolve accepted, h.events, List.filter_eq_self]
    simp [Raise.event, Event.ofEntry]

theorem resetStructure (h : ToleranceHistory options solverId raises e) :
    ToleranceHistory options solverId raises e.resetStructure := { h with }

theorem raised [IsStrictOrderedRing K] [Powers K] (h : ToleranceHistory options solverId raises e)
    (rises : ∀ t e : K, 0 < t → t < 1 → 0 < e → e < 1 → t ≤ Powers.pow t e)
    (room : e.tolerance < options.toleranceMax) :
    ToleranceHistory options solverId (raises ++ [⟨e.tolerance, e.nextTolerance⟩]) e.raised := by
  obtain ⟨positive, -, small, exponent, below⟩ := options.bounds
  have grown : e.tolerance ≤ e.nextTolerance := by
    rw [Engine.nextTolerance, h.made]
    exact le_min room.le (rises _ _ (positive.trans_le h.least) (room.trans small) exponent below)
  refine ⟨h.made, h.solver, h.least.trans grown, ?_, h.chain.concat _, ?_⟩
  · show min _ _ ≤ _
    rw [h.made]
    exact min_le_left ..
  · show List.filter _ (_ ++ _) = _
    rw [List.filter_append, List.map_append]
    exact congrArg₂ _ h.events (by rw [h.solver]; rfl)

end ToleranceHistory

end History

/-! ## Whole runs -/

section Run

variable {K σ : Type} [Field K] [LinearOrder K] [IsStrictOrderedRing K] [FloorRing K] [Powers K]
variable [Printable K] {options : Options K} {solverId : String} {raises : List (Raise K)}

namespace ToleranceHistory

variable {k : Kernel K σ} {w : World K σ}

theorem increaseQuality (h : ToleranceHistory options solverId raises w.engine)
    (rises : ∀ t e : K, 0 < t → t < 1 → 0 < e → e < 1 → t ≤ Powers.pow t e)
    (named : w.engine.solverId ≠ "") :
    ToleranceHistory options solverId (raises ++ (w.raise? .increaseQuality).toList)
      (w.engine.exec Engine.increaseQuality).2 := by
  rw [Engine.exec_increaseQuality named]
  by_cases full : w.engine.options.toleranceMax ≤ w.engine.tolerance
  · rw [if_pos full, World.raise?_of_full named full, Option.toList_none, List.append_nil]
    exact h
  · rw [if_neg full, World.raise?_of_room named (lt_of_not_ge full)]
    exact h.raised rises (lt_of_not_ge (h.made ▸ full))

theorem step (h : ToleranceHistory options solverId raises w.engine) (regular : w.Regular k)
    (rises : ∀ t e : K, 0 < t → t < 1 → 0 < e → e < 1 → t ≤ Powers.pow t e) (action : Action K) :
    ToleranceHistory options solverId (raises ++ (w.raise? action).toList)
      (w.step action).engine := by
  by_cases raising : action = .increaseQuality
  · subst raising
    exact h.increaseQuality rises regular.named
  · have unraised : w.raise? action = none := by
      cases action <;> first | rfl | exact absurd rfl raising
    rw [unraised, Option.toList_none, List.append_nil]
    have turns := w.step_turns action
    generalize (w.step action).engine = e at turns
    cases turns with
    | idle => exact h
    | solve _ accepted => exact h.multiSolve regular.named accepted
    | raise => exact absurd rfl raising
    | reset => exact h.resetStructure

/-- **The history goes on with the run.** -/
theorem run (h : ToleranceHistory options solverId raises w.engine) (regular : w.Regular k)
    (rises : ∀ t e : K, 0 < t → t < 1 → 0 < e → e < 1 → t ≤ Powers.pow t e)
    (actions : List (Action K)) :
    ToleranceHistory options solverId (raises ++ w.raises actions) (w.run actions).engine := by
  induction actions generalizing w raises with
  | nil =>
    rw [World.raises, List.append_nil]
    exact h
  | cons action actions ih =>
    rw [World.raises, ← List.append_assoc]
    exact ih (h.step regular rises action) (regular.step action).1

omit [IsStrictOrderedRing K] [Powers K] in
theorem create {memory : Memory} {state : σ} {providesInertia : Bool} {e : Engine K σ}
    (created : Engine.create memory options k state solverId providesInertia = .ok e) :
    ToleranceHistory options solverId [] e := by
  unfold Engine.create at created
  split at created <;> cases created
  exact ⟨rfl, rfl, le_rfl, options.bounds.2.1, rfl, rfl⟩

end ToleranceHistory

namespace Engine

/-- On the way from `e` to `e'` the kernel was called, and attempts were recorded, with the
tolerance of the moment. -/
structure Uses (e e' : Engine K (Recorded K σ)) : Prop where
  calls : ∃ new, e'.calls = e.calls ++ new ∧ ∀ c ∈ new, ∀ t ∈ c.tolerance?, t = e.tolerance
  trace : e'.trace = e.trace ∨ ∀ r ∈ e'.trace, r.tolerance = e.tolerance
  /-- The moment lasts as long as there is anything to call the kernel for. -/
  steady : e'.tolerance = e.tolerance ∨ (e'.calls = e.calls ∧ e'.trace = e.trace)

variable {e e' : Engine K (Recorded K σ)}

omit [IsStrictOrderedRing K] [Powers K] [Printable K] in
theorem Uses.of_idle (calls : e'.calls = e.calls) (trace : e'.trace = e.trace) : Uses e e' :=
  ⟨⟨[], by rw [calls, List.append_nil], nofun⟩, .inl trace, .inr ⟨calls, trace⟩⟩

end Engine

omit [LinearOrder K] [IsStrictOrderedRing K] [FloorRing K] [Powers K] [Printable K] [Field K] in
theorem KernelCall.tolerance?_of_serves {p : Pattern} {values : List K} {controls : Controls K}
    {before : List (KernelCall K)} {c : KernelCall K} (h : c.Serves p values controls before)
    {t : K} (given : t ∈ c.tolerance?) : t = controls.tolerance := by
  cases c with
  | analyse => exact (Option.some.inj given).symm.trans (congrArg _ h.2)
  | factorize => exact (Option.some.inj given).symm.trans (congrArg _ h.2.2.1)
  | solve => exact h.elim

variable {k : Kernel K σ} {w : World K (Recorded K σ)}

theorem World.Reached.uses_multiSolve (reached : w.Reached k) {A : SymTriplets K}
    (hA : A ∈ w.matrices) {rhs solutions : List (DenseVector K)} {demand : InertiaDemand}
    (accepted : w.engine.usageFault? A.view rhs solutions demand = none) :
    w.engine.Uses (w.engine.multiSolve A.view rhs solutions demand).2 := by
  have order := reached.inOrder
  obtain ⟨prepares, solves, records⟩ := Engine.record_multiSolve order.sound
    (Engine.usageFault?_eq_none.1 accepted) A.length_values (order.knows_iff hA)
  obtain ⟨fs, made⟩ := Engine.makes_multiSolve order.sound.admits.1 order.solver accepted
  refine ⟨⟨prepares ++ solves, records.added, fun c hc t given => ?_⟩, .inr fun r hr => ?_,
    .inl (Engine.made_multiSolve order.solver ..).2.2.2⟩
  · rcases List.mem_append.1 hc with hc | hc
    · obtain ⟨earlier, later, split⟩ := List.append_of_mem hc
      rw [KernelCall.tolerance?_of_serves (records.serves _ _ _ split) given]
      exact order.tolerance
    · obtain ⟨s, -, -, solve, -⟩ := records.rests c hc
      cases c with
      | solve => cases given
      | analyse => cases solve
      | factorize => cases solve
  · have trace : (w.engine.multiSolve A.view rhs solutions demand).2.trace = _ :=
      congrArg Tally.trace made.tally
    rw [trace] at hr
    obtain ⟨⟨f, i⟩, -, record⟩ := List.mem_filterMap.1 hr
    obtain ⟨report, -, rfl⟩ := Option.map_eq_some_iff.1 record
    rfl

theorem World.Reached.uses (reached : w.Reached k) (action : Action K) :
    w.engine.Uses (w.step action).engine := by
  have turns := w.step_turns action
  generalize (w.step action).engine = e at turns
  cases turns with
  | idle => exact .of_idle rfl rfl
  | solve found accepted => exact reached.uses_multiSolve (List.mem_of_getElem? found) accepted
  | raise => exact .of_idle rfl rfl
  | reset => exact .of_idle rfl rfl

/-- **Tolerances form a chain.** -/
theorem tolerances_form_a_chain
    (rises : ∀ t e : K, 0 < t → t < 1 → 0 < e → e < 1 → t ≤ Powers.pow t e)
    {memory : Memory} {state : σ} {providesInertia : Bool} {e : Engine K (Recorded K σ)}
    (created : Engine.create memory options k.recorded ⟨state, []⟩ solverId providesInertia = .ok e)
    (tags : TagSource) (actions : List (Action K)) :
    let w := (World.start e tags).run actions
    ToleranceHistory options solverId ((World.start e tags).raises actions) w.engine ∧
      (∀ action, w.engine.Uses (w.step action).engine) ∧ w.engine.IncreasesQuality := by
  intro w
  have regular := World.regular_start created tags
  have reached : w.Reached k :=
    ⟨memory, options, state, solverId, providesInertia, e, tags, actions, created, rfl⟩
  have history :=
    (ToleranceHistory.create created).run (w := World.start e tags) regular rises actions
  refine ⟨history, reached.uses, ?_⟩
  exact Engine.increasesQuality (regular.run actions).1.named (history.made ▸ history.most)

end Run

theorem pow_rises (t e : ℚ) (ht : t < 1) (he : 0 < e) (small : e < 1) : t ≤ Powers.pow t e := by
  have whole : ⌊e⌋ = 0 := Int.floor_eq_zero_iff.2 ⟨he.le, small⟩
  show t ≤ t ^ ⌊e⌋
  rw [whole, zpow_zero]
  exact ht.le

/-- A caller who solves and asks for more quality. -/
def qualityActions : List (Action ℚ) := [
  .ofTriplets 1 [0] [0] (some [2]), .multiSolve 0 [⟨[1]⟩] [⟨[0]⟩] none, .increaseQuality]

theorem tolerances_form_a_chain_once :
    let start := World.start (scriptedEngine ⟨[], [], []⟩) ⟨0⟩
    let w := start.run qualityActions
    start.raises qualityActions = [⟨1 / 100000000, 1 / 10000⟩] ∧
      ToleranceHistory exactOptions "exact" [⟨1 / 100000000, 1 / 10000⟩] w.engine ∧
      (∀ action, w.engine.Uses (w.step action).engine) ∧ w.engine.IncreasesQuality := by
  intro start w
  have raised : solvedWorld.raise? .increaseQuality = some ⟨1 / 100000000, 1 / 10000⟩ := by
    rw [World.raise?_of_room (by decide +kernel) (by decide +kernel), Option.some_inj]
    decide +kernel
  have raises : start.raises qualityActions = [⟨1 / 100000000, 1 / 10000⟩] := by
    show (solvedWorld.raise? .increaseQuality).toList ++ [] = _
    rw [raised]
    rfl
  have chained := tolerances_form_a_chain (fun t e _ ht he small => pow_rises t e ht he small)
    (k := scripted) (create_exactEngine scripted.recorded ⟨⟨[], [], []⟩, []⟩) ⟨0⟩ qualityActions
  exact ⟨raises, raises ▸ chained⟩

end SymSolve
