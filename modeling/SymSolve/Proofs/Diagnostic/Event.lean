import SymSolve.Diagnostic.Event

/-!
# Events of the catalog

**Theorem (`Event.build_catalogued`).** A report with a code of the catalog, a message, a solver
and evidence that has a JSON form always becomes an event, and the event is the entry of the
catalog with what was reported.

So a step that reports such an event never ends in a fault because of it. Evidence given by named
values has a JSON form as soon as each value has one (`Payload.normalize_ofFields`).
-/

namespace SymSolve

variable {α : Type}

/-! ## Evidence -/

namespace Payload

theorem normalizeFields_named (fields : List (String × Payload α)) :
    normalizeFields (fields.map fun (key, v) => (some key, v)) =
      fields.map fun (key, v) => (some key, v.normalize) := by
  induction fields with
  | nil => rfl
  | cons field fields ih => simp [normalizeFields, ih]

theorem sortedFields?_named {β : Type} (fields : List (String × β)) :
    sortedFields? (fields.map fun (key, v) => (some key, v)) =
      some (fields.mergeSort fun a b => a.1 ≤ b.1) := by
  have h : (fields.mapM fun field : String × β => some (field.1, field.2)) = some fields := by
    induction fields with
    | nil => rfl
    | cons field fields ih => simp [List.mapM_cons, ih]
  simp only [sortedFields?, List.mapM_map, Function.comp_def, Option.map_some]
  rw [h, Option.map_some]

theorem mapM_checked {fields : List (String × Except WitnessError (Json α))}
    {w : Except WitnessError (Json α) → Json α} (h : ∀ field ∈ fields, field.2 = .ok (w field.2)) :
    (fields.mapM fun field => field.2.map fun v => (field.1, v)) =
      .ok (fields.map fun field => (field.1, w field.2)) := by
  induction fields with
  | nil => rfl
  | cons field fields ih =>
    rw [List.mapM_cons, h field List.mem_cons_self,
      ih fun f hf => h f (List.mem_cons_of_mem _ hf)]
    rfl

/-- Named evidence has a JSON form, with sorted keys, when each of its values has one. -/
theorem normalize_ofFields {fields : List (String × Payload α)}
    {w : Except WitnessError (Json α) → Json α}
    (h : ∀ field ∈ fields, field.2.normalize = .ok (w field.2.normalize)) :
    (ofFields fields).normalize =
      .ok (.object (((fields.map fun field => (field.1, field.2.normalize)).mergeSort
        fun a b => a.1 ≤ b.1).map fun field => (field.1, w field.2))) := by
  have sorted := sortedFields?_named (fields.map fun field => (field.1, field.2.normalize))
  rw [List.map_map] at sorted
  simp only [ofFields, normalize, normalizeFields_named, object]
  simp only [Function.comp_def] at sorted
  rw [sorted]
  dsimp only
  rw [mapM_checked (w := w)]
  · rfl
  · intro field hf
    obtain ⟨given, hg, rfl⟩ := List.mem_map.1 (List.mem_mergeSort.1 hf)
    exact h given hg

/-- The form of a value that has one. -/
def form (r : Except WitnessError (Json α)) : Json α := r.toOption.getD .null

theorem exists_normalize_ofFields {fields : List (String × Payload α)}
    (plain : ∀ field ∈ fields, ∃ v, field.2.normalize = .ok v) :
    ∃ v, (ofFields fields).normalize = .ok v := by
  refine ⟨_, normalize_ofFields (w := form) fun field hf => ?_⟩
  obtain ⟨v, hv⟩ := plain field hf
  rw [hv]
  rfl

/-- Evidence whose names are given in order has the forms of its values in this order. -/
theorem normalize_ofFields_sorted {fields : List (String × Payload α)}
    {forms : List (String × Json α)} (sorted : forms.Pairwise fun a b => a.1 ≤ b.1)
    (named : (fields.map fun field => (field.1, field.2.normalize)) =
      forms.map fun field => (field.1, .ok field.2)) :
    (ofFields fields).normalize = .ok (.object forms) := by
  have plain : ∀ field ∈ fields, field.2.normalize = .ok (form field.2.normalize) := by
    intro field hf
    have mem : (field.1, field.2.normalize) ∈ forms.map fun field => (field.1, .ok field.2) :=
      named ▸ List.mem_map_of_mem hf
    obtain ⟨given, -, same⟩ := List.mem_map.1 mem
    rw [← (Prod.mk.inj same).2]
    rfl
  have kept : (forms.map fun field => (field.1, Except.ok (ε := WitnessError) field.2)).mergeSort
      (fun a b => a.1 ≤ b.1) = forms.map fun field => (field.1, .ok field.2) := by
    refine List.mergeSort_of_pairwise (List.pairwise_map.2 (sorted.imp ?_))
    exact decide_eq_true
  rw [normalize_ofFields (w := form) plain, named, kept, List.map_map]
  exact congrArg (fun fields => Except.ok (Json.object fields)) (List.map_id forms)

end Payload

/-! ## Building -/

theorem Severity.ofName?_name (s : Severity) : ofName? s.name = some s := by
  cases s <;> rfl

theorem Stage.ofName?_name (s : Stage) : ofName? s.name = some s := by
  cases s <;> rfl

variable [Scalar α]

/-- What is reported together with a code of the catalog. -/
structure Report (α : Type) where
  message : String
  solverId : String
  solveIndex : Option Nat
  attemptIndex : Option Nat
  witness : Json α

/-- The event for an entry of the catalog. -/
def Event.ofEntry {α : Type} (entry : CatalogEntry) (r : Report α) : Event α where
  code := entry.code
  severity := entry.severity
  message := r.message
  action := entry.action
  stage := entry.stage
  solverId := r.solverId
  solveIndex := r.solveIndex
  attemptIndex := r.attemptIndex
  witness := some r.witness

/-- An index as a payload. -/
def Index.toPayload {α : Type} : Option Nat → Payload α
  | none => .null
  | some i => .int i

theorem Index.ofPayload_toPayload (i : Option Nat) : ofPayload (toPayload i : Payload α) = .ok i := by
  cases i with
  | none => rfl
  | some i => simp [ofPayload, toPayload]

/-- The loose fields of a report whose code the catalog knows. -/
def Draft.ofEntry {α : Type} (entry : CatalogEntry) (message solverId : String)
    (solveIndex attemptIndex : Option Nat) (witness : Payload α) : Draft α where
  code := some (.text entry.code)
  severity := some (.text entry.severity.name)
  message := some (.text message)
  action := some (.text entry.action)
  stage := some (.text entry.stage.name)
  solverId := some (.text solverId)
  solveIndex := some (Index.toPayload solveIndex)
  attemptIndex := some (Index.toPayload attemptIndex)
  witness := some witness

theorem Draft.validate_ofEntry {entry : CatalogEntry} {r : Report α}
    {fields : List (String × Payload α)} (code : entry.code ≠ "") (action : entry.action ≠ "")
    (message : r.message ≠ "") (solver : r.solverId ≠ "")
    (paired : r.attemptIndex.isSome → r.solveIndex.isSome)
    (evidence : (Payload.ofFields fields).normalize = .ok r.witness) :
    (ofEntry entry r.message r.solverId r.solveIndex r.attemptIndex (.ofFields fields)).validate =
      .ok (.ofEntry entry r) := by
  have hw : witnessOf (some (Payload.ofFields fields)) = .ok (some r.witness) := by
    simp only [witnessOf, Payload.ofFields] at evidence ⊢
    rw [evidence]
  have hi (i : Option Nat) : indexOf (some (Index.toPayload i : Payload α)) = .ok i :=
    Index.ofPayload_toPayload i
  simp only [validate, ofEntry, textOf, oneOf, hi, hw, code, message, action, solver,
    Severity.ofName?_name, Stage.ofName?_name, faultIn]
  have both : ¬ (r.attemptIndex.isSome ∧ r.solveIndex.isNone) := by
    rintro ⟨h, h'⟩
    have := paired h
    simp_all
  simp only [List.append_nil, List.map_nil, if_neg both, if_false]
  rfl

theorem Catalog.find?_of_mem_codes {code : String} (h : code ∈ canonical.codes) :
    ∃ entry, canonical.find? entry.code = some entry ∧ entry.code = code ∧ entry.code ≠ "" ∧
      entry.action ≠ "" := by
  have complete : ∀ entry ∈ canonical.entries, canonical.find? entry.code = some entry ∧
      entry.code ≠ "" ∧ entry.action ≠ "" := by decide +kernel
  obtain ⟨entry, hentry, rfl⟩ := List.mem_map.1 h
  obtain ⟨found, code, action⟩ := complete entry hentry
  exact ⟨entry, found, rfl, code, action⟩

/-- **Reports with a code of the catalog become events.** -/
theorem Event.build_catalogued {entry : CatalogEntry} {r : Report α}
    {fields : List (String × Payload α)} (found : Catalog.canonical.find? entry.code = some entry)
    (code : entry.code ≠ "") (action : entry.action ≠ "") (message : r.message ≠ "")
    (solver : r.solverId ≠ "") (paired : r.attemptIndex.isSome → r.solveIndex.isSome)
    (evidence : (Payload.ofFields fields).normalize = .ok r.witness) :
    build {
      code := .text entry.code, message := .text r.message, solverId := .text r.solverId
      solveIndex := Index.toPayload r.solveIndex, attemptIndex := Index.toPayload r.attemptIndex
      witness := .ofFields fields } = .ok (.ofEntry entry r) := by
  have valid := Draft.validate_ofEntry code action message solver paired evidence
  unfold Draft.ofEntry at valid
  simp [build, Payload.isBlank, code, message, solver, action, codeName, found, resolve, valid,
    bind, Except.bind]
  rfl

/-! ## Reading events back -/

omit [Scalar α] in
theorem eq_ok_of_mapError {ε ε' β : Type} {f : ε → ε'} {r : Except ε β} {b : β}
    (h : r.mapError f = .ok b) : r = .ok b := by
  cases r with
  | error cause => cases h
  | ok b' =>
    cases h
    rfl

theorem Draft.validate_eq_ok {d : Draft α} {event : Event α} (h : d.validate = .ok event) :
    textOf d.code = .ok event.code ∧ indexOf d.solveIndex = .ok event.solveIndex ∧
      indexOf d.attemptIndex = .ok event.attemptIndex := by
  unfold validate at h
  dsimp only at h
  split at h
  · split at h
    · split at h
      · cases h
      · cases h
        refine ⟨?_, ?_, ?_⟩ <;> assumption
    · cases h
  · cases h

theorem Event.build_eq_ok {r : EventRequest α} {event : Event α} (h : build r = .ok event) :
    Draft.textOf (some r.code) = .ok event.code ∧
      Draft.indexOf (some r.solveIndex) = .ok event.solveIndex ∧
      Draft.indexOf (some r.attemptIndex) = .ok event.attemptIndex := by
  unfold build at h
  simp only [bind, Except.bind] at h
  split at h
  · cases h
  split at h
  · cases h
  split at h
  · cases h
  split at h
  · cases h
  split at h
  · cases h
  split at h
  · cases h
  split at h
  · cases h
  exact Draft.validate_eq_ok (eq_ok_of_mapError h)

end SymSolve
