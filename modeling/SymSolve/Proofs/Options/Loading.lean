import SymSolve.Proofs.CommandLine.ExitCodes
import SymSolve.Proofs.Options.Usable

/-!
# Options from a file

`Artifact.Holds` says what the value of an artifact has to be for the settings in it, and
`Options.ofValue` makes options of a value exactly where it holds usable settings
(`Options.ofValue_eq_ok_iff`).

**Theorem (`Options.loads_or_reports`).** A file that is text either holds usable settings and
becomes options with these settings, or is rejected with a code that says whether it could not be
read, could not be parsed or holds something else; and a command rejects it with the code of bad
options and exit code two. The parser of the text is arbitrary.

Each reader of a field is told twice: what it accepts (`…_eq_ok_iff`) and that it fails only with
faults of the code for bad values (`invalid_…`). The second needs integers that are not too large
for a double where a real number is expected (`Artifact.Bounded`); a larger one is a fault without a
code, and so are bytes that are no text (`Options.undecodable_escapes`).
-/

namespace SymSolve

open Yaml (Value)

/-! ## Steps that may fail -/

section Steps

variable {ε β γ : Type}

theorem bind_eq_ok_iff {r : Except ε β} {next : β → Except ε γ} {c : γ} :
    r >>= next = .ok c ↔ ∃ b, r = .ok b ∧ next b = .ok c := by
  constructor
  · exact exists_of_bind_eq_ok
  · rintro ⟨b, rfl, h⟩
    exact h

theorem pure_eq_ok_iff {b c : β} : (pure b : Except ε β) = .ok c ↔ b = c :=
  ⟨Except.ok.inj, congrArg Except.ok⟩

/-- A step that fails only with faults of one kind. -/
def FailsOnly (kind : ε → Prop) (r : Except ε β) : Prop := ∀ cause, r = .error cause → kind cause

variable {kind : ε → Prop}

theorem failsOnly_ok (b : β) : FailsOnly kind (.ok b : Except ε β) := nofun

theorem failsOnly_error {cause : ε} (h : kind cause) : FailsOnly kind (.error cause : Except ε β) := by
  rintro _ ⟨⟩
  exact h

theorem FailsOnly.bind {r : Except ε β} {next : β → Except ε γ} (h : FailsOnly kind r)
    (hnext : ∀ b, r = .ok b → FailsOnly kind (next b)) : FailsOnly kind (r >>= next) := by
  cases r with
  | ok b => exact hnext b rfl
  | error cause => exact failsOnly_error (h cause rfl)

end Steps

/-! ## What an artifact holds -/

namespace Artifact

section Values

variable {α : Type} [Scalar α] {fields pivoting workspace : Fields α} {key : String}

/-- There is a finite number under a key, or an integer that is read as one. -/
def HoldsReal (fields : Fields α) (key : String) (x : α) : Prop :=
  Scalar.isFinite x = true ∧ (Value.field? fields key = some (.real x) ∨
    ∃ i, Value.field? fields key = some (.int i) ∧ Scalar.ofInt i = x)

/-- Two mappings hold settings. -/
structure HoldsSettings (pivoting workspace : Fields α) (s : Settings α) : Prop where
  tolerance : HoldsReal pivoting "pivot_tolerance" s.tolerance
  toleranceMax : HoldsReal pivoting "pivot_tolerance_max" s.toleranceMax
  qualityExponent : HoldsReal pivoting "quality_exponent" s.qualityExponent
  integerInitFactor : HoldsReal workspace "integer_workspace_init_factor" s.integerInitFactor
  realInitFactor : HoldsReal workspace "real_workspace_init_factor" s.realInitFactor
  growthFactor : HoldsReal workspace "workspace_growth_factor" s.growthFactor
  compressionThreshold :
    Value.field? workspace "compression_count_threshold" = some (.int s.compressionThreshold)
  analysisOverestimate : HoldsReal workspace "analysis_integer_overestimate" s.analysisOverestimate

/-- A value is an artifact with these settings. -/
def Holds (value : Value α) (s : Settings α) : Prop :=
  ∃ fields pivoting workspace, value = .map fields ∧
    Value.field? fields "schema" = some (.text optionsSchema) ∧
    Value.field? fields "pivoting" = some (.map pivoting) ∧
    Value.field? fields "workspace" = some (.map workspace) ∧ HoldsSettings pivoting workspace s

theorem ite_finite_eq_ok_iff {ε : Type} {x y : α} {cause : ε} :
    (if Scalar.isFinite y then .ok y else .error cause) = Except.ok x ↔
      Scalar.isFinite x = true ∧ y = x := by
  split
  · next finite =>
    rw [Except.ok.injEq]
    exact ⟨fun same => ⟨same ▸ finite, same⟩, And.right⟩
  · next infinite =>
    refine ⟨nofun, ?_⟩
    rintro ⟨finite, rfl⟩
    exact absurd finite infinite

theorem realAt_eq_ok_iff {x : α} : realAt fields key = .ok x ↔ HoldsReal fields key x := by
  unfold realAt HoldsReal
  cases found : Value.field? fields key with
  | none => simp
  | some v => cases v <;> simp [ite_finite_eq_ok_iff]

omit [Scalar α] in
theorem intAt_eq_ok_iff {i : Int} :
    intAt fields key = .ok i ↔ Value.field? fields key = some (.int i) := by
  unfold intAt
  split <;> simp_all

omit [Scalar α] in
theorem mappingAt_eq_ok_iff {fields' : Fields α} :
    mappingAt fields key = .ok fields' ↔ Value.field? fields key = some (.map fields') := by
  unfold mappingAt
  split <;> simp_all

omit [Scalar α] in
theorem stringAt_eq_ok_iff {s : String} :
    stringAt fields key = .ok s ↔ Value.field? fields key = some (.text s) ∧ s ≠ "" := by
  unfold stringAt
  split
  · next found =>
    rw [found]
    split
    · simp_all
    · next full =>
      constructor
      · rintro ⟨⟩
        exact ⟨rfl, full⟩
      · rintro ⟨⟨⟩, -⟩
        rfl
  · simp_all

theorem settings_eq_ok_iff {s : Settings α} :
    settings pivoting workspace = .ok s ↔ HoldsSettings pivoting workspace s := by
  simp only [settings, bind_eq_ok_iff, realAt_eq_ok_iff, intAt_eq_ok_iff, pure_eq_ok_iff]
  constructor
  · rintro ⟨_, h₁, _, h₂, _, h₃, _, h₄, _, h₅, _, h₆, _, h₇, _, h₈, rfl⟩
    exact ⟨h₁, h₂, h₃, h₄, h₅, h₆, h₇, h₈⟩
  · intro h
    exact ⟨_, h.tolerance, _, h.toleranceMax, _, h.qualityExponent, _, h.integerInitFactor, _,
      h.realInitFactor, _, h.growthFactor, _, h.compressionThreshold, _, h.analysisOverestimate, rfl⟩

end Values

end Artifact

namespace Options

variable {α : Type} [Scalar α] {value : Value α} {o : Options α}

theorem ofValue_map (fields : Artifact.Fields α) :
    (ofValue (.map fields) : Except ArtifactFault (Options α)) = (do
      let schema ← Artifact.stringAt fields "schema"
      if schema = optionsSchema then
        let pivoting ← Artifact.mappingAt fields "pivoting"
        let workspace ← Artifact.mappingAt fields "workspace"
        let settings ← Artifact.settings pivoting workspace
        (ofSettings .overrideArtifact settings).mapError .settings
      else .error (.schema schema)) := by
  show (Artifact.stringAt fields "schema" >>= fun schema =>
    if schema ≠ optionsSchema then _ else _) = _
  simp only [ne_eq, ite_not]
  rfl

theorem ofValue_eq_error (root : ∀ fields, value ≠ .map fields) :
    (ofValue value : Except ArtifactFault (Options α)) = .error .rootNotMapping := by
  cases value with
  | map fields => exact absurd rfl (root fields)
  | _ => rfl

theorem mapError_eq_ok_iff {ε ε' β : Type} {f : ε → ε'} {r : Except ε β} {b : β} :
    r.mapError f = .ok b ↔ r = .ok b := by
  constructor
  · exact eq_ok_of_mapError
  · rintro rfl
    rfl

/-- **A value makes options exactly if it is an artifact** whose settings have no fault. -/
theorem ofValue_eq_ok_iff :
    ofValue value = .ok o ↔ Artifact.Holds value o.toSettings ∧ o.source = .overrideArtifact := by
  by_cases root : ∃ fields, value = .map fields
  · obtain ⟨fields, rfl⟩ := root
    rw [ofValue_map, bind_eq_ok_iff]
    constructor
    · rintro ⟨schema, hschema, h⟩
      split at h
      · next known =>
        obtain ⟨pivoting, hpivoting, h⟩ := bind_eq_ok_iff.1 h
        obtain ⟨workspace, hworkspace, h⟩ := bind_eq_ok_iff.1 h
        obtain ⟨settings, hsettings, h⟩ := bind_eq_ok_iff.1 h
        obtain ⟨rfl, source⟩ := ofSettings_eq_ok_iff.1 (mapError_eq_ok_iff.1 h)
        exact ⟨⟨fields, pivoting, workspace, rfl, known ▸ (Artifact.stringAt_eq_ok_iff.1 hschema).1,
          Artifact.mappingAt_eq_ok_iff.1 hpivoting, Artifact.mappingAt_eq_ok_iff.1 hworkspace,
          Artifact.settings_eq_ok_iff.1 hsettings⟩, source⟩
      · cases h
    · rintro ⟨⟨_, pivoting, workspace, same, hschema, hpivoting, hworkspace, hsettings⟩, source⟩
      cases same
      have known : optionsSchema ≠ "" := by decide
      refine ⟨optionsSchema, Artifact.stringAt_eq_ok_iff.2 ⟨hschema, known⟩, ?_⟩
      rw [if_pos rfl]
      refine bind_eq_ok_iff.2 ⟨pivoting, Artifact.mappingAt_eq_ok_iff.2 hpivoting, ?_⟩
      refine bind_eq_ok_iff.2 ⟨workspace, Artifact.mappingAt_eq_ok_iff.2 hworkspace, ?_⟩
      refine bind_eq_ok_iff.2 ⟨o.toSettings, Artifact.settings_eq_ok_iff.2 hsettings, ?_⟩
      exact mapError_eq_ok_iff.2 (ofSettings_eq_ok_iff.2 ⟨rfl, source⟩)
  · rw [ofValue_eq_error fun fields same => root ⟨fields, same⟩]
    constructor
    · nofun
    · rintro ⟨⟨fields, _, _, same, _⟩, -⟩
      exact absurd ⟨fields, same⟩ root

end Options

/-! ## What is wrong with an artifact -/

/-- The fault is one of the value of an artifact. -/
def ArtifactFault.Invalid (fault : ArtifactFault) : Prop :=
  fault.code? = some "E_SOLVER_CONFIG_INVALID"

namespace Artifact

section Faults

variable {α : Type} [Scalar α] {fields pivoting workspace : Fields α} {key : String}

/-- The integers under some keys can be read as real numbers. -/
def BoundedAt (fields : Fields α) (keys : List String) : Prop :=
  ∀ key ∈ keys, ∀ i, Value.field? fields key = some (.int i) →
    Scalar.isFinite (Scalar.ofInt i : α) = true

/-- The keys of the real settings in the first mapping. -/
def pivotingKeys : List String := ["pivot_tolerance", "pivot_tolerance_max", "quality_exponent"]

/-- The keys of the real settings in the second mapping. -/
def workspaceKeys : List String :=
  ["integer_workspace_init_factor", "real_workspace_init_factor", "workspace_growth_factor",
    "analysis_integer_overestimate"]

/-- The integers in an artifact that stand for real settings can be read as such. -/
def Bounded (value : Value α) : Prop :=
  ∀ fields, value = .map fields →
    (∀ pivoting, Value.field? fields "pivoting" = some (.map pivoting) →
      BoundedAt pivoting pivotingKeys) ∧
    ∀ workspace, Value.field? fields "workspace" = some (.map workspace) →
      BoundedAt workspace workspaceKeys

omit [Scalar α] in
theorem invalid_stringAt : FailsOnly ArtifactFault.Invalid (stringAt fields key) := by
  unfold stringAt
  split
  · split
    · exact failsOnly_error rfl
    · exact failsOnly_ok _
  · exact failsOnly_error rfl

omit [Scalar α] in
theorem invalid_mappingAt : FailsOnly ArtifactFault.Invalid (mappingAt fields key) := by
  unfold mappingAt
  split
  · exact failsOnly_ok _
  · exact failsOnly_error rfl

omit [Scalar α] in
theorem invalid_intAt : FailsOnly ArtifactFault.Invalid (intAt fields key) := by
  unfold intAt
  split
  · exact failsOnly_ok _
  · exact failsOnly_error rfl

theorem invalid_realAt {keys : List String} (bounded : BoundedAt fields keys) (hkey : key ∈ keys) :
    FailsOnly ArtifactFault.Invalid (realAt fields key) := by
  unfold realAt
  split
  · exact failsOnly_error rfl
  · next i found =>
    dsimp only
    rw [if_pos (bounded key hkey i found)]
    exact failsOnly_ok _
  · split
    · exact failsOnly_ok _
    · exact failsOnly_error rfl
  · exact failsOnly_error rfl

theorem invalid_settings (hp : BoundedAt pivoting pivotingKeys)
    (hw : BoundedAt workspace workspaceKeys) :
    FailsOnly ArtifactFault.Invalid (settings pivoting workspace) := by
  unfold settings
  refine .bind (invalid_realAt hp (by decide)) fun _ _ => ?_
  refine .bind (invalid_realAt hp (by decide)) fun _ _ => ?_
  refine .bind (invalid_realAt hp (by decide)) fun _ _ => ?_
  refine .bind (invalid_realAt hw (by decide)) fun _ _ => ?_
  refine .bind (invalid_realAt hw (by decide)) fun _ _ => ?_
  refine .bind (invalid_realAt hw (by decide)) fun _ _ => ?_
  refine .bind invalid_intAt fun _ _ => ?_
  refine .bind (invalid_realAt hw (by decide)) fun _ _ => ?_
  exact failsOnly_ok _

end Faults

end Artifact

/-- A value that makes no options is invalid, unless an integer in it is too large. -/
theorem Options.invalid_ofValue {α : Type} [Scalar α] {value : Value α}
    (bounded : Artifact.Bounded value) :
    FailsOnly ArtifactFault.Invalid (Options.ofValue value : Except ArtifactFault (Options α)) := by
  by_cases root : ∃ fields, value = .map fields
  · obtain ⟨fields, rfl⟩ := root
    obtain ⟨hp, hw⟩ := bounded fields rfl
    rw [ofValue_map]
    refine .bind Artifact.invalid_stringAt fun schema _ => ?_
    split
    · refine .bind Artifact.invalid_mappingAt fun pivoting hpivoting => ?_
      refine .bind Artifact.invalid_mappingAt fun workspace hworkspace => ?_
      refine .bind (Artifact.invalid_settings (hp _ (Artifact.mappingAt_eq_ok_iff.1 hpivoting))
        (hw _ (Artifact.mappingAt_eq_ok_iff.1 hworkspace))) fun settings _ => ?_
      intro fault h
      cases checked : ofSettings .overrideArtifact settings with
      | ok o =>
        rw [checked] at h
        cases h
      | error cause =>
        rw [checked] at h
        cases h
        rfl
    · exact failsOnly_error rfl
  · rw [ofValue_eq_error fun fields same => root ⟨fields, same⟩]
    exact failsOnly_error rfl

/-! ## Files -/

theorem File.exists_text {bytes : ByteArray} (h : bytes.IsValidUTF8) :
    ∃ text, (File.content bytes).text? = .ok text := by
  have found : String.fromUTF8? bytes = some (String.fromUTF8 bytes h) := dif_pos h
  refine ⟨File.unifyBreaks (String.fromUTF8 bytes h).toList, ?_⟩
  unfold File.text? File.bytes?
  simp only [found]

namespace Artifact

variable {load : List Char → Except Yaml.Fault (Value Float)} {file : File}

/-- A file is an artifact with these settings, and the solver can be used with them. -/
def Loads (load : List Char → Except Yaml.Fault (Value Float)) (file : File)
    (s : Settings Float) : Prop :=
  ∃ text value, file.text? = .ok text ∧ load text = .ok value ∧ Holds value s ∧ s.Usable

/-- Why a file is no artifact, as the code of its fault has it. -/
inductive Rejects (load : List Char → Except Yaml.Fault (Value Float)) (file : File) :
    String → Prop
  | unread (absent : file = .missing ∨ file = .directory) :
    Rejects load file "E_SOLVER_CONFIG_READ_FAILED"
  | unparsed {text : List Char} {cause : Yaml.Fault} (read : file.text? = .ok text)
    (failed : load text = .error cause) : Rejects load file "E_SOLVER_CONFIG_PARSE_FAILED"
  | invalid {text : List Char} {value : Value Float} (read : file.text? = .ok text)
    (parsed : load text = .ok value) (unusable : ¬ ∃ s, Holds value s ∧ s.Usable) :
    Rejects load file "E_SOLVER_CONFIG_INVALID"

theorem HoldsReal.isFinite {α : Type} [Scalar α] {fields : Fields α} {key : String} {x : α}
    (h : HoldsReal fields key x) {i : Int} (found : Value.field? fields key = some (.int i)) :
    Scalar.isFinite (Scalar.ofInt i : α) = true := by
  obtain ⟨finite, real | ⟨j, int, rfl⟩⟩ := h
  · cases found.symm.trans real
  · cases found.symm.trans int
    exact finite

/-- No integer in an artifact is too large. -/
theorem Holds.bounded {α : Type} [Scalar α] {value : Value α} {s : Settings α}
    (h : Holds value s) : Bounded value := by
  obtain ⟨fields, pivoting, workspace, rfl, -, hp, hw, h⟩ := h
  rintro _ ⟨⟩
  constructor
  · rintro pivoting' hp'
    cases hp.symm.trans hp'
    simp only [BoundedAt, pivotingKeys, List.forall_mem_cons]
    exact ⟨fun _ => h.tolerance.isFinite, fun _ => h.toleranceMax.isFinite,
      fun _ => h.qualityExponent.isFinite, nofun⟩
  · rintro workspace' hw'
    cases hw.symm.trans hw'
    simp only [BoundedAt, workspaceKeys, List.forall_mem_cons]
    exact ⟨fun _ => h.integerInitFactor.isFinite, fun _ => h.realInitFactor.isFinite,
      fun _ => h.growthFactor.isFinite, fun _ => h.analysisOverestimate.isFinite, nofun⟩

/-- The numbers in an artifact are finite. -/
theorem Holds.finite {α : Type} [Scalar α] {value : Value α} {s : Settings α} (h : Holds value s) :
    ∀ factor ∈ s.factors, Scalar.isFinite factor = true := by
  obtain ⟨_, _, _, -, -, -, -, h⟩ := h
  simp only [Settings.factors, Settings.analysisFactors, List.forall_mem_cons]
  exact ⟨h.growthFactor.1, h.analysisOverestimate.1, h.integerInitFactor.1, h.realInitFactor.1,
    List.forall_mem_nil _⟩

end Artifact

namespace Options

open Artifact

variable {load : List Char → Except Yaml.Fault (Value Float)} {file : File}

/-- A value makes options exactly if it is an artifact with usable settings. -/
theorem exists_ofValue_iff {value : Value Float} {s : Settings Float} :
    (∃ o, ofValue value = .ok o ∧ o.toSettings = s) ↔ Holds value s ∧ s.Usable := by
  constructor
  · rintro ⟨o, made, rfl⟩
    obtain ⟨holds, -⟩ := ofValue_eq_ok_iff.1 made
    exact ⟨holds, (Settings.fault?_eq_none_iff_usable holds.finite).1 o.valid⟩
  · rintro ⟨holds, usable⟩
    exact ⟨⟨s, .overrideArtifact, (Settings.fault?_eq_none_iff_usable holds.finite).2 usable⟩,
      ofValue_eq_ok_iff.2 ⟨holds, rfl⟩, rfl⟩

/-- What options in a file are made of. -/
theorem ofFileWith_eq_ok_iff {o : Options Float} : ofFileWith load file = .ok o ↔
    ∃ text value, file.text? = .ok text ∧ load text = .ok value ∧ ofValue value = .ok o := by
  unfold ofFileWith
  simp only [bind_eq_ok_iff, mapError_eq_ok_iff]
  grind

theorem ofFileWith_of_text {text : List Char} (read : file.text? = .ok text) :
    ofFileWith load file = ((load text).mapError .text >>= ofValue) := by
  unfold ofFileWith
  rw [read]
  rfl

/-- **A file is loaded, or refused with a code**, if it is encoded properly and has no integer that
is too large. -/
theorem ofFileWith_cases
    (encoded : ∀ bytes, file = .content bytes → bytes.IsValidUTF8)
    (yaml : ∀ text cause, file.text? = .ok text → load text ≠ .error (.value cause))
    (bounded : ∀ text value, file.text? = .ok text → load text = .ok value → Bounded value) :
    (∃ o, ofFileWith load file = .ok o ∧ Loads load file o.toSettings) ∨
      ∃ fault code, ofFileWith load file = .error fault ∧ fault.code? = some code ∧
        Rejects load file code := by
  cases file with
  | missing => exact .inr ⟨.file .missing, _, rfl, rfl, .unread (.inl rfl)⟩
  | directory => exact .inr ⟨.file .directory, _, rfl, rfl, .unread (.inr rfl)⟩
  | content bytes =>
    obtain ⟨text, read⟩ := File.exists_text (encoded bytes rfl)
    rw [ofFileWith_of_text read]
    cases parsed : load text with
    | error cause =>
      refine .inr ⟨.text cause, "E_SOLVER_CONFIG_PARSE_FAILED", rfl, ?_, .unparsed read parsed⟩
      cases cause with
      | value cause => exact absurd parsed (yaml text cause read)
      | _ => rfl
    | ok value =>
      show (∃ o, ofValue value = .ok o ∧ _) ∨ ∃ fault code, ofValue value = .error fault ∧ _
      cases made : (ofValue value : Except ArtifactFault (Options Float)) with
      | ok o =>
        obtain ⟨holds, usable⟩ := exists_ofValue_iff.1 ⟨o, made, rfl⟩
        exact .inl ⟨o, rfl, text, value, read, parsed, holds, usable⟩
      | error fault =>
        refine .inr ⟨fault, _, rfl, invalid_ofValue (bounded text value read parsed) fault made,
          .invalid read parsed ?_⟩
        rintro ⟨s, usable⟩
        obtain ⟨o, made', -⟩ := exists_ofValue_iff.2 usable
        cases made.symm.trans made'

end Options

/-! ## The command line -/

namespace CommandLine

/-- The command line reports that the artifact at a path is invalid, whatever it is asked. -/
structure ReportsInvalid (files : Files) (path : String) : Prop where
  shown : ∃ message, (Answer.ofRequest files (.options (some path)) : Answer Float) =
    .optionsRefused message
  solved : ∀ r : SolveRequest, r.options = some path → ∃ report event,
    (Answer.ofRequest files (.solve r) : Answer Float) = .solved r report ∧
      report.diagnostics = [event] ∧ event.code = "E_CLI_OPTIONS_INVALID"
  exits : ∀ request : Request, (request = .options (some path) ∨
      ∃ r : SolveRequest, r.options = some path ∧ request = .solve r) →
    (Answer.ofRequest files request : Answer Float).exitCode = 2

theorem append_ne_empty {a b : String} (h : a ≠ "") : a ++ b ≠ "" :=
  fun empty => h (String.append_eq_empty_iff.1 empty).1

theorem text_ne_empty (fault : SettingsFault) : fault.text ≠ "" := by
  cases fault <;> decide

/-- A fault with a code has a text. -/
theorem optionsText_ne_empty {path : String} {fault : ArtifactFault} {code : String}
    (coded : fault.code? = some code) : InputFault.optionsText path fault ≠ "" := by
  cases fault with
  | file cause => exact append_ne_empty (append_ne_empty (append_ne_empty (by decide)))
  | text cause => exact append_ne_empty (append_ne_empty (append_ne_empty (by decide)))
  | rootNotMapping => exact (by decide : "linear solver options artifact root must be a mapping" ≠ "")
  | schema found => exact append_ne_empty (append_ne_empty (append_ne_empty (append_ne_empty
      (by decide))))
  | tooLarge key => cases coded
  | settings cause => exact text_ne_empty cause
  | _ => exact append_ne_empty (append_ne_empty (by decide))

theorem loadOptions_of_error {files : Files} {path : String} {fault : ArtifactFault} {code : String}
    (failed : (Options.ofFile (files (artifactPath path)) : Except _ (Options Float)) = .error fault)
    (coded : fault.code? = some code) :
    (loadOptions (some path) files : Except LoadFault (Options Float)) =
      .error (.reported (.options path fault)) := by
  show Except.mapError (LoadFault.ofArtifact path) (Options.ofFile _) = _
  rw [failed]
  show Except.error (LoadFault.ofArtifact path fault) = _
  unfold LoadFault.ofArtifact
  rw [coded]

/-- A fault with a text is reported as an error of its code. -/
theorem exists_reportFault {fault : InputFault} (text : fault.text ≠ "") :
    ∃ report event, (reportFault fault : Except Abort (SolveReport Float)) = .ok report ∧
      report.outcome = .fatalError ∧ report.diagnostics = [event] ∧ event.code = fault.code := by
  obtain ⟨event, built, told, -⟩ := build_faultRequest (α := Float) text
  unfold reportFault
  dsimp only
  split
  · next failed => cases failed.symm.trans built
  · next built' =>
    cases built'.symm.trans built
    exact ⟨_, event, rfl, rfl, rfl, told⟩

/-- **A fault with a code is reported**, and ends the run with the exit code 2. -/
theorem reportsInvalid_of_error {files : Files} {path : String} {fault : ArtifactFault}
    {code : String}
    (failed : (Options.ofFile (files (artifactPath path)) : Except _ (Options Float)) = .error fault)
    (coded : fault.code? = some code) : ReportsInvalid files path := by
  have loaded := loadOptions_of_error failed coded
  have shown : (Answer.ofRequest files (.options (some path)) : Answer Float) =
      .optionsRefused (InputFault.options path fault).text := by
    unfold Answer.ofRequest
    simp only [loaded]
  have solved (r : SolveRequest) (asked : r.options = some path) : ∃ report event,
      (Answer.ofRequest files (.solve r) : Answer Float) = .solved r report ∧
        report.outcome = .fatalError ∧ report.diagnostics = [event] ∧
        event.code = "E_CLI_OPTIONS_INVALID" := by
    obtain ⟨report, event, reported, outcome, single, told⟩ :=
      @exists_reportFault (.options path fault) (optionsText_ne_empty coded)
    have answered : (Answer.reportFor r files : Except Abort (SolveReport Float)) =
        reportFault (.options path fault) := by
      unfold Answer.reportFor
      rw [asked, loaded]
      rfl
    refine ⟨report, event, ?_, outcome, single, told⟩
    unfold Answer.ofRequest
    simp only [answered, reported]
  constructor
  · exact ⟨_, shown⟩
  · intro r asked
    obtain ⟨report, event, answered, -, told⟩ := solved r asked
    exact ⟨report, event, answered, told⟩
  · rintro _ (rfl | ⟨r, asked, rfl⟩)
    · rw [shown]
      rfl
    · obtain ⟨report, event, answered, outcome, -⟩ := solved r asked
      rw [answered]
      exact congrArg Outcome.exitCode outcome

end CommandLine

/-! ## Loading -/

namespace Options

open Artifact CommandLine

/-- **Options are loaded, or the loading fails with a code** that the command line reports. This
takes a file that is encoded properly, and no integer in it that is too large where a real number
is expected. -/
theorem loads_or_reports {load : List Char → Except Yaml.Fault (Value Float)} {file : File}
    (encoded : ∀ bytes, file = .content bytes → bytes.IsValidUTF8)
    (yaml : ∀ text cause, file.text? = .ok text → load text ≠ .error (.value cause))
    (bounded : ∀ text value, file.text? = .ok text → load text = .ok value → Bounded value) :
    (∃ o, ofFileWith load file = .ok o ∧ Loads load file o.toSettings) ∨
      ∃ fault code, ofFileWith load file = .error fault ∧ fault.code? = some code ∧
        Rejects load file code ∧ ∀ (files : Files) (path : String),
          (ofFile (files (artifactPath path)) : Except _ (Options Float)) = .error fault →
            ReportsInvalid files path := by
  rcases ofFileWith_cases encoded yaml bounded with loads | ⟨fault, code, failed, coded, rejects⟩
  · exact .inl loads
  · exact .inr ⟨fault, code, failed, coded, rejects, fun files path found =>
      reportsInvalid_of_error found coded⟩

/-- The text of the standard options. -/
def standardText : String :=
  "schema: linear_solver_options_v1\npivoting:\n  pivot_tolerance: 1.0e-8\n" ++
    "  pivot_tolerance_max: 1.0e-4\n  quality_exponent: 0.75\nworkspace:\n" ++
    "  integer_workspace_init_factor: 5\n  real_workspace_init_factor: 5.0\n" ++
    "  workspace_growth_factor: 10.0\n  compression_count_threshold: 10\n" ++
    "  analysis_integer_overestimate: 2.0\n"

/-- The file with that text. -/
def standardArtifact : File := .content standardText.toUTF8

/-- The value of that text. -/
def standardValue : Value Float :=
  let usual : Settings Float := .standard
  .map [
    ("schema", .text optionsSchema),
    ("pivoting", .map [
      ("pivot_tolerance", .real usual.tolerance),
      ("pivot_tolerance_max", .real usual.toleranceMax),
      ("quality_exponent", .real usual.qualityExponent)]),
    ("workspace", .map [
      ("integer_workspace_init_factor", .int 5),
      ("real_workspace_init_factor", .real usual.realInitFactor),
      ("workspace_growth_factor", .real usual.growthFactor),
      ("compression_count_threshold", .int 10),
      ("analysis_integer_overestimate", .real usual.analysisOverestimate)])]

theorem loads_or_reports_standardArtifact :
    ∃ o : Options Float, ofFileWith (fun _ => .ok standardValue) standardArtifact = .ok o ∧
      Loads (fun _ => .ok standardValue) standardArtifact o.toSettings := by
  obtain ⟨o, made⟩ : ∃ o : Options Float, ofValue standardValue = .ok o := by
    have loaded : (ofValue standardValue : Except ArtifactFault (Options Float)).isOk = true := by
      decide +kernel
    unfold Except.isOk Except.toBool at loaded
    split at loaded
    · next o made => exact ⟨o, made⟩
    · cases loaded
  have valid : standardText.toUTF8.IsValidUTF8 := standardText.isValidUTF8
  have encoded : ∀ bytes, standardArtifact = .content bytes → bytes.IsValidUTF8 := by
    rintro _ ⟨⟩
    exact valid
  obtain ⟨text, read⟩ := File.exists_text valid
  refine (loads_or_reports encoded ?_ ?_).resolve_right ?_
  · intro _ _ _ failed
    cases failed
  · intro _ _ _ parsed
    cases parsed
    exact (ofValue_eq_ok_iff.1 made).1.bounded
  · rintro ⟨fault, _, failed, -⟩
    cases failed.symm.trans (ofFileWith_eq_ok_iff.2 ⟨text, _, read, rfl, made⟩)

/-- Bytes that are not UTF-8 are neither loaded nor reported. -/
theorem undecodable_escapes :
    let file : File := .content ⟨#[0xff]⟩
    ¬ ((∃ o, (ofFile file : Except _ (Options Float)) = .ok o) ∨
      ∃ fault code, (ofFile file : Except _ (Options Float)) = .error fault ∧
        fault.code? = some code) ∧
      (Answer.ofRequest (fun _ => file) (.options (some "o.yaml")) : Answer Float).exitCode = 1 := by
  have failed : (ofFile (.content ⟨#[0xff]⟩) : Except _ (Options Float)) =
      .error (.file .encoding) := rfl
  refine ⟨?_, rfl⟩
  rintro (⟨o, loaded⟩ | ⟨fault, code, failed', coded⟩)
  · cases failed.symm.trans loaded
  · cases failed.symm.trans failed'
    cases coded

end Options

end SymSolve
