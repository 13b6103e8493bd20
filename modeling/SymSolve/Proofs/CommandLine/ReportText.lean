import SymSolve.CommandLine.Report
import SymSolve.Pieces
import SymSolve.Proofs.Diagnostic.Event
import SymSolve.Proofs.Json.RoundTrip

/-!
# The text of a report

**Theorem (`text_tells_records`).** The text of a report has a line for its outcome, one for the
residual and one for each component of a solution, and for each diagnostic as many lines as its code
and its message have line feeds, and one more. What stands in front of the diagnostics can always be
read back. Severity, stage and code of the diagnostics can be read back, too, if no code and no
message has a line feed and no code holds the mark that begins the message.

Without these conditions a message can hold what looks like further records (`text_absorb`): every
report with two diagnostics prints like one in which the first message goes on with the record of
the second. The program does print messages of several lines (`line_feed_forges_record`).

Lines are read by the marks between their fields (`Told.ofLine?`). A field ends where the mark after
it begins for the first time, so it reads back exactly if it does not hold that mark
(`dropInfix?_mark_iff`).
-/

namespace SymSolve

/-! ## Lines -/

theorem textLines_cons {c : Char} (plain : c ≠ '\n') {cs line : List Char} {rest : List (List Char)}
    (h : textLines cs = line :: rest) : textLines (c :: cs) = (c :: line) :: rest := by
  unfold textLines at h ⊢
  rw [List.foldr_cons, if_neg plain, h]

/-- What begins a text without a line feed begins its first line. -/
theorem exists_textLines_append {front : List Char} (plain : '\n' ∉ front) (cs : List Char) :
    ∃ line rest, textLines (front ++ (cs ++ ['\n'])) = (front ++ line) :: rest := by
  induction front with
  | nil =>
    induction cs with
    | nil => exact ⟨[], [], rfl⟩
    | cons c cs ih =>
      obtain ⟨line, rest, h⟩ := ih
      by_cases feed : c = '\n'
      · subst feed
        exact ⟨[], _, rfl⟩
      · exact ⟨c :: line, rest, textLines_cons feed h⟩
  | cons c front ih =>
    rw [List.mem_cons, not_or] at plain
    obtain ⟨line, rest, h⟩ := ih plain.2
    exact ⟨line, rest, textLines_cons (Ne.symm plain.1) h⟩

theorem textLines_append (a b : List Char) :
    textLines (a ++ '\n' :: b) = textLines (a ++ ['\n']) ++ textLines b := by
  induction a with
  | nil => rfl
  | cons c a ih =>
    by_cases feed : c = '\n'
    · subst feed
      exact congrArg ([] :: ·) ih
    · obtain ⟨line, rest, h⟩ := exists_textLines_append List.not_mem_nil a
      have whole : textLines (a ++ '\n' :: b) = line :: (rest ++ textLines b) := by
        rw [ih]
        exact congrArg (· ++ textLines b) h
      exact (textLines_cons feed whole).trans
        (congrArg (· ++ textLines b) (textLines_cons feed h).symm)

/-- A record takes one line more than it has line feeds. -/
theorem length_textLines (cs : List Char) :
    (textLines (cs ++ ['\n'])).length = cs.count '\n' + 1 := by
  induction cs with
  | nil => rfl
  | cons c cs ih =>
    by_cases feed : c = '\n'
    · subst feed
      rw [List.count_cons_self, ← ih]
      rfl
    · obtain ⟨line, rest, h⟩ := exists_textLines_append List.not_mem_nil cs
      have longer : textLines (c :: cs ++ ['\n']) = (c :: line) :: rest := textLines_cons feed h
      have whole : textLines (cs ++ ['\n']) = line :: rest := h
      rw [List.count_cons_of_ne feed, ← ih, longer, whole]
      rfl

theorem textLines_of_notMem {cs : List Char} (plain : '\n' ∉ cs) :
    textLines (cs ++ ['\n']) = [cs] := by
  induction cs with
  | nil => rfl
  | cons c cs ih =>
    rw [List.mem_cons, not_or] at plain
    exact textLines_cons (Ne.symm plain.1) (ih plain.2)

/-- The lines of records are those of each record. -/
theorem textLines_flatMap (records : List (List Char)) :
    textLines (records.flatMap (· ++ ['\n'])) =
      records.flatMap fun record => textLines (record ++ ['\n']) := by
  induction records with
  | nil => rfl
  | cons record records ih =>
    rw [List.flatMap_cons, List.flatMap_cons, List.append_assoc, ← ih]
    exact textLines_append record _

theorem flatMap_textLines {records : List (List Char)} (plain : ∀ record ∈ records, '\n' ∉ record) :
    (records.flatMap fun record => textLines (record ++ ['\n'])) = records := by
  refine Eq.trans (List.flatMap_congr fun record member => ?_) (List.flatMap_singleton' records)
  exact textLines_of_notMem (plain record member)

/-! ## Marks -/

/-- A mark begins with its only blank. -/
def IsMark (mark : List Char) : Prop := mark.head? = some ' ' ∧ ' ' ∉ mark.tail

instance (mark : List Char) : Decidable (IsMark mark) := inferInstanceAs (Decidable (_ ∧ _))

/-- **A field ends at the first mark**: what stands before a mark is read back exactly if it does
not hold the mark itself. -/
theorem dropInfix?_mark_iff {mark : List Char} (h : IsMark mark) (field after : List Char) :
    (field ++ (mark ++ after)).dropInfix? mark = some (field, after) ↔ ¬ mark <:+: field := by
  obtain ⟨opens, fresh⟩ := h
  obtain ⟨rest, rfl⟩ : ∃ rest, mark = ' ' :: rest := List.head?_eq_some_iff.1 opens
  rw [List.tail_cons] at fresh
  rw [List.dropInfix?_eq_some_iff]
  constructor
  · rintro ⟨-, first⟩ ⟨front, back, rfl⟩
    have shorter := first front (' ' :: rest) (back ++ (' ' :: rest ++ after)) (by simp) BEq.rfl
    simp only [List.length_append, List.length_cons] at shorter
    omega
  · intro absent
    refine ⟨⟨' ' :: rest, by simp, BEq.rfl⟩, ?_⟩
    intro front mark back same equal
    obtain rfl : mark = ' ' :: rest := eq_of_beq equal
    by_contra early
    rw [ge_iff_le, Nat.not_le] at early
    -- an earlier mark begins inside of the field, and ends there or in the mark behind it
    obtain ⟨tail, rfl⟩ : front <+: field :=
      List.prefix_of_prefix_length_le ⟨_, (List.append_assoc ..).symm.trans same.symm⟩
        (List.prefix_append ..) (Nat.le_of_lt early)
    rw [List.append_assoc, List.append_assoc, List.append_cancel_left_eq] at same
    rcases List.prefix_or_prefix_of_prefix (List.prefix_append tail _)
      (same ▸ List.prefix_append (' ' :: rest) back) with inside | outside
    · obtain ⟨surplus, own⟩ := inside
      cases tail with
      | nil => simp at early
      | cons d tail =>
        obtain ⟨rfl, rfl⟩ := List.cons.inj own
        cases surplus with
        | nil => exact absent ⟨front, [], by simp⟩
        | cons e surplus =>
          have head : e = ' ' := by simp_all
          exact fresh (head ▸ by simp)
    · obtain ⟨more, rfl⟩ := outside
      exact absent ⟨front, more, by simp⟩

/-- A field without blanks ends at the mark. -/
theorem dropInfix?_mark {mark field : List Char} (h : IsMark mark) (plain : ' ' ∉ field)
    (after : List Char) : (field ++ (mark ++ after)).dropInfix? mark = some (field, after) := by
  refine (dropInfix?_mark_iff h field after).2 fun inside => plain (inside.subset ?_)
  exact List.mem_of_mem_head? h.1

theorem dropPrefix?_append (mark rest : List Char) : (mark ++ rest).dropPrefix? mark = some rest :=
  List.dropPrefix?_append_of_beq rest BEq.rfl

/-! ## Numbers -/

open Json

theorem notMem_of_arePrintable {cs : List Char} (h : ArePrintable cs) : '\n' ∉ cs :=
  fun feed => absurd (h _ feed) (by decide)

theorem arePrintable_append {a b : List Char} :
    ArePrintable (a ++ b) ↔ ArePrintable a ∧ ArePrintable b :=
  List.forall_mem_append

namespace Decimal

theorem arePrintable_zeros (k : Nat) : ArePrintable (List.replicate k '0') := by
  intro c member
  rw [List.eq_of_mem_replicate member]
  decide

theorem arePrintable_trimZeros {digits : List Char} (h : ArePrintable digits) :
    ArePrintable (trimZeros digits) := by
  unfold trimZeros
  split
  · decide
  · intro c member
    have kept : c ∈ digits.reverse.dropWhile (· = '0') := List.mem_reverse.1 member
    exact h c (List.mem_reverse.1 ((List.dropWhile_sublist _).subset kept))

theorem arePrintable_pointAfter {digits : List Char} (h : ArePrintable digits) (whole : Nat) :
    ArePrintable (pointAfter whole digits) := by
  unfold pointAfter
  split
  · exact h
  · refine arePrintable_append.2 ⟨fun c member => h c (List.mem_of_mem_take member), ?_⟩
    refine List.forall_mem_cons.2 ⟨by decide, fun c member => h c (List.mem_of_mem_drop member)⟩

theorem arePrintable_exponentChars (power : Int) : ArePrintable (exponentChars power) := by
  have digits : ArePrintable (natChars power.natAbs) := arePrintable_digits (isDigits_toDigits _)
  unfold exponentChars
  refine List.forall_mem_cons.2 ⟨by decide, List.forall_mem_cons.2 ⟨?_, ?_⟩⟩
  · split <;> decide
  · split
    · exact List.forall_mem_cons.2 ⟨by decide, digits⟩
    · exact digits

theorem arePrintable_arrange (layout : Layout) {digits : List Char} (h : ArePrintable digits)
    (power : Int) : ArePrintable (layout.arrange digits power) := by
  have kept : ArePrintable (if layout.trailingZeros then digits else trimZeros digits) := by
    split
    · exact h
    · exact arePrintable_trimZeros h
  unfold Layout.arrange
  dsimp only
  generalize (if layout.trailingZeros then digits else trimZeros digits) = digits at *
  have withExponent : ArePrintable (pointAfter 1 digits ++ exponentChars power) :=
    arePrintable_append.2 ⟨arePrintable_pointAfter kept 1, arePrintable_exponentChars power⟩
  split
  · exact withExponent
  · split_ifs
    · exact withExponent
    · exact List.forall_mem_cons.2 ⟨by decide, List.forall_mem_cons.2 ⟨by decide,
        arePrintable_append.2 ⟨arePrintable_zeros _, kept⟩⟩⟩
    · exact arePrintable_append.2 ⟨arePrintable_append.2 ⟨kept, arePrintable_zeros _⟩, by decide⟩
    · exact arePrintable_append.2 ⟨arePrintable_append.2 ⟨kept, arePrintable_zeros _⟩, by decide⟩
    · exact arePrintable_pointAfter kept _

/-- **A written double is printable**, in every layout. -/
theorem arePrintable_write (layout : Layout) (x : Float) :
    ArePrintable (layout.write x).toList := by
  have magnitude (m : Nat) (e : Int) : ArePrintable (layout.magnitude m e) := by
    unfold Layout.magnitude
    split
    · exact arePrintable_arrange layout (arePrintable_zeros _) 0
    · exact arePrintable_arrange layout (arePrintable_digits (isDigits_toDigits _)) _
  unfold Layout.write
  split
  · decide
  · split <;> decide
  · next negative m e _ =>
    rw [String.toList_ofList]
    split
    · exact List.forall_mem_cons.2 ⟨by decide, magnitude m e⟩
    · exact magnitude m e

end Decimal

theorem arePrintable_natText (n : Nat) : ArePrintable (toString n).toList := by
  rw [Nat.toString_eq_repr, Nat.toList_repr]
  exact arePrintable_digits (isDigits_toDigits n)

theorem arePrintable_intText (i : Int) : ArePrintable (toString i).toList := by
  cases i with
  | ofNat n => exact arePrintable_natText n
  | negSucc n =>
    have text : (toString (Int.negSucc n)).toList = '-' :: (toString (n + 1)).toList := by
      show ("-" ++ toString (n + 1)).toList = _
      rw [String.toList_append]
      rfl
    rw [text]
    exact List.forall_mem_cons.2 ⟨by decide, arePrintable_natText (n + 1)⟩

/-! ## What lines tell -/

namespace CommandLine

/-- What a line of a report tells. -/
inductive Told where
  | outcome (outcome : Outcome)
  | residual
  | component (index : Nat)
  | diagnostic (severity : Severity) (stage : Stage) (code : String)
  deriving DecidableEq

namespace Told

/-- The outcome in a line. -/
def outcome? (line : List Char) : Option Told := do
  let fields ← line.dropPrefix? "SOLVE outcome=".toList
  let name ← fields.dropInfix? " neg_eigenvalues=".toList
  (Outcome.ofName? (String.ofList name.1)).map outcome

/-- A residual, of which only its presence is read. -/
def residual? (line : List Char) : Option Told :=
  (line.dropPrefix? "RESIDUAL ".toList).map fun _ => residual

/-- The index of a component in a line. -/
def component? (line : List Char) : Option Told := do
  let fields ← line.dropPrefix? "X index=".toList
  let index ← fields.dropInfix? " value=".toList
  if IsDigits index.1 then some (component (natOfDigits index.1)) else none

/-- Severity, stage and code of a diagnostic in a line. -/
def diagnostic? (line : List Char) : Option Told := do
  let fields ← line.dropPrefix? "DIAG severity=".toList
  let severity ← fields.dropInfix? " stage=".toList
  let stage ← severity.2.dropInfix? " code=".toList
  let code ← stage.2.dropInfix? " message=".toList
  return diagnostic (← Severity.ofName? (String.ofList severity.1))
    (← Stage.ofName? (String.ofList stage.1)) (String.ofList code.1)

/-- What a line tells, by the word that it begins with. -/
def ofLine? (line : List Char) : Option Told :=
  match line with
  | 'S' :: _ => outcome? line
  | 'R' :: _ => residual? line
  | 'X' :: _ => component? line
  | 'D' :: _ => diagnostic? line
  | _ => none

end Told

end CommandLine

/-! ## Records -/

namespace Event

variable {α : Type}

/-- The code and the message of a diagnostic, which can be any text. -/
def freeText (e : Event α) : List Char := e.code.toList ++ e.message.toList

/-- How many line feeds there are in them. -/
def breaks (e : Event α) : Nat := e.freeText.count '\n'

/-- Whether the record of a diagnostic can be read back: it is one line, and the first mark of a
message in it begins the message. -/
def Plain (e : Event α) : Prop := e.breaks = 0 ∧ ¬ " message=".toList <:+: e.code.toList

/-- What is read back from the record of a diagnostic. -/
def toTold (e : Event α) : CommandLine.Told := .diagnostic e.severity e.stage e.code

end Event

namespace CommandLine

open SolveReport

theorem toList_outcomeRecord (r : SolveReport Float) : (outcomeRecord r).toList =
    "SOLVE outcome=".toList ++ (r.outcome.name.toList ++
      (" neg_eigenvalues=".toList ++ ((r.negative.map toString).getD "n/a").toList)) := by
  unfold outcomeRecord
  simp only [String.toList_append, List.append_assoc]
  rfl

theorem toList_componentRecord (index : Nat) (x : Float) : (componentRecord index x).toList =
    "X index=".toList ++ (Nat.toDigits 10 index ++
      (" value=".toList ++ (numberText (some x)).toList)) := by
  unfold componentRecord
  simp only [String.toList_append, List.append_assoc, Nat.toString_eq_repr, Nat.toList_repr]
  rfl

theorem toList_residualRecord (r : SolveReport Float) : (residualRecord r).toList =
    "RESIDUAL ".toList ++ ("res_l2=".toList ++ ((numberText r.euclidean).toList ++
      (" res_linf=".toList ++ ((numberText r.largest).toList ++
        (" res_rel=".toList ++ (numberText r.relative).toList))))) := by
  unfold residualRecord
  simp only [String.toList_append, List.append_assoc]
  rfl

theorem toList_diagnosticRecord {α : Type} (e : Event α) : (diagnosticRecord e).toList =
    "DIAG severity=".toList ++ (e.severity.name.toList ++ (" stage=".toList ++
      (e.stage.name.toList ++ (" code=".toList ++ (e.code.toList ++
        (" message=".toList ++ e.message.toList)))))) := by
  unfold diagnosticRecord
  simp only [String.toList_append, List.append_assoc]
  rfl

theorem arePrintable_numberText (x : Option Float) : ArePrintable (numberText x).toList := by
  cases x with
  | none => decide
  | some x => exact Decimal.arePrintable_write _ x

theorem arePrintable_outcomeRecord (r : SolveReport Float) :
    ArePrintable (outcomeRecord r).toList := by
  have name : ArePrintable r.outcome.name.toList := by
    cases r.outcome <;> decide
  have negative : ArePrintable ((r.negative.map toString).getD "n/a").toList := by
    cases r.negative with
    | none => decide
    | some i => exact arePrintable_intText i
  rw [toList_outcomeRecord]
  simp only [arePrintable_append]
  exact ⟨by decide, name, by decide, negative⟩

theorem arePrintable_residualRecord (r : SolveReport Float) :
    ArePrintable (residualRecord r).toList := by
  rw [toList_residualRecord]
  simp only [arePrintable_append]
  exact ⟨by decide, by decide, arePrintable_numberText _, by decide, arePrintable_numberText _,
    by decide, arePrintable_numberText _⟩

theorem arePrintable_componentRecord (index : Nat) (x : Float) :
    ArePrintable (componentRecord index x).toList := by
  rw [toList_componentRecord]
  simp only [arePrintable_append]
  have digits := arePrintable_digits (isDigits_toDigits index)
  exact ⟨by decide, digits, by decide, arePrintable_numberText _⟩

theorem count_diagnosticRecord {α : Type} (e : Event α) :
    (diagnosticRecord e).toList.count '\n' = e.breaks := by
  have severity : e.severity.name.toList.count '\n' = 0 := by cases e.severity <;> decide
  have stage : e.stage.name.toList.count '\n' = 0 := by cases e.stage <;> decide
  rw [toList_diagnosticRecord, Event.breaks, Event.freeText]
  simp only [List.count_append, severity, stage]
  have marks : "DIAG severity=".toList.count '\n' = 0 ∧ " stage=".toList.count '\n' = 0 ∧
      " code=".toList.count '\n' = 0 ∧ " message=".toList.count '\n' = 0 := by decide
  omega

namespace Told

theorem ofLine?_outcomeRecord (r : SolveReport Float) :
    ofLine? (outcomeRecord r).toList = some (.outcome r.outcome) := by
  have plain : ' ' ∉ r.outcome.name.toList := by cases r.outcome <;> decide
  have name : Outcome.ofName? r.outcome.name = some r.outcome := by cases r.outcome <;> rfl
  rw [toList_outcomeRecord]
  show outcome? _ = _
  rw [outcome?, dropPrefix?_append, Option.bind_eq_bind, Option.bind_some,
    dropInfix?_mark (by decide) plain]
  simp [name]

theorem ofLine?_residualRecord (r : SolveReport Float) :
    ofLine? (residualRecord r).toList = some .residual := by
  rw [toList_residualRecord]
  show residual? _ = _
  rw [residual?, dropPrefix?_append]
  rfl

theorem ofLine?_componentRecord (index : Nat) (x : Float) :
    ofLine? (componentRecord index x).toList = some (.component index) := by
  have digits : IsDigits (Nat.toDigits 10 index) := isDigits_toDigits index
  have value : natOfDigits (Nat.toDigits 10 index) = index := Nat.ofDigitChars_ten_toDigits
  have plain : ' ' ∉ Nat.toDigits 10 index := fun blank => absurd (digits.2 _ blank) (by decide)
  rw [toList_componentRecord]
  show component? _ = _
  rw [component?, dropPrefix?_append, Option.bind_eq_bind, Option.bind_some,
    dropInfix?_mark (by decide) plain]
  simp [digits, value]

/-- The code of a diagnostic is read up to the first mark of a message. -/
theorem ofLine?_diagnosticRecord {α : Type} (e : Event α) : ofLine? (diagnosticRecord e).toList =
    ((e.code.toList ++ (" message=".toList ++ e.message.toList)).dropInfix? " message=".toList).map
      fun found => diagnostic e.severity e.stage (String.ofList found.1) := by
  have severity : ' ' ∉ e.severity.name.toList := by cases e.severity <;> decide
  have stage : ' ' ∉ e.stage.name.toList := by cases e.stage <;> decide
  rw [toList_diagnosticRecord]
  show diagnostic? _ = _
  rw [diagnostic?, dropPrefix?_append, Option.bind_eq_bind, Option.bind_some,
    dropInfix?_mark (by decide) severity, Option.bind_eq_bind, Option.bind_some,
    dropInfix?_mark (by decide) stage]
  simp only [Option.bind_eq_bind, Option.bind_some, String.ofList_toList, Severity.ofName?_name,
    Stage.ofName?_name, Option.map_eq_bind]
  rfl

/-- A diagnostic is read back exactly if its code does not hold the mark of a message. -/
theorem ofLine?_diagnosticRecord_iff {α : Type} (e : Event α) :
    ofLine? (diagnosticRecord e).toList = some e.toTold ↔
      ¬ " message=".toList <:+: e.code.toList := by
  rw [ofLine?_diagnosticRecord, Option.map_eq_some_iff,
    ← dropInfix?_mark_iff (by decide) e.code.toList e.message.toList]
  constructor
  · rintro ⟨⟨code, message⟩, found, same⟩
    obtain rfl : code = e.code.toList := by
      have own : String.ofList code = e.code := by simpa [Event.toTold] using same
      rw [← own, String.toList_ofList]
    -- if the code is what was found, then the message is what is left of the line
    obtain ⟨⟨mark, whole, equal⟩, -⟩ := List.dropInfix?_eq_some_iff.1 found
    obtain rfl : mark = " message=".toList := eq_of_beq equal
    rw [List.append_assoc, List.append_cancel_left_eq, List.append_cancel_left_eq] at whole
    rw [found, ← whole]
  · exact fun found => ⟨_, found, by simp [Event.toTold]⟩

/-- Whether a line begins a diagnostic. -/
def opensDiagnostic (line : List Char) : Bool := "DIAG ".toList.isPrefixOf line

end Told

/-! ## Lines of a report -/

namespace SolveReport

section Text

variable {α : Type} [Printable α] (r : SolveReport α)

/-- The lines of a report. -/
def lines : List (List Char) := textLines r.text.toList

/-- The records in front of the diagnostics. -/
def front : List String := outcomeRecord r :: solutionRecords r

theorem records_eq : r.records = r.front ++ r.diagnostics.map diagnosticRecord := rfl

theorem toList_text :
    r.text.toList = (r.records.map String.toList).flatMap (· ++ ['\n']) := by
  unfold text
  rw [String.toList_join, List.flatMap_map, List.flatMap_map]
  simp only [String.toList_append]
  rfl

/-- The lines of a report are those of its records. -/
theorem lines_eq_flatMap : r.lines = (r.records.map String.toList).flatMap fun record =>
    textLines (record ++ ['\n']) := by
  rw [lines, toList_text, textLines_flatMap]

end Text

variable (r : SolveReport Float)

/-- How many records a report has. -/
def recordCount : Nat := 1 + (r.solution.map fun x => 1 + x.length).getD 0 + r.diagnostics.length

/-- What is read back from the records in front of the diagnostics. -/
def toldFront : List Told :=
  .outcome r.outcome :: (r.solution.map fun x =>
    .residual :: (List.range x.length).map Told.component).getD []

/-- What is read back from all records, in their order. -/
def told : List Told := r.toldFront ++ r.diagnostics.map Event.toTold

theorem length_front : r.front.length = 1 + (r.solution.map fun x => 1 + x.length).getD 0 := by
  unfold front solutionRecords
  cases r.solution with
  | none => rfl
  | some x => simp [Nat.add_comm]

theorem mem_front {record : String} (h : record ∈ r.front) : record = outcomeRecord r ∨
    record = residualRecord r ∨ ∃ index, ∃ x : Float, record = componentRecord index x := by
  unfold front solutionRecords at h
  rcases List.mem_cons.1 h with outcome | h
  · exact .inl outcome
  · cases solution : r.solution with
    | none => simp [solution] at h
    | some x =>
      rw [solution] at h
      rcases List.mem_cons.1 h with residual | h
      · exact .inr (.inl residual)
      · obtain ⟨component, -, same⟩ := List.mem_map.1 h
        exact .inr (.inr ⟨component.2, component.1, same.symm⟩)

theorem notMem_front {record : String} (h : record ∈ r.front) : '\n' ∉ record.toList := by
  apply notMem_of_arePrintable
  rcases mem_front r h with rfl | rfl | ⟨index, x, rfl⟩
  · exact arePrintable_outcomeRecord r
  · exact arePrintable_residualRecord r
  · exact arePrintable_componentRecord index x

theorem opensDiagnostic_front {record : String} (h : record ∈ r.front) :
    Told.opensDiagnostic record.toList = false := by
  rcases mem_front r h with rfl | rfl | ⟨index, x, rfl⟩
  · rw [toList_outcomeRecord]
    rfl
  · rw [toList_residualRecord]
    rfl
  · rw [toList_componentRecord]
    rfl

/-- What stands in front of the diagnostics is always read back. -/
theorem ofLine?_front :
    r.front.map (fun record => Told.ofLine? record.toList) = r.toldFront.map some := by
  unfold front solutionRecords toldFront
  rw [List.map_cons, List.map_cons, Told.ofLine?_outcomeRecord]
  cases r.solution with
  | none => rfl
  | some x =>
    have indices : x.zipIdx.map (fun component => some (Told.component component.2)) =
        (List.range x.length).map fun index => some (Told.component index) := by
      rw [List.range_eq_range', ← List.zipIdx_map_snd 0 x, List.map_map]
      rfl
    simp only [Option.map_some, Option.getD_some, List.map_cons, List.map_map, Function.comp_def,
      Told.ofLine?_residualRecord, Told.ofLine?_componentRecord, indices]

/-- Every record in front of the diagnostics is a line. -/
theorem lines_eq_append : r.lines = r.front.map String.toList ++
    r.diagnostics.flatMap fun e => textLines ((diagnosticRecord e).toList ++ ['\n']) := by
  have plain : ∀ line ∈ r.front.map String.toList, '\n' ∉ line :=
    List.forall_mem_map.2 fun record member => notMem_front r member
  rw [lines_eq_flatMap, records_eq, List.map_append, List.flatMap_append, flatMap_textLines plain,
    List.map_map, List.flatMap_map]
  rfl

/-- A diagnostic takes one line more than it has line feeds. -/
theorem length_diagnosticLines (events : List (Event Float)) :
    (events.flatMap fun e => textLines ((diagnosticRecord e).toList ++ ['\n'])).length =
      events.length + (events.flatMap Event.freeText).count '\n' := by
  induction events with
  | nil => rfl
  | cons e events ih =>
    rw [List.flatMap_cons, List.length_append, ih, length_textLines, count_diagnosticRecord,
      List.length_cons, List.flatMap_cons, List.count_append, ← Event.breaks]
    omega

/-- Only line feeds in diagnostics add lines. -/
theorem length_lines :
    r.lines.length = r.recordCount + (r.diagnostics.flatMap Event.freeText).count '\n' := by
  rw [lines_eq_append, List.length_append, List.length_map, length_front, length_diagnosticLines,
    recordCount, Nat.add_assoc _ r.diagnostics.length]

/-- The lines in front of the first diagnostic tell the outcome and the solution. -/
theorem takeWhile_lines :
    r.lines.takeWhile (fun line => !Told.opensDiagnostic line) = r.front.map String.toList := by
  have head : ∀ line ∈ r.front.map String.toList, (!Told.opensDiagnostic line) = true := by
    refine List.forall_mem_map.2 fun record member => ?_
    rw [opensDiagnostic_front r member]
    rfl
  rw [lines_eq_append, List.takeWhile_append_of_pos head]
  cases r.diagnostics with
  | nil => rw [List.flatMap_nil, List.takeWhile_nil, List.append_nil]
  | cons e events =>
    -- whatever the first diagnostic says, its record begins with its word, which has no line feed
    have word : '\n' ∉ "DIAG severity=".toList := by decide
    obtain ⟨line, rest, first⟩ := exists_textLines_append word
      (e.severity.name.toList ++ (" stage=".toList ++ (e.stage.name.toList ++
        (" code=".toList ++ (e.code.toList ++ (" message=".toList ++ e.message.toList))))))
    rw [← List.append_assoc, ← toList_diagnosticRecord] at first
    rw [List.flatMap_cons, first, List.cons_append, List.takeWhile_cons_of_neg, List.append_nil]
    exact Bool.false_ne_true

/-- Without line feeds in diagnostics the lines are the records. -/
theorem lines_eq_records (plain : ∀ e ∈ r.diagnostics, e.breaks = 0) :
    r.lines = r.records.map String.toList := by
  rw [lines_eq_flatMap, records_eq]
  refine flatMap_textLines (List.forall_mem_map.2 fun record member => ?_)
  rcases List.mem_append.1 member with front | diagnostic
  · exact notMem_front r front
  · obtain ⟨e, reported, rfl⟩ := List.mem_map.1 diagnostic
    rw [← List.count_eq_zero, count_diagnosticRecord, plain e reported]

/-- Then they are read back exactly if no code holds the mark of a message. -/
theorem ofLine?_lines_iff (plain : ∀ e ∈ r.diagnostics, e.breaks = 0) :
    r.lines.map Told.ofLine? = r.told.map some ↔
      ∀ e ∈ r.diagnostics, ¬ " message=".toList <:+: e.code.toList := by
  have whole : r.lines.map Told.ofLine? = r.toldFront.map some ++
      r.diagnostics.map fun e => Told.ofLine? (diagnosticRecord e).toList := by
    rw [lines_eq_records r plain, records_eq, List.map_map, List.map_append, List.map_map,
      ← ofLine?_front]
    rfl
  rw [whole, told, List.map_append, List.append_cancel_left_eq, List.map_map, List.map_inj_left]
  simp only [Function.comp_apply, Told.ofLine?_diagnosticRecord_iff]

theorem eq_of_toldFront_eq {s : SolveReport Float} (h : s.toldFront = r.toldFront) :
    s.outcome = r.outcome ∧ s.solution.map List.length = r.solution.map List.length := by
  obtain ⟨outcome, solution⟩ := List.cons.inj h
  refine ⟨Told.outcome.inj outcome, ?_⟩
  cases own : r.solution with
  | none => cases other : s.solution with
    | none => rfl
    | some y => simp [own, other] at solution
  | some x => cases other : s.solution with
    | none => simp [own, other] at solution
    | some y =>
      rw [own, other] at solution
      simpa using congrArg List.length solution

/-- **The text of a report tells its records.** Only line feeds in a code or a message add lines.
The outcome and the number of components can be read back from every report, and if there are no
such line feeds, then all records can be read back, provided that no code holds the mark of a
message. -/
theorem text_tells_records :
    r.lines.length = r.recordCount + (r.diagnostics.flatMap Event.freeText).count '\n' ∧
    (r.lines.length = r.recordCount ↔ ∀ e ∈ r.diagnostics, e.breaks = 0) ∧
    ((∀ e ∈ r.diagnostics, e.breaks = 0) → r.lines = r.records.map String.toList ∧
      (r.lines.map Told.ofLine? = r.told.map some ↔
        ∀ e ∈ r.diagnostics, ¬ " message=".toList <:+: e.code.toList)) ∧
    (r.lines.takeWhile fun line => !Told.opensDiagnostic line).map Told.ofLine? =
      r.toldFront.map some ∧
    ∀ s : SolveReport Float, s.text = r.text → s.outcome = r.outcome ∧
      s.solution.map List.length = r.solution.map List.length ∧
      ((∀ e ∈ r.diagnostics ++ s.diagnostics, e.Plain) →
        s.diagnostics.map Event.toTold = r.diagnostics.map Event.toTold) := by
  have front (s : SolveReport Float) :
      (s.lines.takeWhile fun line => !Told.opensDiagnostic line).map Told.ofLine? =
        s.toldFront.map some := by
    rw [takeWhile_lines, List.map_map, ← ofLine?_front]
    rfl
  refine ⟨length_lines r, ?_, fun plain => ⟨lines_eq_records r plain, ofLine?_lines_iff r plain⟩,
    front r, ?_⟩
  · rw [length_lines, Nat.add_eq_left, List.count_eq_zero]
    simp only [List.mem_flatMap, not_exists, not_and, Event.breaks, List.count_eq_zero]
  · intro s same
    -- reports with one text have one list of lines, and what is read from it is told by both
    have lines : s.lines = r.lines := congrArg (fun text : String => textLines text.toList) same
    have toldFront : s.toldFront = r.toldFront := by
      refine (List.map_inj_right fun _ _ => Option.some.inj).1 ?_
      rw [← front, ← front, lines]
    obtain ⟨outcome, solution⟩ := eq_of_toldFront_eq r toldFront
    refine ⟨outcome, solution, fun plain => ?_⟩
    obtain ⟨plainR, plainS⟩ := List.forall_mem_append.1 plain
    have readR := (ofLine?_lines_iff r fun e member => (plainR e member).1).2
      fun e member => (plainR e member).2
    have readS := (ofLine?_lines_iff s fun e member => (plainS e member).1).2
      fun e member => (plainS e member).2
    have told : s.told = r.told := by
      refine (List.map_inj_right fun _ _ => Option.some.inj).1 ?_
      rw [← readS, ← readR, lines]
    unfold SolveReport.told at told
    rwa [toldFront, List.append_cancel_left_eq] at told

/-- A report on a system of two equations. -/
def solved (diagnostics : List (Event Float)) : SolveReport Float where
  outcome := .success
  solution := some [0.5, 1]
  negative := some 1
  euclidean := some 0
  largest := some 0
  relative := some 0
  diagnostics
  snapshot := none

/-- A warning in it. -/
def reallocated : Event Float where
  code := "W_LIN_WORKSPACE_REALLOCATED"
  severity := .warning
  message := "scheduled growth applied; integer workspace 12 -> 24, real workspace 5 -> 10"
  action := "raise the workspace init factors if reallocations repeat"
  stage := .factorize
  solverId := "ma27"
  solveIndex := some 0
  attemptIndex := none
  witness := none

theorem text_tells_records_solved :
    (∀ e ∈ [reallocated], e.Plain) ∧ (solved [reallocated]).lines.length = 5 ∧
      (solved [reallocated]).lines.map Told.ofLine? = [.outcome .success, .residual, .component 0,
        .component 1, .diagnostic .warning .factorize "W_LIN_WORKSPACE_REALLOCATED"].map some ∧
      (solved []).text ≠ (solved [reallocated]).text := by
  obtain ⟨-, count, read, -, told⟩ := text_tells_records (solved [reallocated])
  have plain : ∀ e ∈ [reallocated], e.Plain := by
    refine List.forall_mem_singleton.2 ⟨by rfl, ?_⟩
    decide +kernel
  have single : ∀ e ∈ [reallocated], e.breaks = 0 := fun e member => (plain e member).1
  refine ⟨plain, count.2 single, (read single).2.2 fun e member => (plain e member).2, ?_⟩
  intro same
  have none : [] = [reallocated.toTold] := (told (solved []) same).2.2 plain
  cases none

end SolveReport

/-! ## Messages that hold records -/

section Absorbing

variable {α : Type}

/-- A diagnostic whose message goes on with the record of another one. -/
def absorb (e f : Event α) : Event α :=
  { e with message := e.message ++ "\n" ++ diagnosticRecord f }

theorem diagnosticRecord_absorb (e f : Event α) :
    diagnosticRecord (absorb e f) = diagnosticRecord e ++ "\n" ++ diagnosticRecord f := by
  apply String.toList_inj.1
  simp only [toList_diagnosticRecord, absorb, String.toList_append, List.append_assoc]

/-- **A message can hold records**: a report with two diagnostics in a row prints like one in which
the first one goes on with the record of the second. -/
theorem text_absorb [Printable α] {r : SolveReport α} (before after : List (Event α))
    {e f : Event α} (h : r.diagnostics = before ++ e :: f :: after) :
    SolveReport.text { r with diagnostics := before ++ absorb e f :: after } = r.text := by
  have front : SolveReport.front { r with diagnostics := before ++ absorb e f :: after } =
      r.front := rfl
  apply String.toList_inj.1
  rw [toList_text, toList_text, records_eq, records_eq, front, h]
  simp [diagnosticRecord_absorb]

/-- **A code can hold a message**: what stands between two marks may belong to either. -/
theorem diagnosticRecord_regroup (e : Event α) (code first second : String) :
    diagnosticRecord { e with code := code ++ " message=" ++ first, message := second } =
      diagnosticRecord { e with code, message := first ++ " message=" ++ second } := by
  apply String.toList_inj.1
  simp only [toList_diagnosticRecord, String.toList_append, List.append_assoc]

end Absorbing

/-- The report of options that cannot be read, with the text of whoever read them. -/
def optionsFault (message : String) : EventRequest Float where
  code := .text "E_CLI_OPTIONS_INVALID"
  message := .text message
  solverId := .text "cli.solve"
  witness := .ofFields [("error_type", .text "SolverConfigError")]

/-- The event that becomes of it. -/
def optionsInvalid (message : String) : Event Float where
  code := "E_CLI_OPTIONS_INVALID"
  severity := .error
  message
  action := "fix the linear solver options artifact"
  stage := .configure
  solverId := "cli.solve"
  solveIndex := none
  attemptIndex := none
  witness := some (.object [("error_type", .text "SolverConfigError")])

theorem build_optionsFault {message : String} (told : message ≠ "") :
    Event.build (optionsFault message) = .ok (optionsInvalid message) := by
  have evidence : (Payload.ofFields [("error_type", .text "SolverConfigError")] :
      Payload Float).normalize = .ok (.object [("error_type", .text "SolverConfigError")]) :=
    Payload.normalize_ofFields_sorted (by simp) rfl
  have named : "cli.solve" ≠ "" := by decide
  let entry : CatalogEntry :=
    ⟨"E_CLI_OPTIONS_INVALID", .error, .configure, "fix the linear solver options artifact"⟩
  have listed : Catalog.canonical.find? entry.code = some entry := by decide +kernel
  exact Event.build_catalogued (r := ⟨message, "cli.solve", none, none, _⟩) listed (by decide)
    (by decide) told named id evidence

/-- A report of a fault in the input. -/
def refused (diagnostics : List (Event Float)) : SolveReport Float where
  outcome := .fatalError
  solution := none
  negative := none
  euclidean := none
  largest := none
  relative := none
  diagnostics
  snapshot := none

/-- A message of two lines adds a line, and one that holds a record makes one diagnostic of two. -/
theorem line_feed_forges_record :
    (∀ message ∈ ["while parsing a flow node\nexpected the node content", "first", "second",
        "first" ++ "\n" ++ diagnosticRecord (optionsInvalid "second")],
      Event.build (optionsFault message) = .ok (optionsInvalid message)) ∧
      (refused [optionsInvalid
        "while parsing a flow node\nexpected the node content"]).recordCount = 2 ∧
      (refused [optionsInvalid
        "while parsing a flow node\nexpected the node content"]).lines.length = 3 ∧
      (refused [optionsInvalid
        ("first" ++ "\n" ++ diagnosticRecord (optionsInvalid "second"))]).text =
        (refused [optionsInvalid "first", optionsInvalid "second"]).text := by
  refine ⟨fun message member => build_optionsFault ?_, rfl, ?_, ?_⟩
  · rintro rfl
    simp at member
  · rw [length_lines]
    rfl
  · have forged : absorb (optionsInvalid "first") (optionsInvalid "second") =
        optionsInvalid ("first" ++ "\n" ++ diagnosticRecord (optionsInvalid "second")) := rfl
    rw [← forged]
    exact text_absorb (r := refused [optionsInvalid "first", optionsInvalid "second"]) [] [] rfl

end CommandLine

end SymSolve
