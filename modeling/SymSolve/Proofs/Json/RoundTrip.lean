import Mathlib.Tactic.SplitIfs
import Mathlib.Data.List.Basic
import SymSolve.Json.Reader

/-!
# JSON texts read back

**Theorem (`Json.parse?_render`).** Every value whose real numbers read back reads back from its
compact text.

So values with one text are one value (`Json.render_injective`), and the text is printable ASCII
on one line (`Json.printable_render`).

**Real numbers.** How digits are chosen for a real number is not looked at here. `ReadsBack x`
says that the text of `x` is either one of the names for what is not finite, or a number with a
point or an exponent that stands for `x`. Every double reads back (`Json.readsBack`).

**The reader.** Each part of a text is read up to where it ends, whatever follows it. The fuel of
the reader is compared with the length of the text alone: a collection has a bracket more than
what is in it.
-/

namespace SymSolve.Json

/-! ## Induction on values -/

/-- A property of values that goes over from the parts of a collection to the collection. -/
@[elab_as_elim]
theorem induction {α : Type} {motive : Json α → Prop} (null : motive .null)
    (bool : ∀ b, motive (.bool b)) (int : ∀ i, motive (.int i)) (real : ∀ x, motive (.real x))
    (text : ∀ s, motive (.text s))
    (list : ∀ items, (∀ v ∈ items, motive v) → motive (.list items))
    (object : ∀ fields, (∀ field ∈ fields, motive field.2) → motive (.object fields))
    (v : Json α) : motive v :=
  match v with
  | .null => null
  | .bool b => bool b
  | .int i => int i
  | .real x => real x
  | .text s => text s
  | .list items => list items fun v _ => induction null bool int real text list object v
  | .object fields =>
    object fields fun field _ => induction null bool int real text list object field.2
termination_by v
decreasing_by
  · have := List.sizeOf_lt_of_mem ‹v ∈ items›
    simp only [Json.list.sizeOf_spec]
    omega
  · have := List.sizeOf_lt_of_mem ‹field ∈ fields›
    have : sizeOf field.2 < sizeOf field := by
      cases field
      simp only [Prod.mk.sizeOf_spec]
      omega
    simp only [Json.object.sizeOf_spec]
    omega

/-! ## Strings -/

theorem hexDigit?_digitChar : ∀ d < 16, Numeral.hexDigit? d.digitChar = some d := by decide

theorem hex4_eq {n : Nat} (h : n < 0x10000) :
    hex4 n = [(n / 4096).digitChar, (n / 256 % 16).digitChar, (n / 16 % 16).digitChar,
      (n % 16).digitChar] := by
  have one (m : Nat) (hm : m < 16) : Nat.toDigits 16 m = [m.digitChar] :=
    Nat.toDigits_of_lt_base hm
  have more (m : Nat) (hm : 16 ≤ m) :
      Nat.toDigits 16 m = Nat.toDigits 16 (m / 16) ++ [(m % 16).digitChar] :=
    Nat.toDigits_of_base_le (by decide) hm
  unfold hex4
  -- one case for each number of digits that are not padding
  by_cases h1 : n < 16
  · rw [one n h1, show n / 4096 = 0 by omega, show n / 256 % 16 = 0 by omega,
      show n / 16 % 16 = 0 by omega, show n % 16 = n by omega]
    rfl
  rw [more n (by omega)]
  by_cases h2 : n < 256
  · rw [one (n / 16) (by omega), show n / 4096 = 0 by omega, show n / 256 % 16 = 0 by omega,
      show n / 16 % 16 = n / 16 by omega]
    rfl
  rw [more (n / 16) (by omega), Nat.div_div_eq_div_mul]
  by_cases h3 : n < 4096
  · rw [one (n / (16 * 16)) (by omega), show n / 4096 = 0 by omega,
      show n / 256 % 16 = n / (16 * 16) by omega]
    rfl
  · rw [more (n / (16 * 16)) (by omega), Nat.div_div_eq_div_mul,
      one (n / (16 * 16 * 16)) (by omega)]
    rfl

theorem hexUnit?_digits {n : Nat} (h : n < 0x10000) :
    hexUnit? (n / 4096).digitChar (n / 256 % 16).digitChar (n / 16 % 16).digitChar
      (n % 16).digitChar = some n := by
  have first : n / 4096 < 16 := by omega
  have second : n / 256 % 16 < 16 := by omega
  have third : n / 16 % 16 < 16 := by omega
  have last : n % 16 < 16 := by omega
  simp [hexUnit?, Numeral.digits?, hexDigit?_digitChar _ first, hexDigit?_digitChar _ second,
    hexDigit?_digitChar _ third, hexDigit?_digitChar _ last, first, second, third, last]
  omega

/-- A unit that is not the first one of a pair reads back alone, whatever follows. -/
theorem readString_unitEscape {unit : Nat} (h : unit < 0xd800 ∨ 0xdc00 ≤ unit ∧ unit < 0x10000)
    (fuel : Nat) (cs : List Char) :
    readString (fuel + 1) (unitEscape unit ++ cs) =
      consChar (unitChar unit) (readString fuel cs) := by
  have small : unit < 0x10000 := by omega
  have unpaired (low : Nat) : pairChar? unit low = none := by
    apply if_neg
    omega
  rw [unitEscape, hex4_eq small]
  simp only [List.cons_append, List.nil_append, readString, hexUnit?_digits small]
  split
  · rw [Option.bind_congr fun low _ => unpaired low, Option.bind_fun_none]
  · rfl

theorem readString_pair {high low : Nat} (hh : 0xd800 ≤ high ∧ high < 0xdc00)
    (hl : 0xdc00 ≤ low ∧ low < 0xe000) (fuel : Nat) (cs : List Char) :
    readString (fuel + 1) (unitEscape high ++ (unitEscape low ++ cs)) =
      consChar (Char.ofNat (0x10000 + (high - 0xd800) * 0x400 + (low - 0xdc00)))
        (readString fuel cs) := by
  have paired : pairChar? high low =
      some (Char.ofNat (0x10000 + (high - 0xd800) * 0x400 + (low - 0xdc00))) := by
    apply if_pos
    omega
  have h₁ : high < 0x10000 := by omega
  have h₂ : low < 0x10000 := by omega
  simp only [unitEscape, hex4_eq h₁, hex4_eq h₂, List.cons_append, List.nil_append, readString,
    hexUnit?_digits h₁, hexUnit?_digits h₂, Option.bind_some, paired]

/-- **Characters read back.** -/
theorem readString_charText (c : Char) (fuel : Nat) (cs : List Char) :
    readString (fuel + 1) (charText c ++ cs) = consChar c (readString fuel cs) := by
  unfold charText
  -- seven short escapes, then the character itself or its units
  iterate 7
    split
    · next h =>
      subst h
      simp [readString, shortEscape?]
  split
  · simp only [List.cons_append, List.nil_append]
    rw [readString.eq_def]
    simp only
    split <;> simp_all
  -- A character is no half of a pair.
  have valid : c.toNat < 0xd800 ∨ 0xdfff < c.toNat ∧ c.toNat < 0x110000 := c.valid
  split
  · have alone : ¬ (0xd800 ≤ c.toNat ∧ c.toNat < 0xe000) := by omega
    rw [readString_unitEscape (by omega), unitChar, if_neg alone, Char.ofNat_toNat]
  · have code : 0x10000 + (0xd800 + (c.toNat - 0x10000) / 0x400 - 0xd800) * 0x400 +
        (0xdc00 + (c.toNat - 0x10000) % 0x400 - 0xdc00) = c.toNat := by omega
    rw [List.append_assoc, readString_pair (by omega) (by omega), code, Char.ofNat_toNat]

theorem charText_ne_nil (c : Char) : charText c ≠ [] := by
  unfold charText
  split_ifs <;> exact List.cons_ne_nil _ _

theorem length_le_flatMap_charText (s : List Char) : s.length ≤ (s.flatMap charText).length := by
  induction s with
  | nil => exact Nat.le_refl 0
  | cons c s ih =>
    have := List.length_pos_iff.2 (charText_ne_nil c)
    simp only [List.flatMap_cons, List.length_append, List.length_cons]
    omega

theorem readString_flatMap (s : List Char) {fuel : Nat} (enough : s.length < fuel)
    (rest : List Char) :
    readString fuel (s.flatMap charText ++ '"' :: rest) = some (s, rest) := by
  induction s generalizing fuel with
  | nil =>
    obtain ⟨fuel, rfl⟩ := Nat.exists_eq_succ_of_ne_zero (Nat.ne_of_gt enough)
    rfl
  | cons c s ih =>
    obtain ⟨fuel, rfl⟩ := Nat.exists_eq_succ_of_ne_zero (Nat.ne_of_gt (Nat.zero_lt_of_lt enough))
    rw [List.flatMap_cons, List.append_assoc, readString_charText,
      ih (Nat.lt_of_succ_lt_succ enough)]
    rfl

/-- **Strings read back** from what follows their opening quote. -/
theorem readString_body (s : String) (rest : List Char) :
    readString (s.toList.flatMap charText ++ '"' :: rest).length
      (s.toList.flatMap charText ++ '"' :: rest) = some (s.toList, rest) := by
  apply readString_flatMap
  have := length_le_flatMap_charText s.toList
  simp only [List.length_append, List.length_cons]
  omega

/-! ## Numbers -/

/-- Digits, and at least one. -/
def IsDigits (cs : List Char) : Prop := cs ≠ [] ∧ ∀ c ∈ cs, c.isDigit = true

instance (cs : List Char) : Decidable (IsDigits cs) :=
  @instDecidableAnd _ _ _ (List.decidableBAll (fun c => c.isDigit = true) cs)

/-- A number as text, taken apart. -/
structure NumberText where
  negative : Bool
  whole : List Char
  /-- The digits after the point. -/
  fraction : Option (List Char)
  /-- Whether the exponent is negative, and its digits. -/
  exponent : Option (Bool × List Char)

namespace NumberText

def signChars (negative : Bool) : List Char := if negative then ['-'] else []

def fractionChars : Option (List Char) → List Char
  | none => []
  | some digits => '.' :: digits

def exponentChars : Option (Bool × List Char) → List Char
  | none => []
  | some e => 'e' :: (if e.1 then '-' else '+') :: e.2

/-- The text itself. -/
def chars (t : NumberText) : List Char :=
  signChars t.negative ++ (t.whole ++ (fractionChars t.fraction ++ exponentChars t.exponent))

/-- There are digits wherever there have to be. -/
structure WellFormed (t : NumberText) : Prop where
  whole : IsDigits t.whole
  fraction : ∀ digits ∈ t.fraction, IsDigits digits
  exponent : ∀ e ∈ t.exponent, IsDigits e.2

def exponentValue (e : Bool × List Char) : Int :=
  if e.1 then -(natOfDigits e.2 : Int) else natOfDigits e.2

/-- The number that the text stands for. -/
def value {α : Type} [Scalar α] (t : NumberText) : Json α :=
  numberValue t.negative t.whole t.fraction (t.exponent.map exponentValue)

end NumberText

open NumberText

/-- What may follow a value: nothing, or what goes on with the collection that it is in. -/
def Ends (rest : List Char) : Prop := ∀ c ∈ rest.head?, c = ',' ∨ c = ']' ∨ c = '}'

theorem Ends.not_digit {rest : List Char} (ends : Ends rest) :
    ∀ c ∈ rest.head?, c.isDigit = false := by
  intro c hc
  rcases ends c hc with rfl | rfl | rfl <;> decide

theorem not_digit_exponentChars (exponent : Option (Bool × List Char)) {rest : List Char}
    (ends : Ends rest) : ∀ c ∈ (exponentChars exponent ++ rest).head?, c.isDigit = false := by
  cases exponent with
  | none => exact ends.not_digit
  | some e =>
    intro c hc
    cases hc
    decide

theorem not_digit_fractionChars (fraction : Option (List Char))
    (exponent : Option (Bool × List Char)) {rest : List Char} (ends : Ends rest) :
    ∀ c ∈ (fractionChars fraction ++ (exponentChars exponent ++ rest)).head?,
      c.isDigit = false := by
  cases fraction with
  | none => exact not_digit_exponentChars exponent ends
  | some digits =>
    intro c hc
    cases hc
    decide

theorem readDigits_append {digits : List Char} (h : IsDigits digits) {rest : List Char}
    (stop : ∀ c ∈ rest.head?, c.isDigit = false) :
    readDigits (digits ++ rest) = some (digits, rest) := by
  have stops : rest.takeWhile Char.isDigit = [] ∧ rest.dropWhile Char.isDigit = rest := by
    cases rest with
    | nil => exact ⟨rfl, rfl⟩
    | cons c rest =>
      have hc := stop c rfl
      exact ⟨List.takeWhile_cons_of_neg (by simp [hc]), List.dropWhile_cons_of_neg (by simp [hc])⟩
  unfold readDigits
  rw [List.takeWhile_append_of_pos h.2, List.dropWhile_append_of_pos h.2, stops.1, stops.2,
    List.append_nil]
  split
  · exact absurd rfl h.1
  · rfl

theorem readSign_append (negative : Bool) {whole : List Char} (h : IsDigits whole)
    (rest : List Char) :
    readSign (signChars negative ++ (whole ++ rest)) = (negative, whole ++ rest) := by
  cases negative with
  | true => rfl
  | false =>
    unfold readSign
    split
    · next rest' eq =>
      -- A minus is no digit.
      cases whole with
      | nil => exact absurd rfl h.1
      | cons d ds =>
        have digit := h.2 d List.mem_cons_self
        rw [(List.cons.inj eq).1] at digit
        exact absurd digit (by decide)
    · rfl

theorem readFraction_append {fraction : Option (List Char)}
    (wf : ∀ digits ∈ fraction, IsDigits digits) (exponent : Option (Bool × List Char))
    {rest : List Char} (ends : Ends rest) :
    readFraction (fractionChars fraction ++ (exponentChars exponent ++ rest)) =
      some (fraction, exponentChars exponent ++ rest) := by
  cases fraction with
  | some digits =>
    have read := readDigits_append (wf digits rfl) (not_digit_exponentChars exponent ends)
    simp [fractionChars, readFraction, read]
  | none =>
    unfold readFraction fractionChars
    split
    · next rest' eq =>
      cases exponent with
      | none =>
        have point := ends '.' (by
          rw [show rest = '.' :: rest' from eq]
          rfl)
        exact absurd point (by decide)
      | some e => exact absurd (List.cons.inj eq).1 (by decide)
    · rfl

theorem readExponent_append {exponent : Option (Bool × List Char)}
    (wf : ∀ e ∈ exponent, IsDigits e.2) {rest : List Char} (ends : Ends rest) :
    readExponent (exponentChars exponent ++ rest) = some (exponent.map exponentValue, rest) := by
  cases exponent with
  | none =>
    cases rest with
    | nil => rfl
    | cons c rest =>
      have other : ¬ (c = 'e' ∨ c = 'E') := by
        rcases ends c rfl with rfl | rfl | rfl <;> decide
      simp [exponentChars, readExponent, other]
  | some e =>
    obtain ⟨negative, digits⟩ := e
    have read := readDigits_append (wf _ rfl) ends.not_digit
    cases negative <;> simp [exponentChars, exponentValue, readExponent, read]

variable {α : Type} [Scalar α]

/-- **Numbers read back.** -/
theorem readNumber_append {t : NumberText} (wf : t.WellFormed) {rest : List Char}
    (ends : Ends rest) : readNumber (t.chars ++ rest) = some ((t.value : Json α), rest) := by
  have whole := readDigits_append wf.whole (not_digit_fractionChars t.fraction t.exponent ends)
  have fraction := readFraction_append wf.fraction t.exponent ends
  have exponent := readExponent_append wf.exponent ends
  have parts : t.chars ++ rest = signChars t.negative ++ (t.whole ++ (fractionChars t.fraction ++
      (exponentChars t.exponent ++ rest))) := by
    simp only [NumberText.chars, List.append_assoc]
  rw [parts]
  simp only [readNumber, readSign_append t.negative wf.whole, whole, fraction, exponent,
    Option.bind_eq_bind, Option.bind_some]
  rfl

/-- An integer, taken apart. -/
def NumberText.ofInt (i : Int) : NumberText where
  negative := i < 0
  whole := Nat.toDigits 10 i.natAbs
  fraction := none
  exponent := none

theorem isDigits_toDigits (n : Nat) : IsDigits (Nat.toDigits 10 n) :=
  ⟨Nat.toDigits_ne_nil, fun _ => Nat.isDigit_of_mem_toDigits (by decide) (by decide)⟩

theorem wellFormed_ofInt (i : Int) : (NumberText.ofInt i).WellFormed where
  whole := isDigits_toDigits i.natAbs
  fraction := by simp [NumberText.ofInt]
  exponent := by simp [NumberText.ofInt]

theorem chars_ofInt (i : Int) : (NumberText.ofInt i).chars = intText i := by
  by_cases negative : i < 0
  · simp [NumberText.ofInt, NumberText.chars, signChars, fractionChars, exponentChars, intText,
      negative]
  · simp [NumberText.ofInt, NumberText.chars, signChars, fractionChars, exponentChars, intText,
      negative]

theorem value_ofInt (i : Int) : ((NumberText.ofInt i).value : Json α) = .int i := by
  have magnitude : natOfDigits (Nat.toDigits 10 i.natAbs) = i.natAbs :=
    Nat.ofDigitChars_ten_toDigits
  simp only [NumberText.value, NumberText.ofInt, numberValue, Option.map_none, magnitude,
    decide_eq_true_eq]
  congr 1
  split <;> omega

/-! ## Names -/

theorem mem_valueNames {word : String} {x : α} (named : (word, x) ∈ realNames) :
    (word, .real x) ∈ (valueNames : List (String × Json α)) := by
  apply List.mem_append_right
  exact List.mem_map.2 ⟨_, named, rfl⟩

theorem readName_append (rest : List Char) : ∀ entry ∈ (valueNames : List (String × Json α)),
    readName (entry.1.toList ++ rest) = some (entry.2, rest) := by
  simp only [valueNames, realNames, List.map_cons, List.map_nil, List.cons_append, List.nil_append,
    List.forall_mem_cons, List.not_mem_nil, false_implies, implies_true, and_true]
  refine ⟨?_, ?_, ?_, ?_, ?_, ?_⟩ <;> rfl

theorem readNumber_name (rest : List Char) : ∀ entry ∈ (valueNames : List (String × Json α)),
    (readNumber (entry.1.toList ++ rest) : Option (Json α × List Char)) = none := by
  simp only [valueNames, realNames, List.map_cons, List.map_nil, List.cons_append, List.nil_append,
    List.forall_mem_cons, List.not_mem_nil, false_implies, implies_true, and_true]
  refine ⟨?_, ?_, ?_, ?_, ?_, ?_⟩ <;> rfl

/-! ## Values that are no collections -/

/-- A character that begins a value that is neither a string nor a collection. -/
def IsPlain (c : Char) : Prop := isBlank c = false ∧ c ≠ '"' ∧ c ≠ '[' ∧ c ≠ '{' ∧ c ≠ ']'

instance (c : Char) : Decidable (IsPlain c) := inferInstanceAs (Decidable (_ ∧ _))

theorem isPlain_of_digit {c : Char} (digit : c.isDigit = true) : IsPlain c := by
  refine ⟨?_, ?_, ?_, ?_, ?_⟩
  · by_contra blank
    simp only [Bool.not_eq_false, isBlank, Bool.or_eq_true, decide_eq_true_eq] at blank
    rcases blank with ((rfl | rfl) | rfl) | rfl <;> exact absurd digit (by decide)
  all_goals
    intro h
    subst h
    exact absurd digit (by decide)

theorem skipBlanks_cons {c : Char} (h : isBlank c = false) (cs : List Char) :
    skipBlanks (c :: cs) = c :: cs :=
  List.dropWhile_cons_of_neg (by simp [h])

theorem readValue_plain {c : Char} (plain : IsPlain c) (fuel : Nat) (cs : List Char) :
    readValue (fuel + 1) (c :: cs) =
      ((readNumber (c :: cs)).or (readName (c :: cs)) : Option (Json α × List Char)) := by
  obtain ⟨blank, quote, bracket, brace, -⟩ := plain
  rw [readValue, skipBlanks_cons blank]
  split <;> simp_all

theorem plain_name : ∀ entry ∈ (valueNames : List (String × Json α)),
    ∃ c cs, entry.1.toList = c :: cs ∧ IsPlain c := by
  simp only [valueNames, realNames, List.map_cons, List.map_nil, List.cons_append, List.nil_append,
    List.forall_mem_cons, List.not_mem_nil, false_implies, implies_true, and_true]
  refine ⟨?_, ?_, ?_, ?_, ?_, ?_⟩ <;> exact ⟨_, _, rfl, by decide⟩

theorem plain_number {t : NumberText} (wf : t.WellFormed) :
    ∃ c cs, t.chars = c :: cs ∧ IsPlain c := by
  obtain ⟨negative, whole, fraction, exponent⟩ := t
  cases negative with
  | true => exact ⟨_, _, rfl, by decide⟩
  | false =>
    obtain ⟨nonempty, digits⟩ := wf.whole
    cases whole with
    | nil => exact absurd rfl nonempty
    | cons d ds => exact ⟨d, _, rfl, isPlain_of_digit (digits d List.mem_cons_self)⟩

theorem readValue_number {t : NumberText} (wf : t.WellFormed) (fuel : Nat) {rest : List Char}
    (ends : Ends rest) :
    readValue (fuel + 1) (t.chars ++ rest) = some ((t.value : Json α), rest) := by
  have read := readNumber_append (α := α) wf ends
  obtain ⟨c, cs, text, plain⟩ := plain_number wf
  rw [text, List.cons_append] at read ⊢
  rw [readValue_plain plain, read, Option.some_or]

theorem readValue_name {entry : String × Json α} (named : entry ∈ valueNames) (fuel : Nat)
    (rest : List Char) :
    readValue (fuel + 1) (entry.1.toList ++ rest) = some (entry.2, rest) := by
  have number := readNumber_name rest entry named
  have read := readName_append rest entry named
  obtain ⟨c, cs, text, plain⟩ := plain_name entry named
  rw [text, List.cons_append] at number read ⊢
  rw [readValue_plain plain, number, Option.none_or, read]

variable [Printable α]

/-- The text of a real number reads back as that number. -/
inductive ReadsBack (x : α) : Prop where
  | number (t : NumberText) (wf : t.WellFormed) (text : realText x = t.chars)
      (value : t.value = .real x)
  | name (word : String) (named : (word, x) ∈ realNames) (text : realText x = word.toList)

/-- The real numbers in a value read back. -/
inductive Readable : Json α → Prop where
  | null : Readable .null
  | bool (b : Bool) : Readable (.bool b)
  | int (i : Int) : Readable (.int i)
  | real (x : α) (h : ReadsBack x) : Readable (.real x)
  | text (s : String) : Readable (.text s)
  | list (items : List (Json α)) (h : ∀ v ∈ items, Readable v) : Readable (.list items)
  | object (fields : List (String × Json α)) (h : ∀ field ∈ fields, Readable field.2) :
      Readable (.object fields)

/-! ## Collections -/

/-- A value reads back, whatever the fuel beyond the length of its text. -/
def Reads (v : Json α) : Prop :=
  ∀ fuel rest, (chars v).length ≤ fuel → Ends rest →
    readValue (fuel + 1) (chars v ++ rest) = some (v, rest)

/-- The text of a value begins with neither a blank nor a closing bracket. -/
def Opens (v : Json α) : Prop :=
  ∃ c cs, chars v = c :: cs ∧ isBlank c = false ∧ c ≠ ']'

theorem opens (v : Json α) (readable : Readable v) : Opens v := by
  have plain {text : List Char} (h : ∃ c cs, text = c :: cs ∧ IsPlain c) :
      ∃ c cs, text = c :: cs ∧ isBlank c = false ∧ c ≠ ']' := by
    obtain ⟨c, cs, text, hc⟩ := h
    exact ⟨c, cs, text, hc.1, hc.2.2.2.2⟩
  unfold Opens
  cases readable with
  | null => exact ⟨_, _, rfl, by decide⟩
  | bool b => cases b <;> exact ⟨_, _, rfl, by decide⟩
  | int i =>
    rw [chars, ← chars_ofInt]
    exact plain (plain_number (wellFormed_ofInt i))
  | real x h =>
    rw [chars]
    cases h with
    | number t wf text value => exact plain (text ▸ plain_number wf)
    | name word named text => exact plain (text ▸ plain_name _ (mem_valueNames named))
  | text s => exact ⟨_, _, rfl, by decide⟩
  | list items h => cases items <;> exact ⟨_, _, rfl, by decide⟩
  | object fields h => cases fields <;> exact ⟨_, _, rfl, by decide⟩

theorem ends_itemChars (items : List (Json α)) (rest : List Char) :
    Ends (itemChars items ++ rest) := by
  intro c hc
  cases items with
  | nil =>
    cases hc
    exact .inr (.inl rfl)
  | cons v items =>
    cases hc
    exact .inl rfl

theorem ends_fieldChars (fields : List (String × Json α)) (rest : List Char) :
    Ends (fieldChars fields ++ rest) := by
  intro c hc
  cases fields with
  | nil =>
    cases hc
    exact .inr (.inr rfl)
  | cons field fields =>
    cases hc
    exact .inl rfl

theorem readItems_append (items : List (Json α)) {v : Json α} (first : Reads v)
    (others : ∀ w ∈ items, Reads w) {fuel : Nat} (rest : List Char)
    (enough : (chars v).length + (itemChars items).length < fuel) :
    readItems fuel (chars v ++ (itemChars items ++ rest)) = some (v :: items, rest) := by
  induction items generalizing v fuel with
  | nil =>
    simp only [itemChars, List.length_singleton] at enough
    obtain ⟨fuel, rfl⟩ : ∃ n, fuel = n + 2 := ⟨fuel - 2, by omega⟩
    have read := first fuel _ (by omega) (ends_itemChars ([] : List (Json α)) rest)
    simp only [readItems, read]
    rfl
  | cons w items ih =>
    simp only [itemChars, List.length_cons, List.length_append] at enough
    obtain ⟨fuel, rfl⟩ : ∃ n, fuel = n + 2 := ⟨fuel - 2, by omega⟩
    have read := first fuel _ (by omega) (ends_itemChars (w :: items) rest)
    have left : (chars w).length + (itemChars items).length < fuel + 1 := by omega
    have more := ih (others w List.mem_cons_self)
      (fun u hu => others u (List.mem_cons_of_mem w hu)) left
    have comma : skipBlanks (itemChars (w :: items) ++ rest) =
        ',' :: (chars w ++ (itemChars items ++ rest)) := by
      rw [itemChars, List.cons_append, List.append_assoc]
      rfl
    rw [readItems, read]
    simp only [comma, more, Option.map_some]

theorem skipBlanks_stringText (key : String) (cs : List Char) :
    skipBlanks (stringText key ++ cs) = '"' :: (key.toList.flatMap charText ++ '"' :: cs) := by
  simp only [stringText, List.cons_append, List.append_assoc, List.nil_append]
  rfl

theorem skipBlanks_colon (cs : List Char) : skipBlanks (':' :: cs) = ':' :: cs := rfl

theorem readFields_append (fields : List (String × Json α)) (key : String) {v : Json α}
    (first : Reads v) (others : ∀ field ∈ fields, Reads field.2) {fuel : Nat} (rest : List Char)
    (enough : (chars v).length + (fieldChars fields).length < fuel) :
    readFields fuel (stringText key ++ ':' :: (chars v ++ (fieldChars fields ++ rest))) =
      some ((key, v) :: fields, rest) := by
  induction fields generalizing key v fuel with
  | nil =>
    simp only [fieldChars, List.length_singleton] at enough
    obtain ⟨fuel, rfl⟩ : ∃ n, fuel = n + 2 := ⟨fuel - 2, by omega⟩
    have read := first fuel _ (by omega) (ends_fieldChars ([] : List (String × Json α)) rest)
    have brace : skipBlanks (fieldChars ([] : List (String × Json α)) ++ rest) = '}' :: rest := rfl
    rw [readFields, skipBlanks_stringText]
    simp only [readString_body, skipBlanks_colon, read, brace, String.ofList_toList]
  | cons field fields ih =>
    simp only [fieldChars, List.length_cons, List.length_append] at enough
    obtain ⟨fuel, rfl⟩ : ∃ n, fuel = n + 2 := ⟨fuel - 2, by omega⟩
    have read := first fuel _ (by omega) (ends_fieldChars (field :: fields) rest)
    have left : (chars field.2).length + (fieldChars fields).length < fuel + 1 := by omega
    have more := ih field.1 (others field List.mem_cons_self)
      (fun f hf => others f (List.mem_cons_of_mem field hf)) left
    have comma : skipBlanks (fieldChars (field :: fields) ++ rest) =
        ',' :: (stringText field.1 ++ ':' :: (chars field.2 ++ (fieldChars fields ++ rest))) := by
      simp only [fieldChars, List.cons_append, List.append_assoc]
      rfl
    rw [readFields, skipBlanks_stringText]
    simp only [readString_body, skipBlanks_colon, read, comma, more, Option.map_some,
      String.ofList_toList]

theorem readValue_list {v : Json α} (open' : Opens v) (fuel : Nat) (rest : List Char) :
    readValue (fuel + 1) ('[' :: (chars v ++ rest)) =
      (readItems fuel (chars v ++ rest)).map fun read : List (Json α) × List Char =>
        (.list read.1, read.2) := by
  obtain ⟨c, cs, text, blank, bracket⟩ := open'
  have skip : skipBlanks ('[' :: (chars v ++ rest)) = '[' :: (chars v ++ rest) := rfl
  rw [text, List.cons_append] at skip ⊢
  rw [readValue, skip]
  simp only [skipBlanks_cons blank]
  split
  · next eq => exact absurd (List.cons.inj eq).1 bracket
  · rfl

omit [Printable α] in
theorem readValue_object (key : String) (fuel : Nat) (cs : List Char) :
    readValue (fuel + 1) ('{' :: (stringText key ++ cs)) =
      (readFields fuel (stringText key ++ cs)).map
        fun read : List (String × Json α) × List Char => (.object read.1, read.2) := rfl

/-- **Values read back**, whatever follows them. -/
theorem reads {v : Json α} (readable : Readable v) : Reads v := by
  induction v using Json.induction with
  | null =>
    intro fuel rest _ _
    exact readValue_name (show ("null", .null) ∈ valueNames by simp [valueNames]) fuel rest
  | bool b =>
    intro fuel rest _ _
    cases b with
    | true => exact readValue_name (show ("true", .bool true) ∈ valueNames by simp [valueNames]) fuel rest
    | false =>
      exact readValue_name (show ("false", .bool false) ∈ valueNames by simp [valueNames]) fuel rest
  | int i =>
    intro fuel rest _ ends
    have read := readValue_number (α := α) (wellFormed_ofInt i) fuel ends
    rwa [chars_ofInt, value_ofInt] at read
  | real x =>
    intro fuel rest _ ends
    cases readable with
    | real x h =>
      rw [chars]
      cases h with
      | number t wf text value => rw [text, readValue_number wf fuel ends, value]
      | name word named text => rw [text, readValue_name (mem_valueNames named)]
  | text s =>
    intro fuel rest _ _
    rw [chars, readValue, skipBlanks_stringText]
    simp only [readString_body, Option.map_some, String.ofList_toList]
  | list items ih =>
    intro fuel rest enough _
    cases readable with
    | list items h =>
      cases items with
      | nil => rfl
      | cons v items =>
        have readItem : ∀ w ∈ v :: items, Reads w := fun w hw => ih w hw (h w hw)
        simp only [chars, List.length_cons, List.length_append] at enough
        have left : (chars v).length + (itemChars items).length < fuel := by omega
        have read := readItems_append items (readItem v List.mem_cons_self)
          (fun w hw => readItem w (List.mem_cons_of_mem v hw)) rest left
        rw [chars, List.cons_append, List.append_assoc,
          readValue_list (opens v (h v List.mem_cons_self)), read, Option.map_some]
  | object fields ih =>
    intro fuel rest enough _
    cases readable with
    | object fields h =>
      cases fields with
      | nil => rfl
      | cons field fields =>
        have readField : ∀ f ∈ field :: fields, Reads f.2 := fun f hf => ih f hf (h f hf)
        simp only [chars, List.length_cons, List.length_append] at enough
        have left : (chars field.2).length + (fieldChars fields).length < fuel := by omega
        have read := readFields_append fields field.1 (readField field List.mem_cons_self)
          (fun f hf => readField f (List.mem_cons_of_mem field hf)) rest left
        simp only [chars, List.cons_append, List.append_assoc]
        rw [readValue_object, read, Option.map_some]

/-- **Texts read back.** -/
theorem parse?_render {v : Json α} (readable : Readable v) : parse? (render v) = some v := by
  have text : (render v).toList = chars v ++ [] := by
    rw [List.append_nil]
    exact String.toList_ofList
  have nothing : Ends [] := by
    intro c hc
    cases hc
  have read := reads readable (chars v).length [] (Nat.le_refl _) nothing
  rw [List.append_nil] at text read
  unfold parse?
  simp only [text, read]
  rfl

/-- Values with one text are one value. -/
theorem render_injective {v w : Json α} (hv : Readable v) (hw : Readable w)
    (same : render v = render w) : v = w := by
  have read := parse?_render hv
  rw [same, parse?_render hw] at read
  exact (Option.some.inj read).symm

/-! ## Printable ASCII -/

/-- The characters from the space to the tilde; none of them ends a line. -/
def IsPrintable (c : Char) : Prop := 0x20 ≤ c.toNat ∧ c.toNat ≤ 0x7e

instance (c : Char) : Decidable (IsPrintable c) := inferInstanceAs (Decidable (_ ∧ _))

/-- All characters of a text are printable. -/
def ArePrintable (cs : List Char) : Prop := ∀ c ∈ cs, IsPrintable c

instance (cs : List Char) : Decidable (ArePrintable cs) := List.decidableBAll IsPrintable cs

theorem isPrintable_digitChar : ∀ d < 16, IsPrintable d.digitChar := by decide

theorem isPrintable_of_digit {c : Char} (digit : c.isDigit = true) : IsPrintable c := by
  simp only [Char.isDigit, Bool.and_eq_true, decide_eq_true_eq] at digit
  unfold IsPrintable
  have low : 48 ≤ c.toNat := UInt32.le_iff_toNat_le.1 digit.1
  have high : c.toNat ≤ 57 := UInt32.le_iff_toNat_le.1 digit.2
  omega

theorem arePrintable_unitEscape {unit : Nat} (h : unit < 0x10000) :
    ArePrintable (unitEscape unit) := by
  have digit (d : Nat) (hd : d < 16) : IsPrintable d.digitChar := isPrintable_digitChar d hd
  rw [unitEscape, hex4_eq h]
  simp only [ArePrintable, List.forall_mem_cons, List.not_mem_nil, false_implies, implies_true, and_true]
  refine ⟨by decide, by decide, ?_, ?_, ?_, ?_⟩ <;> apply digit <;> omega

theorem arePrintable_charText (c : Char) : ArePrintable (charText c) := by
  have valid : c.toNat < 0xd800 ∨ 0xdfff < c.toNat ∧ c.toNat < 0x110000 := c.valid
  unfold charText
  -- seven short escapes, then the character itself or its units
  iterate 7
    split
    · decide
  split
  · next h => exact List.forall_mem_singleton.2 h
  split
  · next h => exact arePrintable_unitEscape h
  · intro d hd
    rcases List.mem_append.1 hd with hd | hd
    · exact arePrintable_unitEscape (by omega) d hd
    · exact arePrintable_unitEscape (by omega) d hd

theorem arePrintable_stringText (s : String) : ArePrintable (stringText s) := by
  intro c hc
  simp only [stringText, List.mem_cons, List.mem_append, List.mem_flatMap, List.not_mem_nil,
    or_false] at hc
  rcases hc with rfl | ⟨d, -, hd⟩ | rfl
  · decide
  · exact arePrintable_charText d c hd
  · decide

theorem arePrintable_digits {cs : List Char} (h : IsDigits cs) : ArePrintable cs :=
  fun c hc => isPrintable_of_digit (h.2 c hc)

theorem arePrintable_number {t : NumberText} (wf : t.WellFormed) : ArePrintable t.chars := by
  have sign : ArePrintable (signChars t.negative) := by
    cases t.negative <;> decide
  have fraction : ArePrintable (fractionChars t.fraction) := by
    intro c hc
    cases h : t.fraction with
    | none => simp [h, fractionChars] at hc
    | some digits =>
      rw [h] at hc
      rcases List.mem_cons.1 hc with rfl | hc
      · decide
      · exact arePrintable_digits (wf.fraction digits h) c hc
  have exponent : ArePrintable (exponentChars t.exponent) := by
    intro c hc
    cases h : t.exponent with
    | none => simp [h, exponentChars] at hc
    | some e =>
      rw [h] at hc
      rcases List.mem_cons.1 hc with rfl | hc
      · decide
      rcases List.mem_cons.1 hc with rfl | hc
      · split <;> decide
      · exact arePrintable_digits (wf.exponent e h) c hc
  simp only [ArePrintable, NumberText.chars, List.forall_mem_append]
  exact ⟨sign, arePrintable_digits wf.whole, fraction, exponent⟩

omit [Printable α] in
theorem arePrintable_name : ∀ entry ∈ (valueNames : List (String × Json α)),
    ArePrintable entry.1.toList := by
  simp only [valueNames, realNames, List.map_cons, List.map_nil, List.cons_append, List.nil_append,
    List.forall_mem_cons, List.not_mem_nil, false_implies, implies_true, and_true]
  decide

theorem arePrintable_itemChars {items : List (Json α)} (h : ∀ v ∈ items, ArePrintable (chars v)) :
    ArePrintable (itemChars items) := by
  induction items with
  | nil =>
    rw [itemChars]
    decide
  | cons v items ih =>
    simp only [ArePrintable, itemChars, List.forall_mem_cons, List.forall_mem_append]
    exact ⟨by decide, h v List.mem_cons_self, ih fun w hw => h w (List.mem_cons_of_mem v hw)⟩

theorem arePrintable_fieldChars {fields : List (String × Json α)}
    (h : ∀ field ∈ fields, ArePrintable (chars field.2)) : ArePrintable (fieldChars fields) := by
  induction fields with
  | nil =>
    rw [fieldChars]
    decide
  | cons field fields ih =>
    simp only [ArePrintable, fieldChars, List.forall_mem_cons, List.forall_mem_append]
    exact ⟨by decide, arePrintable_stringText field.1, by decide, h field List.mem_cons_self,
      ih fun f hf => h f (List.mem_cons_of_mem field hf)⟩

theorem arePrintable_chars {v : Json α} (readable : Readable v) : ArePrintable (chars v) := by
  induction v using Json.induction with
  | null =>
    rw [chars]
    decide
  | bool b =>
    cases b <;> rw [chars] <;> decide
  | int i =>
    rw [chars, ← chars_ofInt]
    exact arePrintable_number (wellFormed_ofInt i)
  | real x =>
    cases readable with
    | real x h =>
      rw [chars]
      cases h with
      | number t wf text value => exact text ▸ arePrintable_number wf
      | name word named text => exact text ▸ arePrintable_name _ (mem_valueNames named)
  | text s =>
    rw [chars]
    exact arePrintable_stringText s
  | list items ih =>
    cases readable with
    | list items h =>
      cases items with
      | nil =>
        rw [chars]
        decide
      | cons v items =>
        have each : ∀ w ∈ v :: items, ArePrintable (chars w) := fun w hw => ih w hw (h w hw)
        simp only [ArePrintable, chars, List.forall_mem_cons, List.forall_mem_append]
        exact ⟨by decide, each v List.mem_cons_self,
          arePrintable_itemChars fun w hw => each w (List.mem_cons_of_mem v hw)⟩
  | object fields ih =>
    cases readable with
    | object fields h =>
      cases fields with
      | nil =>
        rw [chars]
        decide
      | cons field fields =>
        have each : ∀ f ∈ field :: fields, ArePrintable (chars f.2) :=
          fun f hf => ih f hf (h f hf)
        simp only [ArePrintable, chars, List.forall_mem_cons, List.forall_mem_append]
        exact ⟨by decide, arePrintable_stringText field.1, by decide, each field List.mem_cons_self,
          arePrintable_fieldChars fun f hf => each f (List.mem_cons_of_mem field hf)⟩

/-- **Texts are printable ASCII on one line.** -/
theorem printable_render {v : Json α} (readable : Readable v) : ArePrintable (render v).toList := by
  rw [render, String.toList_ofList]
  exact arePrintable_chars readable

end SymSolve.Json
