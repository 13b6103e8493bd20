import SymSolve.Proofs.Decimal.Shortest
import SymSolve.Proofs.Json.RoundTrip

/-!
# The text of a double reads back

**Theorem (`Json.readsBack`).** Every double reads back from its JSON text.

So every JSON value with doubles reads back (`Json.readable`). A finite double is written with the
digits of its shortest decimal, which reads back by `decode_nearestDecimal`; what is left to show
is that moving the point, dropping zeros at the end and splitting off an exponent keep the number
(`writes_arrange`).
-/

namespace SymSolve.Json

open Decimal NumberText

/-! ## Digits -/

theorem natOfDigits_append (a b : List Char) :
    natOfDigits (a ++ b) = natOfDigits a * Nat.pow 10 b.length + natOfDigits b := by
  show Nat.ofDigitChars 10 (a ++ b) 0 = Nat.ofDigitChars 10 a 0 * 10 ^ b.length +
    Nat.ofDigitChars 10 b 0
  rw [Nat.ofDigitChars_append, Nat.ofDigitChars_eq_ofDigitChars_zero, Nat.mul_comm]

theorem natOfDigits_zeros (k : Nat) : natOfDigits (List.replicate k '0') = 0 :=
  Nat.ofDigitChars_replicate_zero

theorem isDigit_of_mem_zeros {k : Nat} {c : Char} (hc : c ∈ List.replicate k '0') :
    c.isDigit = true := by
  rw [List.eq_of_mem_replicate hc]
  decide

theorem IsDigits.zeros_append {digits : List Char} (hd : IsDigits digits) (k : Nat) :
    IsDigits (List.replicate k '0' ++ digits) :=
  ⟨List.append_ne_nil_of_right_ne_nil _ hd.1,
    fun c hc => (List.mem_append.1 hc).elim isDigit_of_mem_zeros (hd.2 c)⟩

theorem IsDigits.append_zeros {digits : List Char} (hd : IsDigits digits) (k : Nat) :
    IsDigits (digits ++ List.replicate k '0') :=
  ⟨List.append_ne_nil_of_left_ne_nil hd.1 _,
    fun c hc => (List.mem_append.1 hc).elim (hd.2 c) isDigit_of_mem_zeros⟩

theorem trimZeros_ne_nil (digits : List Char) : trimZeros digits ≠ [] := by
  unfold trimZeros
  split
  · exact List.cons_ne_nil _ _
  · next h => exact h

/-- What is dropped at the end of digits is zeros. -/
theorem exists_eq_trimZeros_append {digits : List Char} (h : natOfDigits digits ≠ 0) :
    ∃ k, digits = trimZeros digits ++ List.replicate k '0' := by
  obtain ⟨k, zeros⟩ : ∃ k, digits.reverse.takeWhile (· = '0') = List.replicate k '0' := by
    refine ⟨_, List.eq_replicate_of_mem fun c hc => ?_⟩
    simpa using List.mem_takeWhile_imp hc
  have split : digits =
      (digits.reverse.dropWhile (· = '0')).reverse ++ List.replicate k '0' := by
    rw [← List.reverse_replicate, ← zeros, ← List.reverse_append, List.takeWhile_append_dropWhile,
      List.reverse_reverse]
  have trimmed : trimZeros digits = (digits.reverse.dropWhile (· = '0')).reverse := by
    unfold trimZeros
    split
    · next none =>
      rw [none, List.nil_append] at split
      rw [split, natOfDigits_zeros] at h
      exact absurd rfl h
    · rfl
  exact ⟨k, by rwa [trimmed]⟩

/-! ## Numbers with a point or an exponent -/

/-- The digits of a text as one integer. -/
def NumberText.coefficient (t : NumberText) : Nat := natOfDigits (t.whole ++ t.fraction.getD [])

/-- The power of ten of the last digit of a text. -/
def NumberText.scale (t : NumberText) : Int :=
  (t.exponent.map exponentValue).getD 0 - (t.fraction.getD []).length

/-- The text of a real number with the sign and the magnitude that it has. -/
structure Writes (t : NumberText) (negative : Bool) (body : List Char) (q : ℚ) : Prop where
  wellFormed : t.WellFormed
  text : t.chars = signChars negative ++ body
  negative : t.negative = negative
  real : t.fraction.isSome ∨ t.exponent.isSome
  value : (t.coefficient : ℚ) * 10 ^ t.scale = q

theorem Writes.value_eq {α : Type} [Scalar α] {t : NumberText} {negative : Bool} {body : List Char}
    {q : ℚ} (h : Writes t negative body q) :
    (t.value : Json α) = .real (if negative then -Scalar.ofDecimal t.coefficient t.scale
      else Scalar.ofDecimal t.coefficient t.scale) := by
  obtain ⟨-, -, rfl, real, -⟩ := h
  obtain ⟨negative, whole, fraction, exponent⟩ := t
  cases fraction with
  | some digits => rfl
  | none =>
    cases exponent with
    | some e => rfl
    | none => simp at real

/-- Digits with a point after the first `whole` of them and an exponent. -/
def pointed (negative : Bool) (whole : Nat) (digits : List Char)
    (exponent : Option (Bool × List Char)) : NumberText where
  negative := negative
  whole := digits.take whole
  fraction := if digits.drop whole = [] then none else some (digits.drop whole)
  exponent := exponent

section Pointed

variable (negative : Bool) {whole : Nat} {digits : List Char} (exponent : Option (Bool × List Char))

theorem chars_pointed :
    (pointed negative whole digits exponent).chars =
      signChars negative ++ (pointAfter whole digits ++ NumberText.exponentChars exponent) := by
  unfold pointed NumberText.chars pointAfter
  cases h : digits.drop whole with
  | nil =>
    have all : digits.take whole = digits := List.take_of_length_le (List.drop_eq_nil_iff.1 h)
    simp only [all, if_true, fractionChars, List.nil_append]
  | cons c rest =>
    simp only [reduceCtorEq, if_false, fractionChars, List.append_assoc, List.cons_append]

theorem wellFormed_pointed (hd : IsDigits digits) (hw : 0 < whole)
    (he : ∀ e ∈ exponent, IsDigits e.2) : (pointed negative whole digits exponent).WellFormed where
  whole := by
    refine ⟨?_, fun c hc => hd.2 c (List.mem_of_mem_take hc)⟩
    simp only [pointed, ne_eq, List.take_eq_nil_iff, hd.1, or_false]
    omega
  fraction := by
    intro rest hrest
    unfold pointed at hrest
    dsimp only at hrest
    split at hrest
    · cases hrest
    · next nonempty =>
      cases hrest
      exact ⟨nonempty, fun c hc => hd.2 c (List.mem_of_mem_drop hc)⟩
  exponent := he

theorem getD_fraction_pointed :
    (pointed negative whole digits exponent).fraction.getD [] = digits.drop whole := by
  unfold pointed
  dsimp only
  split
  · next none => exact none.symm
  · rfl

theorem coefficient_pointed :
    (pointed negative whole digits exponent).coefficient = natOfDigits digits := by
  unfold coefficient
  rw [getD_fraction_pointed]
  exact congrArg natOfDigits (List.take_append_drop whole digits)

theorem scale_pointed (fits : whole ≤ digits.length) :
    (pointed negative whole digits exponent).scale =
      (exponent.map exponentValue).getD 0 + whole - digits.length := by
  unfold scale
  rw [getD_fraction_pointed, List.length_drop]
  show (exponent.map exponentValue).getD 0 - ((digits.length - whole : Nat) : Int) = _
  omega

end Pointed

/-- The digits of an exponent. -/
theorem exists_exponentChars (power : Int) :
    ∃ e, Decimal.exponentChars power = NumberText.exponentChars (some e) ∧ IsDigits e.2 ∧
      exponentValue e = power := by
  have digits : IsDigits (natChars power.natAbs) := isDigits_toDigits _
  have same : natOfDigits (natChars power.natAbs) = power.natAbs := Nat.ofDigitChars_ten_toDigits
  refine ⟨(decide (power < 0), if (natChars power.natAbs).length < 2 then
    '0' :: natChars power.natAbs else natChars power.natAbs), ?_, ?_, ?_⟩
  · simp only [Decimal.exponentChars, NumberText.exponentChars, decide_eq_true_eq]
  · dsimp only
    split
    · exact digits.zeros_append 1
    · exact digits
  · have value : natOfDigits (if (natChars power.natAbs).length < 2 then
        '0' :: natChars power.natAbs else natChars power.natAbs) = power.natAbs := by
      split <;> exact same
    simp only [exponentValue, value, decide_eq_true_eq]
    split <;> omega

/-! ## The layout -/

theorem arrange_exact (digits : List Char) (power : Int) :
    Layout.exact.arrange digits power =
      if power < -4 ∨ 16 ≤ power then pointAfter 1 (trimZeros digits) ++ Decimal.exponentChars power
      else if power < 0 then
        '0' :: '.' :: List.replicate (-power - 1).toNat '0' ++ trimZeros digits
      else if (trimZeros digits).length ≤ power.toNat + 1 then
        trimZeros digits ++ List.replicate (power.toNat + 1 - (trimZeros digits).length) '0' ++
          ['.', '0']
      else pointAfter (power.toNat + 1) (trimZeros digits) := rfl

/-- The number that digits from `10 ^ power` on stand for. -/
def placed (digits : List Char) (power : Int) : ℚ :=
  natOfDigits digits * 10 ^ (power + 1 - digits.length)

theorem placed_append_zeros (digits : List Char) (k : Nat) (power : Int) :
    placed (digits ++ List.replicate k '0') power = placed digits power := by
  have ten : (10 : ℚ) ≠ 0 := by norm_num
  have places : power + 1 - digits.length =
      (k : ℤ) + (power + 1 - (digits.length + k : Nat)) := by
    push_cast
    ring
  unfold placed
  rw [natOfDigits_append, natOfDigits_zeros, List.length_append, List.length_replicate, places,
    zpow_add₀ ten, zpow_natCast]
  push_cast [Nat.pow_eq]
  ring

section Layouts

variable (negative : Bool) {digits : List Char}

theorem writes_exponent (hd : IsDigits digits) (power : Int) :
    ∃ t, Writes t negative (pointAfter 1 digits ++ Decimal.exponentChars power)
      (placed digits power) := by
  obtain ⟨e, text, he, value⟩ := exists_exponentChars power
  have exponent : ∀ e' ∈ some e, IsDigits e'.2 := by
    intro e' h
    cases h
    exact he
  refine ⟨pointed negative 1 digits (some e), wellFormed_pointed negative _ hd one_pos exponent,
    ?_, rfl, .inr rfl, ?_⟩
  · rw [chars_pointed, text]
  · rw [coefficient_pointed, scale_pointed negative _ (List.length_pos_iff.2 hd.1), placed]
    simp only [Option.map_some, Option.getD_some, value, Nat.cast_one]

theorem writes_pointAfter (hd : IsDigits digits) {whole : Nat} (hw : 0 < whole)
    (more : whole < digits.length) :
    ∃ t, Writes t negative (pointAfter whole digits) (placed digits (whole - 1)) := by
  refine ⟨pointed negative whole digits none,
    wellFormed_pointed negative none hd hw fun e h => absurd h (Option.not_mem_none e), ?_, rfl,
    .inl ?_, ?_⟩
  · rw [chars_pointed, NumberText.exponentChars, List.append_nil]
  · have rest : digits.drop whole ≠ [] := by
      rw [ne_eq, List.drop_eq_nil_iff]
      omega
    rw [pointed, if_neg rest]
    rfl
  · rw [coefficient_pointed, scale_pointed negative none more.le, placed]
    congr 2
    show (0 : Int) + whole - digits.length = _
    omega

theorem writes_zeros_append (hd : IsDigits digits) (k : Nat) :
    ∃ t, Writes t negative ('0' :: '.' :: List.replicate k '0' ++ digits)
      (placed digits (-k - 1)) := by
  have zero : IsDigits ['0'] := by decide
  refine ⟨⟨negative, ['0'], some (List.replicate k '0' ++ digits), none⟩, ⟨zero, ?_, ?_⟩, ?_, rfl,
    .inl rfl, ?_⟩
  · intro ds h
    cases h
    exact hd.zeros_append k
  · exact fun e h => absurd h (Option.not_mem_none e)
  · simp [NumberText.chars, fractionChars, NumberText.exponentChars]
  · have same : natOfDigits ('0' :: (List.replicate k '0' ++ digits)) = natOfDigits digits := by
      rw [← List.cons_append, ← List.replicate_succ, natOfDigits_append, natOfDigits_zeros,
        Nat.zero_mul, Nat.zero_add]
    unfold coefficient scale placed
    simp only [Option.getD_some, List.singleton_append, same, Option.map_none, Option.getD_none,
      List.length_append, List.length_replicate]
    congr 2
    push_cast
    ring

theorem writes_append_zeros (hd : IsDigits digits) (k : Nat) :
    ∃ t, Writes t negative (digits ++ List.replicate k '0' ++ ['.', '0'])
      (placed digits (digits.length + k - 1)) := by
  refine ⟨⟨negative, digits ++ List.replicate k '0', some ['0'], none⟩,
    ⟨hd.append_zeros k, ?_, ?_⟩, ?_, rfl, .inl rfl, ?_⟩
  · intro ds h
    cases h
    decide
  · exact fun e h => absurd h (Option.not_mem_none e)
  · simp [NumberText.chars, fractionChars, NumberText.exponentChars]
  · rw [← placed_append_zeros digits (k + 1), List.replicate_succ', ← List.append_assoc]
    unfold coefficient scale placed
    congr 2
    show (0 : Int) - 1 = _
    simp only [List.length_append, List.length_replicate, List.length_singleton]
    omega

/-- **Every layout of digits keeps the number.** -/
theorem writes_arrange (hd : IsDigits digits) (nonzero : natOfDigits digits ≠ 0) (power : Int) :
    ∃ t, Writes t negative (Layout.exact.arrange digits power) (placed digits power) := by
  obtain ⟨k, split⟩ := exists_eq_trimZeros_append nonzero
  have kept : placed digits power = placed (trimZeros digits) power := by
    conv_lhs => rw [split]
    exact placed_append_zeros _ k power
  have trimmed : IsDigits (trimZeros digits) := by
    refine ⟨trimZeros_ne_nil digits, fun c hc => hd.2 c ?_⟩
    rw [split]
    exact List.mem_append_left _ hc
  rw [kept, arrange_exact]
  generalize trimZeros digits = ds at *
  split_ifs with far below short
  · exact writes_exponent negative trimmed power
  · have place : -((-power - 1).toNat : Int) - 1 = power := by omega
    simpa only [place] using writes_zeros_append negative trimmed (-power - 1).toNat
  · have place : (ds.length : Int) + (power.toNat + 1 - ds.length : Nat) - 1 = power := by omega
    simpa only [place] using writes_append_zeros negative trimmed (power.toNat + 1 - ds.length)
  · have place : ((power.toNat + 1 : Nat) : Int) - 1 = power := by omega
    simpa only [place] using writes_pointAfter negative trimmed (Nat.succ_pos _) (not_le.1 short)

/-- **The text of a magnitude** stands for it. -/
theorem exists_writes {m : Nat} {e : Int} (shape : Representable m e) :
    ∃ t q, Writes t negative (Layout.exact.magnitude m e) q ∧
      decode (nearestDecimal t.coefficient t.scale) = .finite false m e := by
  by_cases hm : m = 0
  · have least : e = leastExponent := by
      refine shape.normal.resolve_left ?_
      rw [hm]
      decide
    subst hm least
    have digits : IsDigits ['0'] := by decide
    obtain ⟨t, writes⟩ := writes_append_zeros negative digits 0
    refine ⟨t, _, writes, ?_⟩
    have zero : t.coefficient = 0 := by
      have value := writes.value
      rw [placed, show natOfDigits ['0'] = 0 from rfl, Nat.cast_zero, zero_mul] at value
      exact_mod_cast (mul_eq_zero.1 value).resolve_right (by positivity)
    rw [zero]
    exact decode_zero
  · have inside := inCell_shortest shape hm
    have body : Layout.exact.magnitude m e =
        Layout.exact.arrange (natChars (shortest m e).digits) (shortest m e).power := by
      unfold Layout.magnitude
      rw [if_neg hm]
      rfl
    generalize shortest m e = d at *
    have digits : IsDigits (natChars d.digits) := isDigits_toDigits d.digits
    have same : natOfDigits (natChars d.digits) = d.digits := Nat.ofDigitChars_ten_toDigits
    have value : placed (natChars d.digits) d.power = d.value := by
      unfold placed
      rw [same]
      rfl
    have nonzero : natOfDigits (natChars d.digits) ≠ 0 := by
      intro zero
      have positive := inside.pos hm
      rw [← value, placed, zero, Nat.cast_zero, zero_mul] at positive
      exact lt_irrefl _ positive
    obtain ⟨t, writes⟩ := writes_arrange negative digits nonzero d.power
    rw [← value, ← writes.value] at inside
    exact ⟨t, _, body ▸ writes, inside.decode_nearestDecimal shape hm⟩

end Layouts

/-! ## Doubles -/

theorem isNaN_iff {x : Float} : Scalar.isNaN x = true ↔ decode x = .notANumber := by
  have nan : decode Float.nan = .notANumber := by decide +kernel
  have unfolded : Scalar.isNaN x = !(x == x) := rfl
  rw [unfolded, Bool.not_eq_true', Float.beq_self_eq_false_iff]
  constructor
  · rintro rfl
    exact nan
  · intro h
    exact decode_injective (h.trans nan.symm)

theorem readsBack_of_finite {x : Float} {negative : Bool} {m : Nat} {e : Int}
    (h : decode x = .finite negative m e) : ReadsBack x := by
  obtain ⟨t, q, writes, read⟩ := exists_writes negative (representable_of_decode h)
  have number : Scalar.isNaN x = false := by
    rw [← Bool.not_eq_true, isNaN_iff, h]
    exact Datum.noConfusion
  have finite : Scalar.isFinite x = true := isFinite_iff.2 ⟨_, _, _, h⟩
  have text : (Printable.exact x).toList = signChars negative ++ Layout.exact.magnitude m e := by
    show (Layout.exact.write x).toList = _
    unfold Layout.write
    rw [h]
    cases negative <;> exact String.toList_ofList
  refine .number t writes.wellFormed ?_ ?_
  · rw [realText, number, finite, writes.text, text]
    rfl
  · rw [writes.value_eq]
    congr 1
    have magnitude : decode (Scalar.ofDecimal t.coefficient t.scale) = .finite false m e := read
    apply decode_injective
    rw [h]
    cases negative with
    | false => exact magnitude
    | true => exact decode_neg magnitude

theorem readsBack_of_name {x y : Float} {word : String} (named : (word, y) ∈ realNames)
    (text : realText y = word.toList) (same : decode x = decode y) : ReadsBack x := by
  rw [decode_injective same]
  exact .name word named text

/-- **Every double reads back from its JSON text.** -/
theorem readsBack (x : Float) : ReadsBack x := by
  cases h : decode x with
  | finite negative m e => exact readsBack_of_finite h
  | notANumber =>
    refine readsBack_of_name List.mem_cons_self (by decide +kernel) (h.trans ?_)
    decide +kernel
  | infinite negative =>
    cases negative with
    | false =>
      refine readsBack_of_name (List.mem_cons_of_mem _ List.mem_cons_self) (by decide +kernel)
        (h.trans ?_)
      decide +kernel
    | true =>
      refine readsBack_of_name
        (List.mem_cons_of_mem _ (List.mem_cons_of_mem _ List.mem_cons_self)) (by decide +kernel)
        (h.trans ?_)
      decide +kernel

/-- **Every JSON value with doubles reads back.** -/
theorem readable (v : Json Float) : v.Readable := by
  induction v using Json.induction with
  | null => exact .null
  | bool b => exact .bool b
  | int i => exact .int i
  | real x => exact .real x (readsBack x)
  | text s => exact .text s
  | list items ih => exact .list items ih
  | object fields ih => exact .object fields ih

end SymSolve.Json
