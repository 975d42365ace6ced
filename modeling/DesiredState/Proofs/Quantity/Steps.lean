import DesiredState.Proofs.Quantity.Spelling
import Mathlib.Data.String.Basic

/-!
# Steps of a reading

Reading a quantity takes arithmetic in words of 8, 32 and 128 bits. A step whose result fits goes on
with that result. Where it does not fit, a step that is checked refuses the text, and after one that
is not checked the reading has overflowed, whatever follows (`Overflowed.bind`). In a short text the
places after the point fit in their word, so what spells a quantity is read from the parts of its
spelling (`reading_of_spells`), and what spells none is refused (`reading_of_unspelled`).
-/

namespace DesiredState.Quantity

namespace Reading

variable {α β : Type}

/-- There is no value, or a step that is checked does not fit. -/
def refused : Reading α := ofOption none

/-- A step that is not checked left its word. -/
def Overflowed (x : Reading α) : Prop := x.run.overflowed = true

@[simp] theorem pure_then (a : α) (f : α → Reading β) : (pure a >>= f : Reading β) = f a := rfl

@[simp] theorem refused_then (f : α → Reading β) : (refused >>= f : Reading β) = refused := rfl

@[simp] theorem step_pure (a : α) : step (pure a) = pure a := rfl

@[simp] theorem ofOption_some (a : α) : ofOption (some a) = pure a := rfl

@[simp] theorem ofOption_none : ofOption (none : Option α) = refused := rfl

theorem Overflowed.bind {x : Reading α} (h : x.Overflowed) (f : α → Reading β) :
    (x >>= f).Overflowed := by
  show (x.run.overflowed || _) = true
  rw [show x.run.overflowed = true from h, Bool.true_or]

theorem overflowed_step {bits : Nat} {n : Int} (h : ¬ Word.HoldsSigned bits n) :
    (step (Word.unchecked bits n)).Overflowed := by
  show (!decide (Word.HoldsSigned bits n) || false) = true
  rw [decide_eq_false h]
  rfl

end Reading

open Reading

/-! ## Single steps -/

theorem holds_wide_iff {n : Nat} : Word.HoldsSigned 128 n ↔ n < 2 ^ 127 := by
  have wide : ((twoTo (128 - 1) : Nat) : Int) = ((2 ^ 127 : Nat) : Int) := rfl
  constructor
  · rintro ⟨-, high⟩
    omega
  · exact fun h => ⟨by omega, by omega⟩

/-- A checked step with natural numbers is a comparison. -/
theorem fitting_eq (n : Nat) : fitting n = if n < 2 ^ 127 then pure (n : Int) else refused := by
  simp only [fitting, Word.checked?, holds_wide_iff]
  split <;> rfl

theorem taken_of_holds {n : Int} (h : Word.HoldsSigned 128 n) : taken n = pure n := by
  rw [taken, @Word.unchecked_of_holds 127 n h, step_pure]

theorem taken_of_lt {n : Nat} (h : n < 2 ^ 127) : taken n = pure (n : Int) :=
  taken_of_holds (holds_wide_iff.2 h)

theorem power_eq (e : Nat) :
    power e = if e ≤ 38 then pure ((10 ^ e : Nat) : Int) else refused := by
  unfold power
  split <;> rfl

/-- A quotient is rounded up if the value and the divisor have a sum that fits. -/
theorem quotient_of_lt {value divisor : Nat} (positive : 0 < divisor)
    (sum : value + divisor < 2 ^ 127) :
    quotient value divisor = pure (((value + divisor - 1) / divisor : Nat) : Int) := by
  have less : ((value + divisor : Nat) : Int) - 1 = (value + divisor - 1 : Nat) := by omega
  have small : (value + divisor - 1) / divisor < 2 ^ 127 :=
    (Nat.div_le_self _ _).trans_lt (by omega)
  rw [quotient, ← Nat.cast_add, taken_of_lt sum, pure_then, less, taken_of_lt (by omega),
    pure_then, ← Int.ofNat_tdiv, taken_of_lt small]

theorem overflowed_quotient {value divisor : Nat} (large : 2 ^ 127 ≤ value + divisor) :
    (quotient value divisor).Overflowed := by
  have apart : ¬ Word.HoldsSigned 128 ((value + divisor : Nat) : Int) :=
    mt holds_wide_iff.1 (by omega)
  rw [quotient, ← Nat.cast_add]
  exact (overflowed_step apart).bind _

/-! ## Digits -/

/-- A byte holds what is left of the character of a digit. -/
theorem step_digit (d : Fin 10) :
    step (Word.uncheckedUnsigned 8 ((digit d).toNat - '0'.toNat)) = pure ((d : Nat) : Int) := by
  have taken : ((digit d).toNat : Int) - '0'.toNat = d := by
    revert d
    decide
  have byte : Word.HoldsUnsigned 8 (d : Nat) := by
    have small := d.isLt
    exact ⟨by omega, by show ((d : Nat) : Int) < (256 : Nat); omega⟩
  rw [taken, Word.uncheckedUnsigned_of_holds byte, step_pure]

/-- The digits write the number that they are read as: where the product does not fit, the sum does
not either. -/
theorem readMantissa_eq {s : List Char} (digits : s.all isAsciiDigit = true) {n : Nat}
    (fits : n < 2 ^ 127) :
    readMantissa n s = ofOption ((readDigits n s).map Int.ofNat) := by
  induction s generalizing n with
  | nil => rfl
  | cons c s ih =>
    rw [List.all_cons, Bool.and_eq_true] at digits
    obtain ⟨d, rfl⟩ := exists_digit digits.1
    have tens : (n * 10 : Int) = (n * 10 : Nat) := rfl
    rw [readMantissa, readDigits, toNat_digit, twoTo_eq_pow, tens, fitting_eq, step_digit]
    by_cases product : n * 10 < 2 ^ 127
    · rw [if_pos product, pure_then, pure_then, ← Nat.cast_add, fitting_eq]
      by_cases next : n * 10 + d < 2 ^ 127
      · rw [if_pos next, if_pos next]
        exact ih digits.2 next
      · rw [if_neg next, if_neg next]
        rfl
    · rw [if_neg product, if_neg (by omega)]
      rfl

/-! ## Lengths -/

theorem length_le_utf8ByteSize (s : String) : s.toList.length ≤ s.utf8ByteSize := by
  rw [← String.utf8Len_toList]
  induction s.toList with
  | nil => exact Nat.zero_le _
  | cons c cs ih =>
    have size := c.utf8Size_pos
    rw [List.length_cons, String.utf8Len_cons]
    omega

theorem length_trimChars_le (s : List Char) : (Text.trimChars s).length ≤ s.length := by
  have front := (List.dropWhile_suffix (l := s) Text.isBlank).length_le
  have back := (List.dropWhile_suffix (l := (s.dropWhile Text.isBlank).reverse)
    Text.isBlank).length_le
  rw [List.length_reverse] at back
  rw [Text.trimChars, List.length_reverse]
  exact back.trans front

/-- The parts that are cut off hold digits around the point, and no more of them than there are
characters. -/
theorem of_split? {s : List Char} {parts : Parts} (h : split? s = some parts) :
    (parts.whole ++ parts.fraction).all isAsciiDigit = true ∧ parts.fraction.length ≤ s.length := by
  obtain ⟨sign, number, -⟩ := exists_sign (s.takeWhile isNumberChar)
  rw [split?_eq] at h
  generalize cutSign (s.takeWhile isNumberChar) = cutting at number h
  obtain ⟨negative, digits⟩ := cutting
  dsimp only at number h
  split at h
  · cases h
  · rename_i good
    obtain rfl := Option.some.inj h
    have before := (List.takeWhile_prefix (l := s) isNumberChar).length_le
    have after := (List.dropWhile_suffix (l := digits) (· ≠ '.')).length_le
    rw [number, List.length_append] at before
    rw [Bool.or_eq_true, not_or, Bool.not_eq_true, Bool.not_eq_true, Bool.not_eq_false'] at good
    refine ⟨good.2, ?_⟩
    rw [List.length_drop]
    omega

/-- So few places after the point can be taken off the exponent. -/
theorem step_places {places : Nat} (h : places < 2 ^ 31) :
    step (Word.unchecked 32 (9 - Word.wrap 32 places)) = pure (9 - places : Int) := by
  have narrow : ((twoTo (31 + 1 - 1) : Nat) : Int) = 2147483648 := rfl
  have held : Word.HoldsSigned (31 + 1) places := ⟨by omega, by omega⟩
  have start : Word.HoldsSigned (31 + 1) (9 - places) := ⟨by omega, by omega⟩
  rw [Word.wrap_eq_self held, Word.unchecked_of_holds start, step_pure]

/-! ## Whole quantities -/

variable {text : String} (short : text.utf8ByteSize < 2 ^ 31)

include short

/-- What follows once a text is cut into its parts. -/
theorem reading_of_split {parts : Parts}
    (cut : split? (Text.trimChars text.toList) = some parts) :
    reading text = do
      let mantissa ← ofOption ((readDigits 0 (parts.whole ++ parts.fraction)).map Int.ofNat)
      let scale ← ofOption (readSuffix parts.suffix)
      let ten ← step (Word.unchecked 32 (9 - parts.fraction.length + scale.ten))
      let value ← amount mantissa scale.two ten
      if parts.negative then taken (-value) else return value := by
  obtain ⟨digits, places⟩ := of_split? cut
  have size := (length_trimChars_le text.toList).trans (length_le_utf8ByteSize text)
  have start := step_places (by omega : parts.fraction.length < 2 ^ 31)
  have mantissa := readMantissa_eq digits (n := 0) (by positivity)
  rw [Nat.cast_zero] at mantissa
  rw [reading, cut, ofOption_some, pure_then, mantissa]
  simp only [start, pure_then]

/-- What spells a quantity is read from the parts of the spelling. -/
theorem reading_of_spells {q : Spelling} (spells : q.Spells text) :
    reading text =
      if q.mantissa < 2 ^ 127 then do
        let ten ← step (Word.unchecked 32 q.ten)
        let value ← amount q.mantissa q.two ten
        if q.sign.negative then taken (-value) else return value
      else refused := by
  have cut := split?_chars q
  have digits := readDigits_map (q.whole ++ q.fraction) (show 0 < 2 ^ 127 by norm_num)
  have mantissa : numeral (q.whole ++ q.fraction) = q.mantissa := rfl
  rw [spells] at cut
  rw [zero_mul, zero_add, List.map_append, mantissa] at digits
  rw [reading_of_split short cut, digits, List.length_map, readSuffix_chars]
  by_cases fits : q.mantissa < 2 ^ 127
  · rw [if_pos fits, if_pos fits, Option.map_some, ofOption_some, pure_then, ofOption_some,
      pure_then]
    rfl
  · rw [if_neg fits, if_neg fits]
    rfl

/-- What spells no quantity is refused. -/
theorem reading_of_unspelled (h : ¬ ∃ q : Spelling, q.Spells text) : reading text = refused := by
  cases cut : split? (Text.trimChars text.toList) with
  | none => rw [reading, cut, ofOption_none, refused_then]
  | some parts =>
    rw [reading_of_split short cut]
    cases read : readSuffix parts.suffix with
    | none => cases readDigits 0 (parts.whole ++ parts.fraction) <;> rfl
    | some scale => exact absurd (exists_spelling cut read) h

end DesiredState.Quantity
