import DesiredState.Quantity
import Mathlib.Data.Nat.Digits.Lemmas
import Mathlib.Data.List.TakeWhile
import Mathlib.Tactic.IntervalCases

/-!
# Spellings of quantities

A quantity is spelled by a sign, digits with a point among them, and a suffix. What is read as a
quantity is exactly what has a spelling (`exists_spelling`), and its parts are those of the spelling
(`split?_chars`, `readDigits_map`, `readSuffix_chars`).
-/

namespace DesiredState

theorem twoTo_eq_pow (n : Nat) : twoTo n = 2 ^ n := rfl

namespace Quantity

/-! ## Digits -/

/-- The character of a decimal digit. -/
def digit (d : Fin 10) : Char := Nat.digitChar d

@[simp] theorem isAsciiDigit_digit (d : Fin 10) : isAsciiDigit (digit d) = true := by
  revert d
  decide

theorem toNat_digit (d : Fin 10) : (digit d).toNat - '0'.toNat = d := by
  revert d
  decide

theorem exists_digit {c : Char} (h : isAsciiDigit c = true) : ∃ d, digit d = c := by
  rw [isAsciiDigit, Bool.and_eq_true, decide_eq_true_eq, decide_eq_true_eq] at h
  have low : 48 ≤ c.toNat := h.1
  have high : c.toNat ≤ 57 := h.2
  have eq : c = Char.ofNat c.toNat := (Char.ofNat_toNat c).symm
  generalize c.toNat = n at low high eq
  subst eq
  revert n
  decide

/-- Characters that are all digits write a list of digits. -/
theorem exists_digits {s : List Char} (h : s.all isAsciiDigit = true) :
    ∃ ds : List (Fin 10), ds.map digit = s := by
  induction s with
  | nil => exact ⟨[], rfl⟩
  | cons c s ih =>
    rw [List.all_cons, Bool.and_eq_true] at h
    obtain ⟨d, rfl⟩ := exists_digit h.1
    obtain ⟨ds, rfl⟩ := ih h.2
    exact ⟨d :: ds, rfl⟩

@[simp] theorem all_isAsciiDigit_map (ds : List (Fin 10)) :
    (ds.map digit).all isAsciiDigit = true := by
  simp [isAsciiDigit_digit]

/-- The last digits of these numbers. -/
def lastDigits (ns : List Nat) : List (Fin 10) := ns.map fun n => ⟨n % 10, Nat.mod_lt n (by decide)⟩

/-- The number that digits write, the first digit being the highest. -/
def numeral (ds : List (Fin 10)) : Nat := Nat.ofDigits 10 (ds.reverse.map Fin.val)

@[simp] theorem numeral_nil : numeral [] = 0 := rfl

theorem numeral_cons (d : Fin 10) (ds : List (Fin 10)) :
    numeral (d :: ds) = d * 10 ^ ds.length + numeral ds := by
  simp only [numeral, List.reverse_cons, List.map_append, List.map_cons, List.map_nil,
    Nat.ofDigits_append, Nat.ofDigits_singleton, List.length_map, List.length_reverse]
  ring

/-- Digits are read as the number that they write, if that fits. -/
theorem readDigits_map (ds : List (Fin 10)) {n : Nat} (h : n < 2 ^ 127) :
    readDigits n (ds.map digit) =
      if n * 10 ^ ds.length + numeral ds < 2 ^ 127 then some (n * 10 ^ ds.length + numeral ds)
      else none := by
  induction ds generalizing n with
  | nil =>
    rw [List.length_nil, pow_zero, mul_one, numeral_nil, add_zero, if_pos h]
    rfl
  | cons d ds ih =>
    have next : n * 10 ^ (d :: ds).length + numeral (d :: ds) =
        (n * 10 + d) * 10 ^ ds.length + numeral ds := by
      rw [numeral_cons, List.length_cons, pow_succ]
      ring
    rw [List.map_cons, readDigits, toNat_digit, next, twoTo_eq_pow]
    by_cases fits : n * 10 + d < 2 ^ 127
    · rw [if_pos fits, ih fits]
    · have more : n * 10 + d ≤ (n * 10 + d) * 10 ^ ds.length :=
        Nat.le_mul_of_pos_right _ (by positivity)
      rw [if_neg fits, if_neg (by omega)]

/-! ## Signs -/

/-- What stands before the digits. -/
inductive Sign where
  | unsigned
  | plus
  | minus
  deriving DecidableEq

namespace Sign

def chars : Sign → List Char
  | unsigned => []
  | plus => ['+']
  | minus => ['-']

def negative : Sign → Bool
  | minus => true
  | unsigned | plus => false

/-- A number with this sign. -/
def of (s : Sign) (n : Int) : Int := if s.negative then -n else n

theorem le_of_holdsSigned {bits n : Nat} (s : Sign) (h : Word.HoldsSigned bits (s.of n)) :
    n ≤ twoTo (bits - 1) := by
  obtain ⟨low, high⟩ := h
  cases s <;> simp only [of, negative, if_true, Bool.false_eq_true, if_false] at low high <;> omega

end Sign

/-- What stands after a sign, and whether that was a minus. -/
def cutSign : List Char → Bool × List Char
  | '-' :: r => (true, r)
  | '+' :: r => (false, r)
  | r => (false, r)

/-- A sign is cut off where no other follows. -/
theorem cutSign_append (s : Sign) {r : List Char} (h : ∀ c ∈ r.head?, c ≠ '-' ∧ c ≠ '+') :
    cutSign (s.chars ++ r) = (s.negative, r) := by
  cases s with
  | unsigned =>
    cases r with
    | nil => rfl
    | cons c r =>
      obtain ⟨minus, plus⟩ := h c rfl
      show cutSign (c :: r) = (false, c :: r)
      unfold cutSign
      split
      · rename_i eq
        exact absurd (List.cons.inj eq).1 minus
      · rename_i eq
        exact absurd (List.cons.inj eq).1 plus
      · rfl
  | plus => rfl
  | minus => rfl

theorem exists_sign (s : List Char) :
    ∃ sign : Sign, s = sign.chars ++ (cutSign s).2 ∧ (cutSign s).1 = sign.negative := by
  unfold cutSign
  split
  · exact ⟨.minus, rfl, rfl⟩
  · exact ⟨.plus, rfl, rfl⟩
  · exact ⟨.unsigned, rfl, rfl⟩

/-- Digits start with no sign. -/
theorem head?_map_digit (ds : List (Fin 10)) :
    ∀ c ∈ (ds.map digit).head?, c ≠ '-' ∧ c ≠ '+' := by
  cases ds with
  | nil => nofun
  | cons d ds =>
    rintro c ⟨⟩
    revert d
    decide

/-- What may be written of a signed number are characters of numbers. -/
theorem isNumberChar_signed (s : Sign) (ds : List (Fin 10)) :
    ∀ c ∈ s.chars ++ ds.map digit, isNumberChar c = true := by
  have sign : s.chars.all isNumberChar = true := by cases s <;> rfl
  have digits : ∀ c ∈ ds.map digit, isNumberChar c = true := by
    rw [List.forall_mem_map]
    exact fun d _ => by simp [isNumberChar, isAsciiDigit_digit]
  exact List.forall_mem_append.2 ⟨List.all_eq_true.1 sign, digits⟩

/-! ## Suffixes -/

/-- The suffixes that have a name, and the powers of ten and of two that they stand for. -/
def units : List (List Char × Scale) :=
  [([], ⟨0, 0⟩), (['n'], ⟨-9, 0⟩), (['u'], ⟨-6, 0⟩), (['m'], ⟨-3, 0⟩), (['k'], ⟨3, 0⟩),
    (['M'], ⟨6, 0⟩), (['G'], ⟨9, 0⟩), (['T'], ⟨12, 0⟩), (['P'], ⟨15, 0⟩), (['E'], ⟨18, 0⟩),
    (['K', 'i'], ⟨0, 10⟩), (['M', 'i'], ⟨0, 20⟩), (['G', 'i'], ⟨0, 30⟩), (['T', 'i'], ⟨0, 40⟩),
    (['P', 'i'], ⟨0, 50⟩), (['E', 'i'], ⟨0, 60⟩)]

/-- What may stand after the digits: the name of a unit, or a decimal exponent of 32 bits. -/
inductive Suffix where
  | named (name : List Char) (scale : Scale) (known : (name, scale) ∈ units)
  | exponent (capital : Bool) (sign : Sign) (digits : List (Fin 10)) (written : digits ≠ [])
      (fits : Word.HoldsSigned 32 (sign.of (numeral digits)))

namespace Suffix

def chars : Suffix → List Char
  | named name _ _ => name
  | exponent capital sign digits _ _ =>
    (if capital then 'E' else 'e') :: (sign.chars ++ digits.map digit)

def scale : Suffix → Scale
  | named _ scale _ => scale
  | exponent _ sign digits _ _ => ⟨sign.of (numeral digits), 0⟩

end Suffix

theorem readExponent_eq (s : List Char) :
    readExponent s =
      let (negative, ds) := cutSign s
      if ds.isEmpty || !ds.all isAsciiDigit then none
      else
        match readDigits 0 ds with
        | none => none
        | some n =>
          let exponent : Int := if negative then -n else n
          if Word.HoldsSigned 32 exponent then some exponent else none := rfl

theorem readExponent_map (sign : Sign) {ds : List (Fin 10)} (written : ds ≠ []) :
    readExponent (sign.chars ++ ds.map digit) =
      if Word.HoldsSigned 32 (sign.of (numeral ds)) then some (sign.of (numeral ds)) else none := by
  have empty : (ds.map digit).isEmpty = false := by simpa using written
  rw [readExponent_eq, cutSign_append sign (head?_map_digit ds)]
  simp only [empty, all_isAsciiDigit_map, readDigits_map ds (show 0 < 2 ^ 127 by norm_num),
    Bool.not_true, Bool.or_false, Bool.false_eq_true, if_false, zero_mul, zero_add]
  by_cases fits : numeral ds < 2 ^ 127
  · rw [if_pos fits]
    rfl
  · rw [if_neg fits, if_neg]
    intro held
    have small := sign.le_of_holdsSigned held
    have wide : twoTo (32 - 1) < 2 ^ 127 := by decide
    omega

theorem exists_exponent {s : List Char} {e : Int} (h : readExponent s = some e) :
    ∃ (sign : Sign) (ds : List (Fin 10)), ds ≠ [] ∧ s = sign.chars ++ ds.map digit ∧
      Word.HoldsSigned 32 (sign.of (numeral ds)) ∧ e = sign.of (numeral ds) := by
  obtain ⟨sign, eq, -⟩ := exists_sign s
  have digits : (cutSign s).2.isEmpty = false ∧ (cutSign s).2.all isAsciiDigit = true := by
    rw [readExponent_eq] at h
    dsimp only at h
    by_cases bad : ((cutSign s).2.isEmpty || !(cutSign s).2.all isAsciiDigit) = true
    · rw [if_pos bad] at h
      cases h
    · simpa using bad
  obtain ⟨ds, same⟩ := exists_digits digits.2
  have written : ds ≠ [] := by
    rintro rfl
    rw [← same] at digits
    cases digits.1
  rw [← same] at eq
  rw [eq, readExponent_map sign written] at h
  split at h
  · rename_i fits
    exact ⟨sign, ds, written, eq, fits, (Option.some.inj h).symm⟩
  · cases h

/-- A suffix is read as its scale. -/
theorem readSuffix_chars (x : Suffix) : readSuffix x.chars = some x.scale := by
  cases x with
  | named name scale known =>
    show readSuffix name = some scale
    simp only [units, List.mem_cons, Prod.mk.injEq, List.not_mem_nil, or_false] at known
    rcases known with h | h | h | h | h | h | h | h | h | h | h | h | h | h | h | h <;>
      obtain ⟨rfl, rfl⟩ := h <;> rfl
  | exponent capital sign digits written fits =>
    have exponent := (readExponent_map sign written).trans (if_pos fits)
    cases capital with
    | false =>
      show Option.map _ (readExponent (sign.chars ++ digits.map digit)) = _
      rw [exponent]
      rfl
    | true =>
      show readSuffix ('E' :: (sign.chars ++ digits.map digit)) = _
      rw [readSuffix, exponent]
      · rfl
      · simp [written]
      · intro eq
        have number : isNumberChar 'i' = true :=
          isNumberChar_signed sign digits 'i' (by rw [eq]; exact List.mem_singleton_self _)
        cases number

theorem exists_suffix {s : List Char} {scale : Scale} (h : readSuffix s = some scale) :
    ∃ x : Suffix, x.chars = s ∧ x.scale = scale := by
  unfold readSuffix at h
  split at h
  case h_17 r =>
    obtain ⟨e, read, rfl⟩ := Option.map_eq_some_iff.1 h
    obtain ⟨sign, ds, written, rfl, fits, rfl⟩ := exists_exponent read
    exact ⟨.exponent false sign ds written fits, rfl, rfl⟩
  case h_18 r _ _ =>
    obtain ⟨e, read, rfl⟩ := Option.map_eq_some_iff.1 h
    obtain ⟨sign, ds, written, rfl, fits, rfl⟩ := exists_exponent read
    exact ⟨.exponent true sign ds written fits, rfl, rfl⟩
  case h_19 => cases h
  all_goals
    obtain rfl := Option.some.inj h
    exact ⟨.named _ _ (by decide), rfl, rfl⟩

/-- No suffix starts like a number. -/
theorem takeWhile_suffix (x : Suffix) : x.chars.takeWhile isNumberChar = [] := by
  cases x with
  | named name scale known =>
    have all : ∀ u ∈ units, u.1.takeWhile isNumberChar = [] := by decide
    exact all _ known
  | exponent capital sign digits written fits => cases capital <;> rfl

/-! ## Whole quantities -/

/-- A spelling of a quantity. -/
structure Spelling where
  sign : Sign
  whole : List (Fin 10)
  /-- The digits after the point, if there is a point. -/
  fraction? : Option (List (Fin 10))
  suffix : Suffix
  written : whole ++ fraction?.getD [] ≠ []

namespace Spelling

def fraction (q : Spelling) : List (Fin 10) := q.fraction?.getD []

/-- The digits with their point. -/
def pointed (whole : List (Fin 10)) : Option (List (Fin 10)) → List Char
  | none => whole.map digit
  | some fraction => whole.map digit ++ '.' :: fraction.map digit

def number (q : Spelling) : List Char := q.sign.chars ++ pointed q.whole q.fraction?

def chars (q : Spelling) : List Char := q.number ++ q.suffix.chars

/-- The text spells the quantity in this way, blanks at its ends aside. -/
def Spells (q : Spelling) (text : String) : Prop := q.chars = Text.trimChars text.toList

instance (q : Spelling) (text : String) : Decidable (q.Spells text) :=
  inferInstanceAs (Decidable (_ = _))

/-- The number that all digits write. -/
def mantissa (q : Spelling) : Nat := numeral (q.whole ++ q.fraction)

/-- The power of two that the mantissa is scaled by. -/
def two (q : Spelling) : Nat := q.suffix.scale.two

/-- The power of ten that the mantissa is scaled by, in units of `10 ^ -9`. -/
def ten (q : Spelling) : Int := 9 - q.fraction.length + q.suffix.scale.ten

/-! ### Reading -/

theorem isNumberChar_number (q : Spelling) : ∀ c ∈ q.number, isNumberChar c = true := by
  have whole := isNumberChar_signed q.sign q.whole
  rw [number]
  cases q.fraction? with
  | none => exact whole
  | some fraction =>
    have point : isNumberChar '.' = true := rfl
    have fraction := isNumberChar_signed .unsigned fraction
    rw [pointed, ← List.append_assoc]
    exact List.forall_mem_append.2 ⟨whole, List.forall_mem_cons.2 ⟨point, fraction⟩⟩

/-- What follows a sign starts with no other. -/
theorem head?_pointed (whole : List (Fin 10)) (fraction? : Option (List (Fin 10))) :
    ∀ c ∈ (pointed whole fraction?).head?, c ≠ '-' ∧ c ≠ '+' := by
  cases fraction? with
  | none => exact head?_map_digit whole
  | some fraction =>
    cases whole with
    | nil =>
      rintro c ⟨⟩
      decide
    | cons d whole => exact head?_map_digit (d :: whole)

theorem digit_ne_point (d : Fin 10) : digit d ≠ '.' := by
  revert d
  decide

theorem takeWhile_pointed (whole : List (Fin 10)) (fraction? : Option (List (Fin 10))) :
    (pointed whole fraction?).takeWhile (· ≠ '.') = whole.map digit := by
  have all : ∀ c ∈ whole.map digit, decide (c ≠ '.') = true := by simp [digit_ne_point]
  cases fraction? with
  | none => exact List.takeWhile_eq_self_iff.2 all
  | some fraction =>
    rw [pointed, List.takeWhile_append_of_pos all]
    exact List.append_nil _

theorem dropWhile_pointed (whole : List (Fin 10)) (fraction? : Option (List (Fin 10))) :
    ((pointed whole fraction?).dropWhile (· ≠ '.')).drop 1 = (fraction?.getD []).map digit := by
  have all : ∀ c ∈ whole.map digit, decide (c ≠ '.') = true := by simp [digit_ne_point]
  cases fraction? with
  | none =>
    rw [pointed, List.dropWhile_eq_nil_iff.2 all]
    rfl
  | some fraction =>
    rw [pointed, List.dropWhile_append_of_pos all]
    rfl

end Spelling

theorem split?_eq (s : List Char) :
    split? s =
      let (negative, digits) := cutSign (s.takeWhile isNumberChar)
      let whole := digits.takeWhile (· ≠ '.')
      let fraction := (digits.dropWhile (· ≠ '.')).drop 1
      if (whole ++ fraction).isEmpty || !(whole ++ fraction).all isAsciiDigit then none
      else some ⟨negative, whole, fraction, s.dropWhile isNumberChar⟩ := rfl

/-- What has a spelling is cut into the parts of the spelling. -/
theorem split?_chars (q : Spelling) :
    split? q.chars =
      some ⟨q.sign.negative, q.whole.map digit, q.fraction.map digit, q.suffix.chars⟩ := by
  have number : q.chars.takeWhile isNumberChar = q.number := by
    rw [Spelling.chars, List.takeWhile_append_of_pos q.isNumberChar_number, takeWhile_suffix,
      List.append_nil]
  have suffix : q.chars.dropWhile isNumberChar = q.suffix.chars := by
    rw [Spelling.chars, List.dropWhile_append_of_pos q.isNumberChar_number]
    have all := List.takeWhile_append_dropWhile (p := isNumberChar) (l := q.suffix.chars)
    rwa [takeWhile_suffix] at all
  have written : (q.whole.map digit ++ q.fraction.map digit).isEmpty = false := by
    rw [← List.map_append]
    simpa [Spelling.fraction] using q.written
  have digits : (q.whole.map digit ++ q.fraction.map digit).all isAsciiDigit = true := by
    rw [← List.map_append]
    exact all_isAsciiDigit_map _
  rw [split?_eq, number, suffix, Spelling.number,
    cutSign_append q.sign (Spelling.head?_pointed _ _)]
  dsimp only
  rw [Spelling.takeWhile_pointed, Spelling.dropWhile_pointed]
  show (if (_ || _) = true then none else _) = _
  rw [show (q.fraction?.getD []) = q.fraction from rfl, written, digits]
  rfl

/-- Digits around a point, or without one. -/
theorem Spelling.exists_pointed {s : List Char}
    (h : (s.takeWhile (· ≠ '.') ++ (s.dropWhile (· ≠ '.')).drop 1).all isAsciiDigit = true) :
    ∃ whole fraction?, pointed whole fraction? = s := by
  rw [List.all_append, Bool.and_eq_true] at h
  obtain ⟨whole, before⟩ := exists_digits h.1
  obtain ⟨fraction, after⟩ := exists_digits h.2
  have parts : s.takeWhile (· ≠ '.') ++ s.dropWhile (· ≠ '.') = s :=
    List.takeWhile_append_dropWhile
  have stop := List.head?_dropWhile_not (· ≠ '.') s
  rw [← before] at parts
  cases rest : s.dropWhile (· ≠ '.') with
  | nil =>
    rw [rest, List.append_nil] at parts
    exact ⟨whole, none, parts⟩
  | cons c later =>
    rw [rest] at parts stop after
    obtain rfl : c = '.' := by simpa using stop
    refine ⟨whole, some fraction, ?_⟩
    rw [pointed, after]
    exact parts

/-- What is cut into parts whose suffix can be read has a spelling. -/
theorem exists_spelling {s : List Char} {parts : Parts} {scale : Scale}
    (cut : split? s = some parts) (read : readSuffix parts.suffix = some scale) :
    ∃ q : Spelling, q.chars = s := by
  obtain ⟨sign, number, -⟩ := exists_sign (s.takeWhile isNumberChar)
  rw [split?_eq] at cut
  generalize (cutSign (s.takeWhile isNumberChar)) = cutting at number cut
  obtain ⟨negative, digits⟩ := cutting
  dsimp only at number cut
  split at cut
  · cases cut
  · rename_i good
    obtain rfl := Option.some.inj cut
    rw [Bool.or_eq_true, not_or, Bool.not_eq_true, Bool.not_eq_true, Bool.not_eq_false'] at good
    obtain ⟨whole, fraction?, rfl⟩ := Spelling.exists_pointed good.2
    obtain ⟨suffix, same, -⟩ := exists_suffix read
    rw [Spelling.takeWhile_pointed, Spelling.dropWhile_pointed, ← List.map_append] at good
    refine ⟨⟨sign, whole, fraction?, suffix, by simpa using good.1⟩, ?_⟩
    rw [Spelling.chars, Spelling.number, ← number, same]
    exact List.takeWhile_append_dropWhile

end Quantity

end DesiredState
