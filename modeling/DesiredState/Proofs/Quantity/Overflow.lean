import DesiredState.Proofs.Quantity.Amount

/-!
# Where a reading breaks off

Most steps of a reading are checked, and what does not fit there is refused. Those on the decimal
exponent and those that round are not. In a short text the only ones among them that can leave their
words are the sum of the decimal exponents and the one that rounds up: the reading breaks off for
exactly the spellings that overflow there, and whatever else is read is the amount that the text
denotes (`nanos_endings`).
-/

namespace DesiredState.Quantity

section Endings

variable {text : String} (short : text.utf8ByteSize < 2 ^ 31) {q : Spelling}

include short

theorem nanos_of_overflows (spells : q.Spells text) (h : q.Overflows) :
    nanos text = .error .overflow := nanos_of_overflowed (h.overflowed short spells)

theorem nanos_of_fits (spells : q.Spells text) (h : q.Fits) : nanos text = .ok (some q.nanos) :=
  nanos_of_pure (h.reading_eq short spells)

theorem nanos_of_neither (spells : q.Spells text) (calm : ¬ q.Overflows) (unfit : ¬ q.Fits) :
    nanos text = .ok none := nanos_of_refused (Spelling.reading_refused short spells calm unfit)

theorem nanos_of_unspelled (h : ¬ ∃ q : Spelling, q.Spells text) : nanos text = .ok none :=
  nanos_of_refused (reading_of_unspelled short h)

/-- Each short text is of one kind, and its reading ends accordingly. -/
theorem nanos_cases :
    ((¬ ∃ q : Spelling, q.Spells text) ∧ nanos text = .ok none) ∨
      ∃ q : Spelling, q.Spells text ∧
        ((q.Overflows ∧ nanos text = .error .overflow) ∨
          (q.Fits ∧ nanos text = .ok (some q.nanos)) ∨
          (¬ q.Overflows ∧ ¬ q.Fits ∧ nanos text = .ok none)) := by
  by_cases spelled : ∃ q : Spelling, q.Spells text
  · obtain ⟨q, spells⟩ := spelled
    refine .inr ⟨q, spells, ?_⟩
    by_cases overflows : q.Overflows
    · exact .inl ⟨overflows, nanos_of_overflows short spells overflows⟩
    · by_cases fits : q.Fits
      · exact .inr (.inl ⟨fits, nanos_of_fits short spells fits⟩)
      · exact .inr (.inr ⟨overflows, fits, nanos_of_neither short spells overflows fits⟩)
  · exact .inl ⟨spelled, nanos_of_unspelled short spelled⟩

/-- The reading of a short text breaks off exactly if the text spells a quantity that overflows. It
comes to a number exactly if that is the amount of a spelling that fits, and otherwise it comes to
none. -/
theorem nanos_endings :
    (nanos text = .error .overflow ↔ ∃ q : Spelling, q.Spells text ∧ q.Overflows) ∧
      (∀ n, nanos text = .ok (some n) ↔
        ∃ q : Spelling, q.Spells text ∧ q.Fits ∧ q.nanos = n) ∧
      (nanos text = .ok none ↔
        (¬ ∃ q : Spelling, q.Spells text) ∨
          ∃ q : Spelling, q.Spells text ∧ ¬ q.Overflows ∧ ¬ q.Fits) := by
  refine ⟨⟨fun ended => ?_, fun ⟨q, spells, h⟩ => nanos_of_overflows short spells h⟩,
    fun n => ⟨fun ended => ?_, ?_⟩, ⟨fun ended => ?_, ?_⟩⟩
  · obtain ⟨-, eq⟩ | ⟨q, spells, ⟨h, -⟩ | ⟨-, eq⟩ | ⟨-, -, eq⟩⟩ := nanos_cases short
    · cases ended.symm.trans eq
    · exact ⟨q, spells, h⟩
    · cases ended.symm.trans eq
    · cases ended.symm.trans eq
  · obtain ⟨-, eq⟩ | ⟨q, spells, ⟨-, eq⟩ | ⟨h, eq⟩ | ⟨-, -, eq⟩⟩ := nanos_cases short
    · cases ended.symm.trans eq
    · cases ended.symm.trans eq
    · exact ⟨q, spells, h, Option.some.inj (Except.ok.inj (eq.symm.trans ended))⟩
    · cases ended.symm.trans eq
  · rintro ⟨q, spells, h, rfl⟩
    exact nanos_of_fits short spells h
  · obtain ⟨unspelled, -⟩ | ⟨q, spells, ⟨-, eq⟩ | ⟨-, eq⟩ | ⟨calm, unfit, -⟩⟩ := nanos_cases short
    · exact .inl unspelled
    · cases ended.symm.trans eq
    · cases ended.symm.trans eq
    · exact .inr ⟨q, spells, calm, unfit⟩
  · rintro (unspelled | ⟨q, spells, calm, unfit⟩)
    · exact nanos_of_unspelled short unspelled
    · exact nanos_of_neither short spells calm unfit

end Endings

/-! ### Instances -/

section Instances

/-- Nearly as much as a word of 128 bits holds, and a tenth of a unit. -/
def brim : Spelling :=
  ⟨.unsigned, lastDigits [1, 7, 0, 1, 4, 1, 1, 8, 3, 4, 6, 0, 4, 6, 9, 2, 3, 1, 7, 3, 1, 6, 8, 7, 3,
      0, 3, 7, 1, 5, 8, 8, 4, 1, 0, 5, 7, 2], some (lastDigits [7]), nanoSuffix, by decide⟩

/-- The largest exponent that is written in 32 bits. -/
def tower : Spelling :=
  ⟨.unsigned, lastDigits [1], none,
    .exponent false .unsigned (lastDigits [2, 1, 4, 7, 4, 8, 3, 6, 4, 7]) (by decide) (by decide),
    by decide⟩

/-- A debt of one and a half units, and a bit. -/
def debt : Spelling :=
  ⟨.minus, lastDigits [1, 5, 0, 0], some (lastDigits [5]),
    .named ['m'] ⟨-3, 0⟩ (by decide), by decide⟩

/-- Both sums overflow, and neither does in an ordinary quantity. -/
theorem brim_endings :
    nanos "17014118346046923173168730371588410572.7n" = .error .overflow ∧
      nanos "1e2147483647" = .error .overflow ∧
      nanos "-1500.5m" = .ok (some (-1500500000)) := by
  have owed : debt.nanos = -1500500000 := by
    rw [Spelling.nanos, Spelling.size_of_nonneg _ (by decide), Int.ceil_natCast]
    decide
  refine ⟨(nanos_endings (by decide)).1.2 ⟨brim, by decide, by decide⟩,
    (nanos_endings (by decide)).1.2 ⟨tower, by decide, by decide, .inl (by decide)⟩,
    ((nanos_endings (by decide)).2.1 _).2 ⟨debt, by decide, by decide, owed⟩⟩

/-- A quantity above zero is not read; if nobody looks out for the sum, it comes round to one
below. -/
theorem brim_comes_round :
    "17014118346046923173168730371588410572.7n".utf8ByteSize < 2 ^ 31 ∧
      nanos "17014118346046923173168730371588410572.7n" = .error .overflow ∧
      nanos? "17014118346046923173168730371588410572.7n" =
        some (-17014118346046923173168730371588410572) := by
  decide +kernel

end Instances

end DesiredState.Quantity
