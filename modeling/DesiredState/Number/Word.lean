import DesiredState.Number.Power

/-!
# Words

A word of so many bits holds a range of integers. Arithmetic without a check takes an integer
that is out of the range of signed words to the one in it that differs by a multiple of the number
of words.
-/

namespace DesiredState.Word

/-- The integer fits in a signed word. -/
def HoldsSigned (bits : Nat) (n : Int) : Prop :=
  -(twoTo (bits - 1) : Int) ≤ n ∧ n < (twoTo (bits - 1) : Int)

/-- The integer fits in an unsigned word. -/
def HoldsUnsigned (bits : Nat) (n : Int) : Prop := 0 ≤ n ∧ n < (twoTo bits : Int)

instance (bits : Nat) (n : Int) : Decidable (HoldsSigned bits n) :=
  inferInstanceAs (Decidable (_ ∧ _))

instance (bits : Nat) (n : Int) : Decidable (HoldsUnsigned bits n) :=
  inferInstanceAs (Decidable (_ ∧ _))

/-- The signed word that an operation without a check ends in. -/
def wrap (bits : Nat) (n : Int) : Int := n.bmod (twoTo bits)

/-- A word that holds an integer keeps it. -/
theorem wrap_eq_self {bits : Nat} {n : Int} (h : HoldsSigned (bits + 1) n) :
    wrap (bits + 1) n = n := by
  obtain ⟨low, high⟩ := h
  rw [Nat.add_sub_cancel] at low high
  rw [wrap, twoTo_succ]
  exact Int.bmod_eq_of_le_mul_two (by omega) (by omega)

end DesiredState.Word
