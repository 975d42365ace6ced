import DesiredState.Number.Word

/-!
# Steps that no check guards

A step of arithmetic whose result is not checked may leave its word. A program that looks out for
that breaks off there; one that does not goes on with the number that comes round. Both are told by
one computation: it works out what the second ends in, and notes whether the first breaks off.
-/

namespace DesiredState

/-- What is worked out, and whether a step on the way left its word. -/
structure Tracked (α : Type) where
  value : α
  overflowed : Bool
  deriving DecidableEq

/-- A step left its word. -/
inductive Overflow where
  | overflow
  deriving DecidableEq

namespace Tracked

variable {α β : Type}

instance : Monad Tracked where
  pure a := ⟨a, false⟩
  bind x f :=
    let y := f x.value
    ⟨y.value, x.overflowed || y.overflowed⟩

instance : LawfulMonad Tracked :=
  LawfulMonad.mk' Tracked (fun x => congrArg (Tracked.mk x.value) (Bool.or_false x.overflowed))
    (fun _ _ => rfl) (fun _ _ _ => congrArg (Tracked.mk _) (Bool.or_assoc ..))

/-- What a program ends in that breaks off at the first step that leaves its word. -/
def checked (x : Tracked α) : Except Overflow α :=
  if x.overflowed then .error .overflow else .ok x.value

/-! ## Small lemmas -/

@[simp] theorem value_pure (a : α) : (pure a : Tracked α).value = a := rfl

@[simp] theorem overflowed_pure (a : α) : (pure a : Tracked α).overflowed = false := rfl

@[simp] theorem value_bind (x : Tracked α) (f : α → Tracked β) :
    (x >>= f).value = (f x.value).value := rfl

@[simp] theorem overflowed_bind (x : Tracked α) (f : α → Tracked β) :
    (x >>= f).overflowed = (x.overflowed || (f x.value).overflowed) := rfl

@[simp] theorem value_map (f : α → β) (x : Tracked α) : (f <$> x).value = f x.value := rfl

@[simp] theorem overflowed_map (f : α → β) (x : Tracked α) :
    (f <$> x).overflowed = x.overflowed := Bool.or_false x.overflowed

@[simp] theorem checked_pure (a : α) : (pure a : Tracked α).checked = .ok a := rfl

/-- To break off at the first step that leaves its word goes along with one thing after the
other. -/
theorem checked_bind (x : Tracked α) (f : α → Tracked β) :
    (x >>= f).checked = x.checked >>= fun a => (f a).checked := by
  unfold checked
  rw [overflowed_bind, value_bind]
  cases x.overflowed <;> rfl

theorem checked_cases (x : Tracked α) :
    x.checked = .error .overflow ∨ x.checked = .ok x.value := by
  unfold checked
  cases x.overflowed with
  | true => exact .inl rfl
  | false => exact .inr rfl

theorem checked_eq_overflow_iff {x : Tracked α} :
    x.checked = .error .overflow ↔ x.overflowed = true := by
  unfold checked
  cases x.overflowed <;> simp

end Tracked

namespace Word

/-- A step that ends in a signed word without a check. -/
def unchecked (bits : Nat) (n : Int) : Tracked Int := ⟨wrap bits n, !decide (HoldsSigned bits n)⟩

/-- A step that ends in an unsigned word without a check. -/
def uncheckedUnsigned (bits : Nat) (n : Int) : Tracked Int :=
  ⟨n % (twoTo bits : Int), !decide (HoldsUnsigned bits n)⟩

/-- A step whose result has to fit in a signed word. -/
def checked? (bits : Nat) (n : Int) : Option Int := if HoldsSigned bits n then some n else none

/-- A step whose result fits is worked out. -/
theorem unchecked_of_holds {bits : Nat} {n : Int} (h : HoldsSigned (bits + 1) n) :
    unchecked (bits + 1) n = pure n := by
  rw [unchecked, wrap_eq_self h, decide_eq_true h]
  rfl

theorem uncheckedUnsigned_of_holds {bits : Nat} {n : Int} (h : HoldsUnsigned bits n) :
    uncheckedUnsigned bits n = pure n := by
  rw [uncheckedUnsigned, Int.emod_eq_of_lt h.1 h.2, decide_eq_true h]
  rfl

end Word

/-! ## Programs with such steps -/

/-- Effects that take in what is worked out by steps that no check guards. -/
class Absorbs (m : Type → Type) where
  /-- Go on with what was worked out, in the way of these effects. -/
  absorb : {α : Type} → Tracked α → m α

export Absorbs (absorb)

/-- Without any effects, nobody looks out for a step that leaves its word. -/
instance : Absorbs Id := ⟨Tracked.value⟩

instance : Absorbs Tracked := ⟨id⟩

instance : Absorbs (Except Overflow) := ⟨Tracked.checked⟩

instance {σ : Type} {m : Type → Type} [Monad m] [Absorbs m] : Absorbs (StateT σ m) :=
  ⟨fun x => StateT.lift (absorb x)⟩

end DesiredState
