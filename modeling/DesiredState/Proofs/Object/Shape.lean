import DesiredState.Object.Shape
import DesiredState.Readiness.Rules
import Mathlib.Tactic.Common

/-!
# What a shape says of the places in a document

What an admitted document holds at a path has the shape at the end of the path, or is null or absent
(`admits_along`). So where the shape asks for a word, an integer that is found fits in it.
-/

namespace DesiredState

/-- The integer at a path, however large. -/
def Json.integerAt? (j : Json) (path : List String) : Option Int :=
  match j.path? path with
  | some (.num (.int n)) => some n
  | _ => none

/-- There is something at a path that is not null. -/
def Json.statesAt (j : Json) (path : List String) : Bool := (j.path? path).any (!·.isNull)

namespace Shape

open Json

/-- The shape of what is found along a path of members. -/
def along : Shape → List String → Option Shape
  | shape, [] => some shape
  | record _ members, name :: rest => (members.lookup name).bind (·.along rest)
  | leaf _, _ :: _ | list _, _ :: _ | map _, _ :: _ => none

variable {shape final : Shape} {path : List String} {j v : Json} {bits : Nat}

/-- A known member is null or of its shape. -/
theorem admits_of_lookup {members : List (String × Shape)} {fields : Object} {name : String}
    (known : members.lookup name = some shape) (admitted : admitsMembers members fields = true)
    (found : fields.get? name = some v) : v = null ∨ shape.admits v = true := by
  induction members with
  | nil => cases known
  | cons member rest ih =>
    obtain ⟨first, s⟩ := member
    rw [admitsMembers, Bool.and_eq_true] at admitted
    rw [List.lookup_cons] at known
    by_cases here : name = first
    · subst here
      rw [beq_self_eq_true] at known
      obtain rfl := Option.some.inj known
      have member := admitted.1
      rw [admitsMember, found] at member
      cases v with
      | null => exact .inl rfl
      | _ => exact .inr member
    · rw [beq_false_of_ne here] at known
      exact ih known admitted.2

theorem along_nil (shape : Shape) : shape.along [] = some shape := by
  cases shape <;> rfl

/-- Whatever is found along a path is of the shape at its end, or null. -/
theorem admits_along (led : shape.along path = some final)
    (admitted : j = null ∨ shape.admits j = true) (found : j.path? path = some v) :
    v = null ∨ final.admits v = true := by
  induction path generalizing shape j with
  | nil =>
    obtain rfl := Option.some.inj ((along_nil shape).symm.trans led)
    obtain rfl := Option.some.inj found
    exact admitted
  | cons name rest ih =>
    obtain ⟨w, there, below⟩ := Option.bind_eq_some_iff.1 found
    cases shape with
    | record stated members =>
      obtain ⟨next, known, onward⟩ := Option.bind_eq_some_iff.1 led
      cases j with
      | obj fields =>
        have members := admitted.resolve_left nofun
        rw [admits, Bool.and_eq_true] at members
        exact ih onward (admits_of_lookup known members.2 there) below
      | _ => cases there
    | _ => cases led

theorem holds_of_admits {n : Int} (h : (decodedBy (Decoder.signed bits)).admits (.int n) = true) :
    Word.HoldsSigned bits n := by
  by_contra large
  have refused : (Number.int n).toSigned? bits = none := if_neg large
  simp [decodedBy, admits, Json.int, Decoder.signed, refused] at h

/-- Where the shape asks for a word, an integer that is found fits in it. -/
theorem holds_along (led : shape.along path = some (decodedBy (Decoder.signed bits)))
    (admitted : shape.admits j = true) {n : Int} (found : j.integerAt? path = some n) :
    Word.HoldsSigned bits n := by
  unfold integerAt? at found
  split at found
  · rename_i m there
    obtain rfl := Option.some.inj found
    exact holds_of_admits ((admits_along led (.inr admitted) there).resolve_left nofun)
  · cases found

/-- So no integer is left out for its size there. -/
theorem intAt?_along (led : shape.along path = some (decodedBy (Decoder.signed bits)))
    (admitted : shape.admits j = true) : j.intAt? bits path = j.integerAt? path := by
  have holds := fun {n} => holds_along led admitted (n := n)
  unfold intAt?
  unfold integerAt? at holds ⊢
  split
  · rename_i n there
    rw [there] at holds ⊢
    exact if_pos (holds rfl)
  · rename_i none
    cases there : j.path? path with
    | none => rfl
    | some v =>
      cases v with
      | num number =>
        cases number with
        | int n => exact absurd there (none n)
        | float x => rfl
      | _ => rfl

/-- Where the shape asks for an object, there is one if anything is stated. -/
theorem hasObjectAt_along {stated : List (String × String)} {members : List (String × Shape)}
    (led : shape.along path = some (record stated members)) (admitted : shape.admits j = true) :
    j.hasObjectAt path = j.statesAt path := by
  unfold hasObjectAt statesAt
  cases there : j.path? path with
  | none => rfl
  | some v =>
    rcases admits_along led (.inr admitted) there with rfl | object
    · rfl
    · cases v with
      | obj fields => rfl
      | _ => cases object

end Shape

end DesiredState
