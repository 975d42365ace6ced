import DesiredState.Json.Basic

/-!
# Counting differences

Members of objects are compared one by one and at every depth. Items of lists are compared place
by place, each different pair counting once.
-/

namespace DesiredState

/-- How many parts of a document are new, changed and gone. -/
structure Difference where
  added : Nat
  updated : Nat
  removed : Nat
  deriving DecidableEq

namespace Difference

def zero : Difference := ⟨0, 0, 0⟩

def isEmpty (d : Difference) : Bool := d.added + d.updated + d.removed == 0

instance : Add Difference :=
  ⟨fun a b => ⟨a.added + b.added, a.updated + b.updated, a.removed + b.removed⟩⟩

/-- The members of `fields` that `others` does not have. -/
def missingFrom (others : Object) : {b : Option String} → Entries String Json b → Nat
  | _, .nil => 0
  | _, .cons k _ _ rest => (if others.contains k then 0 else 1) + missingFrom others rest

/-- The places at which two lists hold different values. -/
def differingItems (xs ys : List Json) : Nat :=
  ((xs.zip ys).filter fun (x, y) => !x.same y).length

end Difference

namespace Json

mutual

/-- What has to change in `base` to make it `target`. -/
def difference (target base : Json) : Difference :=
  match target, base with
  | obj fields, obj others =>
    differenceFields others fields + ⟨0, 0, Difference.missingFrom fields others⟩
  | arr items, arr others =>
    ⟨items.length - others.length, Difference.differingItems items others,
      others.length - items.length⟩
  | target, base => if target.same base then .zero else ⟨0, 1, 0⟩

/-- The new members and what has to change inside the common ones. -/
def differenceFields (others : Object) :
    {b : Option String} → Entries String Json b → Difference
  | _, .nil => .zero
  | _, .cons k _ v rest =>
    (match others.get? k with
      | none => ⟨1, 0, 0⟩
      | some w => if v.same w then .zero else difference v w) + differenceFields others rest

end

end Json

end DesiredState
