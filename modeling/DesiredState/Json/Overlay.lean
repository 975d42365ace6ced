import DesiredState.Json.Basic
import DesiredState.Quantity

/-!
# Laying a wanted document over a live one

Wanted scalars take the place of live ones, objects are joined member by member, and lists are
joined item by item and take the wanted length. A live quantity of the wanted amount stays as the
server wrote it. Amounts are worked out on the way, so a step may leave its word.
-/

namespace DesiredState.Json

/-- Both documents are strings, and of the same amount. -/
def compareAmounts : Json → Json → Tracked Bool
  | str s, str t => Quantity.comparison s t
  | _, _ => return false

/-- A live quantity of the wanted amount stays; otherwise the one is laid over the other. -/
def keepQuantity (quantities : Bool) (live wanted : Json) (laid : Tracked Json) : Tracked Json :=
  if quantities then do
    if ← compareAmounts live wanted then return live else laid
  else laid

mutual

/-- Lay the wanted document over the live one, both found under `name`. -/
def layUnder (name : Option String) (live : Json) : Json → Tracked Json
  | obj wanted =>
    match live with
    | obj fields => obj <$> layFields (name.any Quantity.mapNames.contains) fields wanted
    | _ => return obj wanted
  | arr wanted =>
    match live with
    | arr items => arr <$> layItems name items wanted
    | _ => return arr wanted
  | wanted => return wanted

/-- Lists give their items the name that they have themselves. -/
def layItems (name : Option String) : List Json → List Json → Tracked (List Json)
  | _, [] => return []
  | [], w :: ws => do return w :: (← layItems name [] ws)
  | l :: ls, w :: ws => do
    let item ← layUnder name l w
    return item :: (← layItems name ls ws)

/-- Lay the wanted members, one after the other, over the live ones. -/
def layFields (quantities : Bool) (live : Object) :
    {b : Option String} → Entries String Json b → Tracked Object
  | _, .nil => return live
  | _, .cons k _ w rest =>
    let joined : Tracked Json :=
      match live.get? k with
      | none => return w
      | some l => keepQuantity quantities l w (layUnder (some k) l w)
    joined >>= fun joined => layFields quantities (SortedMap.insert live k joined) rest

end

/-- Lay the wanted document over the live one. -/
def lay (live wanted : Json) : Tracked Json := layUnder none live wanted

/-! ## What is laid over -/

/-- The amounts are the same, as far as they can be worked out. -/
def sameAmount (l w : Json) : Bool := (compareAmounts l w).value

def overlayUnder (name : Option String) (live wanted : Json) : Json :=
  (layUnder name live wanted).value

def overlayItems (name : Option String) (live wanted : List Json) : List Json :=
  (layItems name live wanted).value

def overlayFields (quantities : Bool) (live : Object) {b : Option String}
    (wanted : Entries String Json b) : Object :=
  (layFields quantities live wanted).value

/-- The wanted document over the live one. -/
def overlay (live wanted : Json) : Json := (lay live wanted).value

/-! ## Small lemmas -/

theorem value_keepQuantity (quantities : Bool) (l w : Json) (laid : Tracked Json) :
    (keepQuantity quantities l w laid).value =
      if quantities && sameAmount l w then l else laid.value := by
  cases quantities with
  | false => rfl
  | true =>
    show (if sameAmount l w = true then pure l else laid : Tracked Json).value =
      if sameAmount l w = true then l else laid.value
    split <;> rfl

theorem overlayUnder_arr (name : Option String) (ls ws : List Json) :
    overlayUnder name (arr ls) (arr ws) = arr (overlayItems name ls ws) := rfl

@[simp] theorem overlayItems_nil_right (name : Option String) (ls : List Json) :
    overlayItems name ls [] = [] := by
  cases ls <;> rfl

@[simp] theorem overlayItems_nil_cons (name : Option String) (w : Json) (ws : List Json) :
    overlayItems name [] (w :: ws) = w :: overlayItems name [] ws := rfl

@[simp] theorem overlayItems_cons (name : Option String) (l w : Json) (ls ws : List Json) :
    overlayItems name (l :: ls) (w :: ws) =
      overlayUnder name l w :: overlayItems name ls ws := rfl

end DesiredState.Json
