import DesiredState.SortedMap
import DesiredState.Number.Basic

/-!
# JSON documents

An object is a sorted map, so the order in which members were written carries no meaning and two
documents of the same content are equal. `same` is equality of values, which also takes the two
floating zeros for one number.
-/

namespace DesiredState

inductive Json where
  | null
  | bool (value : Bool)
  | num (value : Number)
  | str (value : String)
  | arr (items : List Json)
  | obj (fields : Entries String Json none)

/-- The members of an object. -/
abbrev Object : Type := SortedMap String Json

namespace Json

instance : Inhabited Json := ⟨null⟩

/-! ## Building -/

def int (n : Int) : Json := num (.int n)

/-- An object with these members, a later one in place of an earlier one of the same name. -/
def object (members : List (String × Json)) : Json := obj (SortedMap.ofList members)

def emptyObject : Json := obj SortedMap.empty

/-- The value, or null. -/
def ofOption : Option Json → Json
  | some v => v
  | none => null

/-- A list of strings. -/
def strings (l : List String) : Json := arr (l.map str)

/-! ## Looking inside -/

def isNull : Json → Bool
  | null => true
  | _ => false

def isObject : Json → Bool
  | obj _ => true
  | _ => false

def asObject? : Json → Option Object
  | obj fields => some fields
  | _ => none

def asArray? : Json → Option (List Json)
  | arr items => some items
  | _ => none

def asString? : Json → Option String
  | str s => some s
  | _ => none

def asBool? : Json → Option Bool
  | bool b => some b
  | _ => none

def asNumber? : Json → Option Number
  | num n => some n
  | _ => none

/-- The member of an object; other values have no members. -/
def member? (j : Json) (name : String) : Option Json := j.asObject?.bind (·.get? name)

/-- The member of a member, and so on. -/
def path? (j : Json) : List String → Option Json
  | [] => some j
  | name :: rest => (j.member? name).bind (·.path? rest)

/-- The string at a path. -/
def stringAt? (j : Json) (path : List String) : Option String := (j.path? path).bind asString?

/-! ## Changing -/

/-- Change the members of an object; other values stay as they are. -/
def mapObject (f : Object → Object) : Json → Json
  | obj fields => obj (f fields)
  | j => j

/-- Set a member of an object. -/
def setMember (j : Json) (name : String) (v : Json) : Json := j.mapObject (·.insert name v)

/-- Take a member out of an object. -/
def eraseMember (name : String) : Json → Json := mapObject (·.erase name)

/-- Change a member that is there. -/
def mapMember (name : String) (f : Json → Json) : Json → Json :=
  mapObject fun fields =>
    match fields.get? name with
    | some v => fields.insert name (f v)
    | none => fields

/-- Change the members of the object under a name, which starts empty. Another value under that
name stays as it is. -/
def updateMember (name : String) (f : Object → Object) : Json → Json :=
  mapObject fun fields =>
    fields.insert name (((fields.get? name).getD emptyObject).mapObject f)

/-! ## Equality of values -/

mutual

/-- Structural equality, without any conversion between types. -/
def same : Json → Json → Bool
  | null, null => true
  | bool a, bool b => a == b
  | num a, num b => a.same b
  | str a, str b => a == b
  | arr a, arr b => sameItems a b
  | obj a, obj b => sameFields a b
  | _, _ => false

def sameItems : List Json → List Json → Bool
  | [], [] => true
  | x :: xs, y :: ys => same x y && sameItems xs ys
  | _, _ => false

def sameFields : {b c : Option String} → Entries String Json b → Entries String Json c → Bool
  | _, _, .nil, .nil => true
  | _, _, .cons j _ v rest, .cons k _ w rest' => j == k && same v w && sameFields rest rest'
  | _, _, _, _ => false

end

mutual

theorem same_self : (j : Json) → same j j = true
  | null => rfl
  | bool _ => by simp [same]
  | num n => by simp [same, n.same_self]
  | str _ => by simp [same]
  | arr items => by rw [same]; exact sameItems_self items
  | obj fields => by rw [same]; exact sameFields_self fields

theorem sameItems_self : (l : List Json) → sameItems l l = true
  | [] => rfl
  | x :: xs => by simp [sameItems, same_self x, sameItems_self xs]

theorem sameFields_self : {b : Option String} → (m : Entries String Json b) →
    sameFields m m = true
  | _, .nil => rfl
  | _, .cons _ _ v rest => by simp [sameFields, same_self v, sameFields_self rest]

end

end Json

end DesiredState
