import DesiredState.Json.Basic

/-!
# Documents as they are written

A text gives more than a document: its members have an order and may repeat a name, and some of
its parts may be well formed without having a value. Whoever reads a text for a few members looks
at nothing else, so what those other parts hold does no harm; whoever reads all of it needs a value
of every part, and of two members with one name the later one counts.
-/

namespace DesiredState

inductive Written where
  /-- A number that is infinite, a string with half of a surrogate pair, or a list or an object that
  is nested too deep. -/
  | valueless
  | null
  | bool (value : Bool)
  | num (value : Number)
  | str (value : String)
  | arr (items : List Written)
  /-- A name may be a string without a value. -/
  | obj (members : List (Option String × Written))

namespace Written

instance : Inhabited Written := ⟨null⟩

/-- The members of an object, as they are written. -/
abbrev Members : Type := List (Option String × Written)

def isNull : Written → Bool
  | null => true
  | _ => false

/-- What a reader makes of a text, if it can. -/
abbrev Reader (α : Type) : Type := Written → Option α

mutual

/-- The document, if every part has a value. -/
def value? : Written → Option Json
  | valueless => none
  | null => some .null
  | bool b => some (.bool b)
  | num n => some (.num n)
  | str s => some (.str s)
  | arr items => (values? items).map .arr
  | obj members => (entries? members).map .object

def values? : List Written → Option (List Json)
  | [] => some []
  | w :: rest => do return (← value? w) :: (← values? rest)

def entries? : List (Option String × Written) → Option (List (String × Json))
  | [] => some []
  | (none, _) :: _ => none
  | (some name, w) :: rest => do return (name, ← value? w) :: (← entries? rest)

end

/-- The member of a name among those that come after it. -/
def named? (name : String) (l : List (String × Written)) : Option Written :=
  (l.find? (·.1 = name)).map (·.2)

/-- The members of some names, none of which may occur twice, and the other members in their order.
Every name has to have a value. -/
def pick (names : List String) :
    Members → Option (List (String × Written) × List (String × Written))
  | [] => some ([], [])
  | (none, _) :: _ => none
  | (some name, w) :: rest => do
    let (picked, others) ← pick names rest
    if !names.contains name then return (picked, (name, w) :: others)
    else if (named? name picked).isSome then none
    else return ((name, w) :: picked, others)

end Written

end DesiredState
