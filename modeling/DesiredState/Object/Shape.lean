import DesiredState.Json.Written
import DesiredState.Object.Kind
import DesiredState.Object.Metadata
import DesiredState.Text.Base64

/-!
# Shapes of documents

A shape says of which type a document and its known members are. Members may be absent or null,
and members that the shape does not know are not looked at. `admits` tests a document; `read` takes
from a text what the shape knows, and tests that on the way.
-/

namespace DesiredState

inductive Shape where
  /-- A document that passes a test. -/
  | leaf (test : Json → Bool)
  | list (item : Shape)
  | map (value : Shape)
  /-- An object with members of some shapes. Others it may leave out, but not state otherwise. -/
  | record (stated : List (String × String)) (members : List (String × Shape))

namespace Shape

/-! ## Documents -/

/-- The member is absent or is this string. -/
def states (fields : Object) (name value : String) : Bool :=
  match fields.get? name with
  | none => true
  | some (.str s) => s == value
  | some _ => false

mutual

/-- The document has the shape. -/
def admits : Shape → Json → Bool
  | leaf test, j => test j
  | list item, .arr items => items.all (fun j => item.admits j)
  | map value, .obj fields => fields.values.all (fun j => value.admits j)
  | record stated members, .obj fields =>
    stated.all (fun (name, value) => states fields name value) && admitsMembers members fields
  | _, _ => false

def admitsMembers : List (String × Shape) → Object → Bool
  | [], _ => true
  | member :: rest, fields => admitsMember member fields && admitsMembers rest fields

/-- The member is absent, null or of its shape. -/
def admitsMember : String × Shape → Object → Bool
  | (name, shape), fields =>
    match fields.get? name with
    | none => true
    | some .null => true
    | some v => shape.admits v

end

/-! ## Texts -/

/-- A string that is stated. -/
def readStated (value : String) : Written → Option Json
  | .str s => if s = value then some (.str s) else none
  | _ => none

mutual

/-- The document of a text, with the members that the shape knows. Each of them has to be of its
shape as often as it is written. -/
def read : Shape → Written → Option Json
  | leaf test, w => w.value?.filter test
  | list item, .arr items => (readItems item items).map .arr
  | map value, .obj members => (readEntries value members).map .object
  | record stated known, .obj members => (readMembers stated known members).map .object
  | _, _ => none

def readItems (item : Shape) : List Written → Option (List Json)
  | [] => some []
  | w :: rest => do return (← item.read w) :: (← readItems item rest)

def readEntries (value : Shape) : List (Option String × Written) → Option (List (String × Json))
  | [] => some []
  | (none, _) :: _ => none
  | (some name, w) :: rest => do return (name, ← value.read w) :: (← readEntries value rest)

def readMembers (stated : List (String × String)) (known : List (String × Shape)) :
    List (Option String × Written) → Option (List (String × Json))
  | [] => some []
  | (none, _) :: _ => none
  | (some name, w) :: rest => do
    let others ← readMembers stated known rest
    match stated.lookup name, known.lookup name with
    | some value, _ => return (name, ← readStated value w) :: others
    | none, some shape => return (name, ← if w.isNull then some .null else shape.read w) :: others
    | none, none => return others

end

/-- Reads a text by a shape and then decodes what the shape knows. -/
def reader {α : Type} (shape : Shape) (d : Decoder α) : Written.Reader α := fun w => do
  (d (← shape.read w)).toOption

/-! ## Leaves -/

/-- The documents that a decoder takes. -/
def decodedBy {α : Type} (d : Decoder α) : Shape :=
  leaf fun j =>
    match d j with
    | .ok _ => true
    | .error _ => false

def any : Shape := leaf fun _ => true

def string : Shape := leaf (·.asString?.isSome)

def bool : Shape := leaf (·.asBool?.isSome)

def int32 : Shape := decodedBy (Decoder.signed 32)

def int64 : Shape := decodedBy (Decoder.signed 64)

def time : Shape := decodedBy Decoder.timestamp

/-- A count of objects or a share of them. -/
def countOrShare : Shape :=
  leaf fun j => j.asString?.isSome || ((j.asNumber?.bind (·.toSigned? 32)).isSome)

/-- Bytes in base64; null stands for no bytes. -/
def bytes : Shape :=
  leaf fun
    | .null => true
    | .str s => (Text.Base64.bytes? s.toList).isSome
    | _ => false

/-! ## Objects -/

/-- An object with members of some shapes. -/
def object (members : List (String × Shape)) : Shape := record [] members

def strings : Shape := list string

/-- A map of names to strings. -/
def labels : Shape := map string

/-- Members that have one shape in common. -/
def each (shape : Shape) (names : List String) : List (String × Shape) := names.map (·, shape)

/-- The shape of object metadata, whose members are those that `Metadata.decode` reads. -/
def metadata : Shape :=
  object (each string ["generateName", "name", "namespace", "resourceVersion", "selfLink", "uid"] ++
    each labels ["annotations", "labels"] ++
    each time ["creationTimestamp", "deletionTimestamp"] ++
    each int64 ["deletionGracePeriodSeconds", "generation"] ++
    [("finalizers", strings),
      ("managedFields", list (object (("fieldsV1", any) :: ("time", time) ::
        each string ["apiVersion", "fieldsType", "manager", "operation", "subresource"]))),
      ("ownerReferences", list (object (each string ["apiVersion", "kind", "name", "uid"] ++
        each bool ["controller", "blockOwnerDeletion"])))])

/-- An object of a kind. It may leave out that it is of the kind, but not say anything else. -/
def ofKind (gvk : GroupVersionKind) (members : List (String × Shape)) : Shape :=
  record [("apiVersion", gvk.apiVersion), ("kind", gvk.kind)] (("metadata", metadata) :: members)

end Shape

end DesiredState
