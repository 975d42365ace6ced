import DesiredState.Object.Shape

/-!
# Live objects as they are read and sent

Of an object the metadata are typed and lose what is not known; all other members stay as they
are. The object states its kind in full or not at all.
-/

namespace DesiredState

structure LiveObject where
  metadata : Metadata
  /-- The members other than metadata. -/
  rest : Object

namespace LiveObject

/-! ## Kinds -/

/-- The members, apart from the kind that they state, as far as it is known. A kind ends where one
of its two parts is no string or comes again. Unless both parts came before that, what came is left
out, and all later members stay. -/
def settleKind (version kind : Option String) : List (String × Json) → List (String × Json)
  | [] =>
    match version, kind with
    | some v, some k => [("apiVersion", .str v), ("kind", .str k)]
    | _, _ => []
  | (name, v) :: rest =>
    if name = "apiVersion" then
      match version, v with
      | none, .str s => settleKind (some s) kind rest
      | _, _ => rest
    else if name = "kind" then
      match kind, v with
      | none, .str s => settleKind version (some s) rest
      | _, _ => rest
    else (name, v) :: settleKind version kind rest

/-- The object with these members beside its metadata. -/
def ofMembers (metadata : Metadata) (others : List (String × Json)) : LiveObject :=
  ⟨metadata, SortedMap.ofList (settleKind none none others)⟩

/-! ## Documents -/

def decode : Decoder LiveObject := fun j => do
  let o ← Decoder.object "an object" j
  let metadata ← o.withDefault "metadata" Metadata.decode .empty
  return ofMembers metadata (o.erase "metadata").toList

def encode (o : LiveObject) : Json := .obj (SortedMap.insert o.rest "metadata" o.metadata.encode)

/-- The object without the record of who manages which of its fields. -/
def answer (o : LiveObject) : Json :=
  ({ o with metadata := { o.metadata with managedFields := none } } : LiveObject).encode

/-! ## Texts -/

/-- Members that are read as they are. -/
def readPlain (members : List (String × Written)) : Option (List (String × Json)) :=
  members.mapM fun (name, w) => do return (name, ← w.value?)

/-- Reads an object. Its metadata may occur once. -/
def read : Written.Reader LiveObject
  | .obj members => do
    let (known, others) ← Written.pick ["metadata"] members
    let metadata ← match Written.named? "metadata" known with
      | some w => Shape.metadata.reader Metadata.decode w
      | none => some .empty
    return ofMembers metadata (← readPlain others)
  | _ => none

/-- Reads the items of a list, which may be null. -/
def readItems : Written.Reader (List LiveObject)
  | .null => some []
  | .arr items => items.mapM read
  | _ => none

/-- The metadata of a list of objects. -/
def listMetadata : Shape :=
  .object (("remainingItemCount", .int64) ::
    Shape.each .string ["continue", "resourceVersion", "selfLink"])

/-- Reads a list of objects. Its metadata and its items have to occur once. -/
def readList : Written.Reader (List LiveObject)
  | .obj members => do
    let (known, others) ← Written.pick ["metadata", "items"] members
    let _ ← listMetadata.read (← Written.named? "metadata" known)
    let _ ← readPlain others
    readItems (← Written.named? "items" known)
  | _ => none

end LiveObject

end DesiredState
