import DesiredState.Json.Decode
import DesiredState.Time.Timestamp

/-!
# Object metadata

The metadata that every object of the cluster has, with the type of each member. Members that
are not known are left out, and so are members that are null.
-/

namespace DesiredState

namespace Decoder

def timestamp : Decoder Timestamp
  | .str s =>
    match Timestamp.read? s with
    | some t => .ok t
    | none => .error (.other "input contains invalid characters")
  | j => j.wrongType "an RFC 3339 formatted date and time string"

end Decoder

/-- An entry of `metadata.ownerReferences`. -/
structure ReferenceEntry where
  apiVersion : String
  kind : String
  name : String
  uid : String
  controller : Option Bool
  blockOwnerDeletion : Option Bool
  deriving DecidableEq

/-- An entry of `metadata.managedFields`. -/
structure ManagedEntry where
  apiVersion : Option String
  fieldsType : Option String
  fields : Option Json
  manager : Option String
  operation : Option String
  subresource : Option String
  time : Option Timestamp

structure Metadata where
  annotations : Option (SortedMap String String)
  creationTimestamp : Option Timestamp
  deletionGracePeriodSeconds : Option Int
  deletionTimestamp : Option Timestamp
  finalizers : Option (List String)
  generateName : Option String
  generation : Option Int
  labels : Option (SortedMap String String)
  managedFields : Option (List ManagedEntry)
  name : Option String
  ns? : Option String
  ownerReferences : Option (List ReferenceEntry)
  resourceVersion : Option String
  selfLink : Option String
  uid : Option String

/-! ## Reading -/

def ReferenceEntry.decode : Decoder ReferenceEntry := fun j => do
  let o ← Decoder.object "an owner reference" j
  return {
    apiVersion := ← o.orElse "apiVersion" Decoder.string ""
    kind := ← o.orElse "kind" Decoder.string ""
    name := ← o.orElse "name" Decoder.string ""
    uid := ← o.orElse "uid" Decoder.string ""
    controller := ← o.optional "controller" Decoder.bool
    blockOwnerDeletion := ← o.optional "blockOwnerDeletion" Decoder.bool }

def ManagedEntry.decode : Decoder ManagedEntry := fun j => do
  let o ← Decoder.object "an entry of managed fields" j
  return {
    apiVersion := ← o.optional "apiVersion" Decoder.string
    fieldsType := ← o.optional "fieldsType" Decoder.string
    fields := ← o.optional "fieldsV1" Decoder.any
    manager := ← o.optional "manager" Decoder.string
    operation := ← o.optional "operation" Decoder.string
    subresource := ← o.optional "subresource" Decoder.string
    time := ← o.optional "time" Decoder.timestamp }

namespace Metadata

def decode : Decoder Metadata := fun j => do
  let o ← Decoder.object "object metadata" j
  return {
    annotations := ← o.optional "annotations" (Decoder.map Decoder.string)
    creationTimestamp := ← o.optional "creationTimestamp" Decoder.timestamp
    deletionGracePeriodSeconds := ← o.optional "deletionGracePeriodSeconds" (Decoder.signed 64)
    deletionTimestamp := ← o.optional "deletionTimestamp" Decoder.timestamp
    finalizers := ← o.optional "finalizers" (Decoder.list Decoder.string)
    generateName := ← o.optional "generateName" Decoder.string
    generation := ← o.optional "generation" (Decoder.signed 64)
    labels := ← o.optional "labels" (Decoder.map Decoder.string)
    managedFields := ← o.optional "managedFields" (Decoder.list ManagedEntry.decode)
    name := ← o.optional "name" Decoder.string
    ns? := ← o.optional "namespace" Decoder.string
    ownerReferences := ← o.optional "ownerReferences" (Decoder.list ReferenceEntry.decode)
    resourceVersion := ← o.optional "resourceVersion" Decoder.string
    selfLink := ← o.optional "selfLink" Decoder.string
    uid := ← o.optional "uid" Decoder.string }

/-- The metadata of an object that states none. -/
def empty : Metadata :=
  ⟨none, none, none, none, none, none, none, none, none, none, none, none, none, none, none⟩

end Metadata

/-! ## Writing -/

namespace Json

/-- An object of the members that have a value. -/
def objectOfSome (members : List (String × Option Json)) : Json :=
  object (members.filterMap fun (name, v) => v.map (name, ·))

end Json

def ReferenceEntry.encode (r : ReferenceEntry) : Json :=
  .objectOfSome [("apiVersion", some (.str r.apiVersion)), ("kind", some (.str r.kind)),
    ("name", some (.str r.name)), ("uid", some (.str r.uid)),
    ("controller", r.controller.map .bool), ("blockOwnerDeletion", r.blockOwnerDeletion.map .bool)]

def ManagedEntry.encode (e : ManagedEntry) : Json :=
  .objectOfSome [("apiVersion", e.apiVersion.map .str), ("fieldsType", e.fieldsType.map .str),
    ("fieldsV1", e.fields), ("manager", e.manager.map .str), ("operation", e.operation.map .str),
    ("subresource", e.subresource.map .str), ("time", e.time.map fun t => .str t.text)]

def Metadata.encode (m : Metadata) : Json :=
  .objectOfSome [("annotations", m.annotations.map fun a => .obj (a.map .str)),
    ("creationTimestamp", m.creationTimestamp.map fun t => .str t.text),
    ("deletionGracePeriodSeconds", m.deletionGracePeriodSeconds.map .int),
    ("deletionTimestamp", m.deletionTimestamp.map fun t => .str t.text),
    ("finalizers", m.finalizers.map .strings), ("generateName", m.generateName.map .str),
    ("generation", m.generation.map .int), ("labels", m.labels.map fun l => .obj (l.map .str)),
    ("managedFields", m.managedFields.map fun l => .arr (l.map ManagedEntry.encode)),
    ("name", m.name.map .str), ("namespace", m.ns?.map .str),
    ("ownerReferences", m.ownerReferences.map fun l => .arr (l.map ReferenceEntry.encode)),
    ("resourceVersion", m.resourceVersion.map .str), ("selfLink", m.selfLink.map .str),
    ("uid", m.uid.map .str)]

end DesiredState
