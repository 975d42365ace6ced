import DesiredState.Api.Exchange
import DesiredState.Object.Shape

/-!
# Finding out where a kind is served

The groups that a server has are read first, then each version of the wanted group, and at last
the versions of the core group if it is wanted. The kind is found among the resources of its
version, where subresources do not count.
-/

namespace DesiredState

/-- Where the objects of a kind are found. -/
structure Endpoint where
  /-- The path of the version. -/
  root : String
  plural : String
  namespaced : Bool
  deriving DecidableEq

namespace Endpoint

/-- The path of the objects, in a namespace or in none. -/
def path (e : Endpoint) (ns? : Option String) : String :=
  match ns? with
  | some ns => e.root ++ "/namespaces/" ++ ns ++ "/" ++ e.plural
  | none => e.root ++ "/" ++ e.plural

end Endpoint

namespace Discovery

/-! ## What servers say about themselves -/

/-- A version of a group. -/
structure GroupVersion where
  groupVersion : String
  version : String

structure Group where
  name : String
  versions : List GroupVersion

structure Resource where
  name : String
  kind : String
  namespaced : Bool
  group? : Option String

/-- The resources of one version. -/
structure ResourceList where
  groupVersion : String
  resources : List Resource

/-! ## Shapes -/

/-- A document of a kind that servers use to speak about themselves. -/
def ofMetaKind (kind : String) (members : List (String × Shape)) : Shape :=
  .record [("apiVersion", "v1"), ("kind", kind)] members

def groupVersionShape : Shape := .object (Shape.each .string ["groupVersion", "version"])

/-- Under which addresses clients find the server. -/
def addresses : String × Shape :=
  ("serverAddressByClientCIDRs",
    .list (.object (Shape.each .string ["clientCIDR", "serverAddress"])))

def groupShape : Shape :=
  ofMetaKind "APIGroup" [("name", .string), ("preferredVersion", groupVersionShape), addresses,
    ("versions", .list groupVersionShape)]

def resourceShape : Shape :=
  .object (Shape.each .string ["group", "kind", "name", "singularName", "storageVersionHash",
      "version"] ++
    Shape.each .strings ["categories", "shortNames", "verbs"] ++ [("namespaced", .bool)])

/-! ## Readers -/

def decodeGroupVersion : Decoder GroupVersion := fun j => do
  let o ← Decoder.object "a version of a group" j
  return ⟨← o.orElse "groupVersion" Decoder.string "", ← o.orElse "version" Decoder.string ""⟩

def decodeGroup : Decoder Group := fun j => do
  let o ← Decoder.object "a group" j
  return ⟨← o.orElse "name" Decoder.string "",
    ← o.orElse "versions" (Decoder.list decodeGroupVersion) []⟩

def decodeGroups : Decoder (List Group) := fun j => do
  (← Decoder.object "a list of groups" j).orElse "groups" (Decoder.list decodeGroup) []

def readGroups : Written.Reader (List Group) :=
  (ofMetaKind "APIGroupList" [("groups", .list groupShape)]).reader decodeGroups

def decodeCoreVersions : Decoder (List String) := fun j => do
  (← Decoder.object "versions" j).orElse "versions" (Decoder.list Decoder.string) []

/-- Reads the versions of the core group. -/
def readCoreVersions : Written.Reader (List String) :=
  (ofMetaKind "APIVersions" [addresses, ("versions", .strings)]).reader decodeCoreVersions

def decodeResource : Decoder Resource := fun j => do
  let o ← Decoder.object "a resource" j
  return {
    name := ← o.orElse "name" Decoder.string ""
    kind := ← o.orElse "kind" Decoder.string ""
    namespaced := ← o.orElse "namespaced" Decoder.bool false
    group? := ← o.optional "group" Decoder.string }

def decodeResources : Decoder ResourceList := fun j => do
  let o ← Decoder.object "a list of resources" j
  return ⟨← o.orElse "groupVersion" Decoder.string "",
    ← o.orElse "resources" (Decoder.list decodeResource) []⟩

def readResources : Written.Reader ResourceList :=
  (ofMetaKind "APIResourceList" [("groupVersion", .string),
    ("resources", .list resourceShape)]).reader decodeResources

/-! ## Endpoints -/

namespace ResourceList

/-- The path of the version, which the group of a resource may put among the others. -/
def root (l : ResourceList) (r : Resource) : String :=
  let listed := GroupVersionKind.ofApiVersion l.groupVersion r.kind
  let top := if (r.group?.getD listed.group).isEmpty then "/api/" else "/apis/"
  top ++ listed.apiVersion

/-- The first resource of a name says whether it is in namespaces. -/
def namespaced (l : ResourceList) (name : String) : Bool :=
  (l.resources.find? (·.name = name)).any Resource.namespaced

/-- The endpoint of a kind. -/
def endpoint? (l : ResourceList) (kind : String) : Option Endpoint :=
  (l.resources.find? fun r => r.kind = kind && !r.name.toList.contains '/').map fun r =>
    ⟨l.root r, r.name, l.namespaced r.name⟩

end ResourceList

/-! ## Asking a server -/

variable {m : Type → Type} [Monad m]

/-- What a reader makes of the reply at a path. -/
def fetch {α : Type} (send : Connection m) (path : String) (read : Written.Reader α) :
    ExceptT Fault m α :=
  match Target.ofText? path with
  | some target => send.ask ⟨.get, target, none⟩ read
  | none => throw (.unusable "invalid uri character")

/-- The resources of versions, each found at its path. -/
def fetchVersions (send : Connection m) :
    List (String × String) → ExceptT Fault m (List (String × ResourceList))
  | [] => return []
  | (version, path) :: rest => do
    let resources ← fetch send path readResources
    return (version, resources) :: (← fetchVersions send rest)

/-- The resources of all versions of a group, which has to have a version. -/
def fetchGroup (send : Connection m) (versions : List (String × String)) :
    ExceptT Fault m (List (String × ResourceList)) :=
  if versions.isEmpty then throw (.unusable "empty api group") else fetchVersions send versions

/-- The resources of groups, of which the last counts. -/
def fetchGroups (send : Connection m) (last : List (String × ResourceList)) :
    List Group → ExceptT Fault m (List (String × ResourceList))
  | [] => return last
  | group :: rest => do
    let versions := group.versions.map fun v => (v.version, "/apis/" ++ v.groupVersion)
    fetchGroups send (← fetchGroup send versions) rest

/-- The resources of all versions of the group of a name. -/
def versionsOf (send : Connection m) (name : String) :
    ExceptT Fault m (List (String × ResourceList)) := do
  let groups ← fetch send "/apis" readGroups
  let listed ← fetchGroups send [] (groups.filter (·.name = name))
  if name.isEmpty then
    let versions ← fetch send "/api" readCoreVersions
    fetchGroup send (versions.map fun v => (v, "/api/" ++ v))
  else return listed

/-- The endpoint of a kind. -/
def endpoint (send : Connection m) (kind : GroupVersionKind) : ExceptT Error m Endpoint :=
  ExceptT.mk do
    match ← (versionsOf send kind.group).run with
    | .error fault => return .error (.transport ("discovery failed: " ++ fault.detail))
    | .ok versions =>
      match (versions.find? (·.1 = kind.version)).bind (·.2.endpoint? kind.kind) with
      | some e => return .ok e
      | none => return .error (.validation (.notServed kind))

end Discovery

end DesiredState
