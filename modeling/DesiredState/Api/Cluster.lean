import DesiredState.Api.Discovery
import DesiredState.Api.LiveObject
import DesiredState.Json.Printer
import DesiredState.Store.Basic

/-!
# The store of a cluster

The operations of a store as requests to a server. Where a kind is served is found out once; a
search that fails is made again. Objects in namespaces have to name theirs, and the namespace of
an object of the whole cluster does not matter.
-/

namespace DesiredState

namespace Cluster

/-- The endpoints that are known. -/
abbrev Endpoints : Type := List (GroupVersionKind × Endpoint)

namespace Endpoints

def get? (known : Endpoints) (kind : GroupVersionKind) : Option Endpoint :=
  (known.find? (·.1 = kind)).map (·.2)

end Endpoints

/-! ## Requests -/

/-- The manager of a write is not longer than a server admits. -/
def checkManager (manager : String) : Except Fault Unit :=
  if 128 < manager.utf8ByteSize then .error (.unusable "the field manager is too long")
  else .ok ()

def target (text : String) : Except Fault Target :=
  match Target.ofText? text with
  | some target => .ok target
  | none => .error (.unusable "invalid uri")

/-- The request of a read. Only here an object has to have a name. -/
def getRequest (path name : String) : Except Fault Request := do
  if name.isEmpty then throw (.unusable "a non-empty name is required")
  else return ⟨.get, ← target (path ++ "/" ++ name), none⟩

/-- The request for the objects at a path, with no more in its query. -/
def listRequest (path : String) : Except Fault Request := do
  return ⟨.get, ← target (path ++ "?"), none⟩

/-- The request of a write in the name of a manager. -/
def writeRequest (method : Method) (path manager type : String) (body : Json) :
    Except Fault Request := do
  let t ← target (path ++ "?&fieldManager=" ++ Target.valueText manager)
  return ⟨method, t, some ⟨type, body.text⟩⟩

def createRequest (path manager : String) (body : Json) : Except Fault Request := do
  checkManager manager
  writeRequest .post path manager "application/json" body

def patchRequest (path name manager : String) (patch : Json) : Except Fault Request := do
  checkManager manager
  writeRequest .patch (path ++ "/" ++ name) manager "application/merge-patch+json" patch

/-- Of all writes only that of a status leaves the length of the manager unchecked. -/
def statusRequest (path name manager : String) (object : Json) : Except Fault Request :=
  writeRequest .put (path ++ "/" ++ name ++ "/status") manager "application/json" object

/-! ## Operations -/

variable {m : Type → Type} [Monad m]

/-- Where a kind is served; what is found out is kept. -/
def endpoint (send : Connection m) (kind : GroupVersionKind) :
    ExceptT Error (StateT Endpoints m) Endpoint := do
  match (← get).get? kind with
  | some e => return e
  | none =>
    let e ← ExceptT.mk (StateT.lift (Discovery.endpoint send kind).run)
    modify ((kind, e) :: ·)
    return e

/-- The path of the objects beside the object of a key. -/
def pathOf (send : Connection m) (key : ObjectKey) :
    ExceptT Error (StateT Endpoints m) String := do
  let e ← endpoint send key.gvk
  if e.namespaced then
    match key.ns? with
    | some ns => return e.path (some ns)
    | none => throw (.validation (.namespaceRequired key.gvk))
  else return e.path none

/-- The path of the objects of a kind, in a namespace or in all. -/
def listPathOf (send : Connection m) (kind : GroupVersionKind) (ns? : Option String) :
    ExceptT Error (StateT Endpoints m) String := do
  let e ← endpoint send kind
  return e.path (if e.namespaced then ns? else none)

/-- Send a request, if there is one, and read the reply. -/
def exchange {α : Type} (send : Connection m) (request : Except Fault Request)
    (read : Written.Reader α) : m (Except Fault α) :=
  match request with
  | .error fault => return .error fault
  | .ok request => (send.ask request read).run

/-- The answer of an exchange about an object. -/
def asked {α : Type} (send : Connection m) (key : ObjectKey) (request : Except Fault Request)
    (read : Written.Reader α) : ExceptT Error (StateT Endpoints m) α := do
  match ← ExceptT.lift (StateT.lift (exchange send request read)) with
  | .ok a => return a
  | .error fault => throw (fault.toError key)

/-- The live object of a read. Whatever its code, the reason tells that there is none. -/
def found (key : ObjectKey) : Except Fault LiveObject → Result (Option Json)
  | .ok object => .ok (some object.answer)
  | .error (.server e) => if e.reason = "NotFound" then .ok none else .error (e.toError key)
  | .error fault => .error (fault.toError key)

/-- The store of the cluster behind a connection. -/
def store (send : Connection m) : Store (StateT Endpoints m) where
  get key := do
    let path ← pathOf send key
    let reply ← ExceptT.lift (StateT.lift
      (exchange send (getRequest path key.name) LiveObject.read))
    ExceptT.mk (pure (found key reply))
  create key body manager := do
    let path ← pathOf send key
    let object ← ExceptT.mk (pure (Result.ofDecode (LiveObject.decode body)))
    let created ← asked send key (createRequest path manager object.encode) LiveObject.read
    return created.answer
  patch key patch manager := do
    let path ← pathOf send key
    let patched ← asked send key (patchRequest path key.name manager patch) LiveObject.read
    return patched.answer
  list kind ns := do
    let path ← listPathOf send kind ns
    let objects ← asked send (.of kind ns "*") (listRequest path) LiveObject.readList
    return objects.map LiveObject.answer
  updateStatus key object manager := do
    let path ← pathOf send key
    let updated ← asked send key (statusRequest path key.name manager object) LiveObject.read
    return updated.answer

end Cluster

end DesiredState
