import DesiredState.Json.MergePatch
import DesiredState.Number.Tracked
import DesiredState.Object.Manifest
import DesiredState.Store.Basic

/-!
# A store in memory

The store keeps the books of a cluster: it gives every object a uid and, at each change, the next
version, and it counts the generations of what lies outside metadata and status. Calls are counted
by operation, and failures can be queued for the calls to come.
-/

namespace DesiredState

inductive Operation where
  | get
  | create
  | patch
  | list
  | updateStatus
  deriving DecidableEq

structure MemoryStore where
  /-- What all uids that the store gives out have in front. -/
  family : String
  objects : SortedMap ObjectKey Json
  /-- The latest version given out. -/
  version : Nat
  /-- How many uids were given out. -/
  issued : Nat
  /-- How often each operation was called. -/
  calls : Operation → Nat
  /-- The failures of the next calls of each operation. -/
  queued : Operation → List Error

namespace MemoryStore

/-- The store without objects that gives out uids of a family. -/
def emptyOf (family : String) : MemoryStore :=
  ⟨family, SortedMap.empty, 0, 0, fun _ => 0, fun _ => []⟩

/-- The family of uids unless another is chosen. -/
def defaultFamily : String := "5e1f0b7d-92c4-4a36-8d1e-"

def empty : MemoryStore := emptyOf defaultFamily

instance : Inhabited MemoryStore := ⟨empty⟩

def object? (s : MemoryStore) (key : ObjectKey) : Option Json := s.objects.get? key

def size (s : MemoryStore) : Nat := s.objects.size

/-- How often an operation that can change objects was called. -/
def writes (s : MemoryStore) : Nat :=
  s.calls .create + s.calls .patch + s.calls .updateStatus

/-! ## Bookkeeping -/

/-- The version after the latest one. -/
def nextVersion (s : MemoryStore) : MemoryStore := { s with version := s.version + 1 }

def put (s : MemoryStore) (key : ObjectKey) (object : Json) : MemoryStore :=
  { s with objects := s.objects.insert key object }

/-- A number with so many hexadecimal digits. -/
def hexText (digits n : Nat) : String :=
  let written := Nat.toDigits 16 n
  String.ofList (List.replicate (digits - written.length) '0' ++ written)

/-- The uid of a number in a family, in the shape of a UUID. -/
def uidText (family : String) (n : Nat) : String := family ++ hexText 12 n

/-- A uid that was not given out before. -/
def freshUid (s : MemoryStore) : Json := .str (uidText s.family s.issued)

def issueUid (s : MemoryStore) : MemoryStore := { s with issued := s.issued + 1 }

/-- The version that an object states. -/
def versionOf (object : Json) : Option String :=
  object.stringAt? ["metadata", "resourceVersion"]

/-- The object at the latest version. -/
def stamped (s : MemoryStore) (object : Json) : Json :=
  object.updateMember "metadata" (·.insert "resourceVersion" (.str (toString s.version)))

/-- The version that is stated, if the object is no longer at it. -/
def staleVersion? (stated object : Json) : Option String :=
  (versionOf stated).filter fun want => decide (versionOf object ≠ some want)

def staleError (key : ObjectKey) (version : String) : Error :=
  .conflict (key.text ++ ": resourceVersion " ++ version ++ " is stale")

/-- What generations count: all but metadata and status. -/
def counted : Json → Json
  | .obj fields => .obj ((fields.erase "metadata").erase "status")
  | _ => .null

/-- Count on from the generation that the metadata state, in 64 bits and without a check. -/
def countGeneration (metadata : Object) : Tracked Int :=
  let stated := ((metadata.get? "generation").bind Json.asNumber?).bind (·.toSigned? 64)
  Word.unchecked 64 (stated.getD 0 + 1)

/-- The generation after the one that the metadata state. -/
def nextGeneration (metadata : Object) : Json := .int (countGeneration metadata).value

/-! ## Changes from outside -/

/-- Put an object in as it is, its status included. -/
def insert (s : MemoryStore) (object : Json) : Result ObjectKey × MemoryStore :=
  match Manifest.keyOf object with
  | .error e => (.error e, s)
  | .ok key =>
    let s := s.nextVersion
    let kept := object.updateMember "metadata" fun m =>
      (m.insertNew "uid" s.freshUid).insertNew "generation" (.int 1)
    (.ok key, s.issueUid.put key (s.stamped kept))

/-- Change a stored object, which takes a version even if there is no such object. -/
def amend (s : MemoryStore) (key : ObjectKey) (f : Json → Json) : Result Unit × MemoryStore :=
  let s := s.nextVersion
  match s.object? key with
  | none => (.error (.notFound key.text), s)
  | some object => (.ok (), s.put key (s.stamped (f object)))

/-- Set the status of a stored object. -/
def setStatus (s : MemoryStore) (key : ObjectKey) (status : Json) : Result Unit × MemoryStore :=
  s.amend key (·.setMember "status" status)

/-- Give a stored object a new version. -/
def touch (s : MemoryStore) (key : ObjectKey) : Result Unit × MemoryStore := s.amend key id

/-- Let a later call of an operation fail; failures that are queued already come first. -/
def failNext (s : MemoryStore) (op : Operation) (error : Error) : MemoryStore :=
  { s with queued := fun o => if o = op then s.queued op ++ [error] else s.queued o }

/-! ## Operations -/

/-- Count a call. -/
def count (s : MemoryStore) (op : Operation) : MemoryStore :=
  { s with calls := fun o => if o = op then s.calls op + 1 else s.calls o }

/-- Take the first queued failure out. -/
def unqueue (s : MemoryStore) (op : Operation) : MemoryStore :=
  { s with queued := fun o => if o = op then (s.queued op).tail else s.queued o }

/-- A counted call, which fails if a failure is queued for it. -/
def attempt {α : Type} (s : MemoryStore) (op : Operation)
    (act : MemoryStore → Result α × MemoryStore) : Result α × MemoryStore :=
  match s.queued op with
  | e :: _ => (.error e, (s.count op).unqueue op)
  | [] => act (s.count op)

def get (s : MemoryStore) (key : ObjectKey) : Result (Option Json) × MemoryStore :=
  s.attempt .get fun s => (.ok (s.object? key), s)

def create (s : MemoryStore) (key : ObjectKey) (body : Json) : Result Json × MemoryStore :=
  s.attempt .create fun s =>
    if s.objects.contains key then (.error (.alreadyExists key.text), s)
    else
      let s := s.nextVersion
      let object := s.stamped ((body.eraseMember "status").updateMember "metadata" fun m =>
        (m.insert "uid" s.freshUid).insert "generation" (.int 1))
      (.ok object, s.issueUid.put key object)

/-- The members of metadata that no patch changes. -/
def fixedNames : List String := ["resourceVersion", "uid", "generation", "creationTimestamp"]

/-- The part of a patch that takes effect. -/
def effective (patch : Json) : Json :=
  (patch.eraseMember "status").updateMember "metadata" fun m => fixedNames.foldl .erase m

/-- Patch an object, and count a generation if what is counted changes. -/
def merge (object patch : Json) : Tracked Json :=
  let merged := object.patched (effective patch)
  if (counted merged).same (counted object) then return merged
  else do
    let metadata := ((merged.member? "metadata").bind Json.asObject?).getD SortedMap.empty
    let next ← countGeneration metadata
    return merged.updateMember "metadata" (·.insert "generation" (.int next))

/-- The object after a patch, before it takes its new version. -/
def merged (object patch : Json) : Json := (merge object patch).value

def patch (s : MemoryStore) (key : ObjectKey) (patch : Json) : Result Json × MemoryStore :=
  s.attempt .patch fun s =>
    match s.object? key with
    | none => (.error (.notFound key.text), s)
    | some object =>
      match staleVersion? patch object with
      | some version => (.error (staleError key version), s)
      | none =>
        if (object.patched (effective patch)).same object then (.ok object, s)
        else
          let s := s.nextVersion
          let changed := s.stamped (merged object patch)
          (.ok changed, s.put key changed)

/-- A patch of an object counts a generation that does not fit in 64 bits. -/
def patchOverflows (s : MemoryStore) (key : ObjectKey) (patch : Json) : Bool :=
  (s.queued .patch).isEmpty && (s.object? key).any fun object =>
    (staleVersion? patch object).isNone && (merge object patch).overflowed

def list (s : MemoryStore) (kind : GroupVersionKind) (ns? : Option String) :
    Result (List Json) × MemoryStore :=
  s.attempt .list fun s =>
    let asked := s.objects.filter fun key _ =>
      decide (key.gvk = kind) && (ns?.isNone || decide (key.ns? = ns?))
    (.ok asked.values, s)

def updateStatus (s : MemoryStore) (key : ObjectKey) (object : Json) :
    Result Json × MemoryStore :=
  s.attempt .updateStatus fun s =>
    match s.object? key with
    | none => (.error (.notFound key.text), s)
    | some current =>
      match staleVersion? object current with
      | some version => (.error (staleError key version), s)
      | none =>
        let s := s.nextVersion
        let changed := s.stamped (current.setMember "status" (.ofOption (object.member? "status")))
        (.ok changed, s.put key changed)

/-- The operations as a store. Managers are not kept. -/
def store : Store (StateM MemoryStore) where
  get key := fun s => s.get key
  create key body _ := fun s => s.create key body
  patch key patch _ := fun s => s.patch key patch
  list kind ns := fun s => s.list kind ns
  updateStatus key object _ := fun s => s.updateStatus key object

/-- The same store, which notes when a step leaves its word. -/
def trackedStore : Store (StateT MemoryStore Tracked) :=
  { store.lift fun act s => pure (act s) with
    patch := fun key patch _ s => ⟨s.patch key patch, s.patchOverflows key patch⟩ }

end MemoryStore

end DesiredState
