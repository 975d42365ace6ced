import DesiredState.Json.Decode
import DesiredState.Object.Key

/-!
# Errors

What can go wrong while an owner is reconciled, by cause, and the one text of each.
-/

namespace DesiredState

/-- Why a manifest, a key or an owner is refused. -/
inductive Invalid where
  | manifestNotObject
  | manifestWithoutApiVersion
  | manifestWithoutKind
  | manifestWithoutName
  /-- The kind is namespaced and the key has no namespace. -/
  | namespaceRequired (kind : GroupVersionKind)
  /-- The server does not serve the kind. -/
  | notServed (kind : GroupVersionKind)
  | ownerWithoutUid (owner : ObjectKey)
  | described (text : String)
  deriving DecidableEq

namespace Invalid

def message : Invalid → String
  | manifestNotObject => "manifest must be an object"
  | manifestWithoutApiVersion => "manifest missing apiVersion"
  | manifestWithoutKind => "manifest missing kind"
  | manifestWithoutName => "manifest missing metadata.name"
  | namespaceRequired kind => "namespace required for namespaced kind " ++ kind.text
  | notServed kind => "GVK not served: " ++ kind.text
  | ownerWithoutUid owner => owner.text ++ " has no metadata.uid"
  | described text => text

end Invalid

inductive Error where
  /-- The object is not there, which leads to a create. -/
  | notFound (detail : String)
  /-- The object changed since it was read. -/
  | conflict (detail : String)
  | alreadyExists (detail : String)
  | generator (detail : String)
  | validation (cause : Invalid)
  | hook (detail : String)
  /-- The object will not become ready on its own. -/
  | readiness (detail : String)
  /-- Any other answer of the server that is an error. -/
  | api (code : Nat) (reason detail : String)
  /-- No usable answer came back. -/
  | transport (detail : String)
  | serialization (cause : DecodeError)
  deriving DecidableEq

namespace Error

def message : Error → String
  | notFound detail => "not_found: " ++ detail
  | conflict detail => "conflict: " ++ detail
  | alreadyExists detail => "already_exists: " ++ detail
  | generator detail => "generator: " ++ detail
  | validation cause => "validation: " ++ cause.message
  | hook detail => "hook: " ++ detail
  | readiness detail => "readiness: " ++ detail
  | api code reason detail =>
    "api (" ++ toString code ++ " " ++ reason ++ "): " ++ detail
  | transport detail => "transport: " ++ detail
  | serialization cause => "serialization: " ++ cause.message

def isNotFound : Error → Bool
  | notFound _ => true
  | _ => false

def isConflict : Error → Bool
  | conflict _ => true
  | _ => false

def isAlreadyExists : Error → Bool
  | alreadyExists _ => true
  | _ => false

end Error

/-- The result of a computation that can fail with an error of the engine. -/
abbrev Result (α : Type) : Type := Except Error α

/-- A failed decoding is an error of the engine. -/
def Result.ofDecode {α : Type} : Except DecodeError α → Result α
  | .ok a => .ok a
  | .error e => .error (.serialization e)

end DesiredState
