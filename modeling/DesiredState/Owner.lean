import DesiredState.Object.Metadata
import DesiredState.Object.OwnerReference
import DesiredState.Status

/-!
# Kinds of owners

An owner is a configuration object whose children are kept as it asks for. Its kind says how it
is read; its name is that of its metadata, or the one that a name is generated from.
-/

namespace DesiredState

class Owner (ω : Type) where
  gvk : GroupVersionKind
  decode : Decoder ω
  metadata : ω → Metadata
  /-- The status that the owner states. -/
  status? : ω → Option OwnerStatus

namespace Owner

variable {ω : Type} [Owner ω]

def name (owner : ω) : String :=
  ((metadata owner).name.or (metadata owner).generateName).getD ""

def ns? (owner : ω) : Option String := (metadata owner).ns?

def key (owner : ω) : ObjectKey := .of (gvk ω) (ns? owner) (name owner)

/-- The owner as its children name it, which takes a uid. -/
def identity (owner : ω) : Result OwnerIdentity :=
  match (metadata owner).uid with
  | some uid => .ok ⟨gvk ω, ns? owner, name owner, uid⟩
  | none => .error (.validation (.ownerWithoutUid (key owner)))

/-- The owner is being deleted. -/
def isDeleted (owner : ω) : Bool := (metadata owner).deletionTimestamp.isSome

end Owner

end DesiredState
