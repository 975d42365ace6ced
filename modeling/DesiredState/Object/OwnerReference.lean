import DesiredState.Object.Manifest

/-!
# Owner references

A child names its owner in `metadata.ownerReferences`. Attaching an owner replaces every entry
with the same uid by one entry at the end.
-/

namespace DesiredState

/-- The owner of a child. -/
structure OwnerIdentity where
  gvk : GroupVersionKind
  ns? : Option String
  name : String
  uid : String
  deriving DecidableEq

namespace OwnerIdentity

def key (o : OwnerIdentity) : ObjectKey := .of o.gvk o.ns? o.name

/-- The entry that marks this owner as the one in control. -/
def reference (o : OwnerIdentity) : Json :=
  .object [("apiVersion", .str o.gvk.apiVersion), ("kind", .str o.gvk.kind),
    ("name", .str o.name), ("uid", .str o.uid), ("controller", .bool true),
    ("blockOwnerDeletion", .bool true)]

/-- The entry names this owner's uid. -/
def refersTo (o : OwnerIdentity) (entry : Json) : Bool :=
  (entry.member? "uid").bind Json.asString? == some o.uid

/-- The entries of a member that may be absent or no list, with this owner's entry last. -/
def attached (o : OwnerIdentity) (references : Option Json) : Json :=
  let entries := (references.bind Json.asArray?).getD []
  .arr (entries.filter (!o.refersTo ·) ++ [o.reference])

/-- Attach an owner to a body; metadata that is no object stays as it is. -/
def attachTo (o : OwnerIdentity) (body : Json) : Json :=
  body.updateMember "metadata" fun m =>
    m.insert "ownerReferences" (o.attached (m.get? "ownerReferences"))

end OwnerIdentity

namespace Manifest

/-- The manifest with this owner attached. -/
def ownedBy (m : Manifest) (o : OwnerIdentity) : Manifest := { m with body := o.attachTo m.body }

end Manifest

end DesiredState
