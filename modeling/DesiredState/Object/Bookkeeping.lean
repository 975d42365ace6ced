import DesiredState.Json.Basic

/-!
# Fields that belong to the server

Before a wanted object is compared with a live one, both lose what the server keeps for itself,
and what it fills in itself in objects of some kinds.
-/

namespace DesiredState.Bookkeeping

/-- The members of `metadata` that the server sets. -/
def metadataNames : List String :=
  ["managedFields", "resourceVersion", "generation", "creationTimestamp"]

/-- Take several members out of an object. -/
def eraseAll (names : List String) (j : Json) : Json :=
  names.foldl (fun j name => j.eraseMember name) j

/-- The members that the server fills into a volume claim template. -/
def claimTemplateNames : List String := ["apiVersion", "kind", "status"]

/-- Change the items of a list. -/
def mapItems (f : Json → Json) : Json → Json
  | .arr items => .arr (items.map f)
  | j => j

/-- Leave out what the server fills in itself in objects of a kind. -/
def stripKind (kind : String) (j : Json) : Json :=
  if kind = "StatefulSet" then
    j.mapMember "spec" fun spec =>
      spec.mapMember "volumeClaimTemplates" (mapItems (eraseAll claimTemplateNames))
  else if kind = "PodDisruptionBudget" then j.mapMember "spec" (·.eraseMember "selector")
  else j

/-- The object without its bookkeeping. -/
def strip (kind : String) (j : Json) : Json :=
  stripKind kind ((j.mapMember "metadata" (eraseAll metadataNames)).eraseMember "status")

end DesiredState.Bookkeeping
