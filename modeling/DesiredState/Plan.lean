import DesiredState.Json.Difference
import DesiredState.Json.Overlay
import DesiredState.Object.Bookkeeping
import DesiredState.Object.Manifest

/-!
# Plans for wanted objects

What a wanted object asks for depends on the live one. Without a live object it is made; an
object of an immutable kind is left alone; otherwise the wanted body is laid over the live one,
and a patch is due if the two then differ apart from what the server keeps for itself.
-/

namespace DesiredState

inductive Plan where
  /-- Make the object. -/
  | create (body : Json)
  /-- The object is there and of an immutable kind. -/
  | leave
  /-- The object is as wanted. -/
  | keep
  /-- Patch the object, which differs from the wanted one. -/
  | patch (document : Json) (difference : Difference)

namespace Plan

/-- The live object states a namespace. -/
def namespaced (live : Json) : Bool :=
  ((live.stringAt? ["metadata", "namespace"]).filter (!·.isEmpty)).isSome

/-- The wanted body, without a namespace if the live object has none. -/
def fitted (body live : Json) : Json :=
  if namespaced live then body else body.mapMember "metadata" (·.eraseMember "namespace")

/-- What changes in an object, apart from bookkeeping. -/
def change (kind : String) (before after : Json) : Difference :=
  (Bookkeeping.strip kind after).difference (Bookkeeping.strip kind before)

/-- What has to change in the live object, apart from bookkeeping. -/
def drift (kind : String) (body live : Json) : Difference :=
  (Bookkeeping.strip kind (live.overlay body)).difference (Bookkeeping.strip kind live)

/-- The wanted body as a patch: it leaves the status out and states the live version. -/
def document (body live : Json) : Json :=
  let document := body.eraseMember "status"
  match live.path? ["metadata", "resourceVersion"] with
  | some version => document.mapMember "metadata" (·.setMember "resourceVersion" version)
  | none => document

/-- Draw up what a wanted object asks for. -/
def draw (immutable : List String) (wanted : Manifest) : (live : Option Json) → Tracked Plan
  | none => return .create wanted.body
  | some live =>
    if immutable.contains wanted.kind then return .leave
    else do
      let body := fitted wanted.body live
      let difference := change wanted.kind live (← live.lay body)
      return if difference.isEmpty then .keep else .patch (document body live) difference

/-- What a wanted object asks for. -/
def of (immutable : List String) (wanted : Manifest) (live : Option Json) : Plan :=
  (draw immutable wanted live).value

end Plan

end DesiredState
