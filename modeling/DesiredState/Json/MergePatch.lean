import DesiredState.Json.Basic

/-!
# Merge patches

A patch that is an object changes the members it names: null takes a member out, and any other
value is a patch of that member. A patch that is no object takes the place of its target
(RFC 7386).
-/

namespace DesiredState.Json

mutual

/-- The target after a patch. -/
def patched (target : Json) : Json → Json
  | obj patch => obj (patchedFields (target.asObject?.getD SortedMap.empty) patch)
  | patch => patch

def patchedFields (target : Object) : {b : Option String} → Entries String Json b → Object
  | _, .nil => target
  | _, .cons k _ p rest =>
    let changed :=
      if p.isNull then target.erase k
      else SortedMap.insert target k (patched ((target.get? k).getD null) p)
    patchedFields changed rest

end

end DesiredState.Json
