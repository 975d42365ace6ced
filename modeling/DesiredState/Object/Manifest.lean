import DesiredState.Error

/-!
# Manifests

A manifest describes a wanted object in full. Its identity is read once, from `apiVersion`,
`kind`, `metadata.name` and `metadata.namespace`, and later changes of the body leave it alone.
-/

namespace DesiredState

/-- A wanted object: its identity and its full description. -/
structure Manifest where
  key : ObjectKey
  body : Json

namespace Manifest

/-- The identity that an object states about itself. The first of its faults is reported. -/
def keyOf (body : Json) : Result ObjectKey :=
  if !body.isObject then .error (.validation .manifestNotObject)
  else
    match body.stringAt? ["apiVersion"] with
    | none => .error (.validation .manifestWithoutApiVersion)
    | some apiVersion =>
      match body.stringAt? ["kind"] with
      | none => .error (.validation .manifestWithoutKind)
      | some kind =>
        match (body.stringAt? ["metadata", "name"]).filter (!·.isEmpty) with
        | none => .error (.validation .manifestWithoutName)
        | some name =>
          .ok (.of (.ofApiVersion apiVersion kind) (body.stringAt? ["metadata", "namespace"]) name)

def ofBody (body : Json) : Result Manifest := (keyOf body).map (⟨·, body⟩)

/-- All manifests, or the first failure. -/
def ofBodies : List Json → Result (List Manifest)
  | [] => .ok []
  | body :: rest => do
    let m ← ofBody body
    return m :: (← ofBodies rest)

def kind (m : Manifest) : String := m.key.kind

end Manifest

end DesiredState
