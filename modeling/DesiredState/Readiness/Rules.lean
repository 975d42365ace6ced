import DesiredState.Error
import DesiredState.Number.Tracked
import DesiredState.Readiness.Shapes

/-!
# Rules of readiness

A rule tells from a live object alone whether it is ready. The object has to have the shape of its
kind; some objects will never be ready, and that is an error. A step that no check guards may leave
its word.
-/

namespace DesiredState

/-- Tells whether a live object is ready. The names are of data that it has to hold, for kinds
that hold data. -/
abbrev Rule : Type := (live : Json) → (expected : List String) → Tracked (Result Bool)

namespace Json

/-- The integer of so many bits at a path. -/
def intAt? (j : Json) (bits : Nat) (path : List String) : Option Int :=
  ((j.path? path).bind asNumber?).bind (·.toSigned? bits)

/-- There is an object at a path. -/
def hasObjectAt (j : Json) (path : List String) : Bool := (j.path? path).any isObject

/-- The items at a path, if there are any. -/
def itemsAt (j : Json) (path : List String) : List Json :=
  ((j.path? path).bind asArray?).getD []

end Json

namespace Rule

/-- A rule for objects of one shape. -/
def shaped (shape : Shape) (rule : Rule) : Rule := fun live expected =>
  if shape.admits live then rule live expected
  else return .error (.serialization (.other "the object does not have the shape of its kind"))

/-- The status is of the present generation of the object. -/
def observed (live : Json) : Bool :=
  live.hasObjectAt ["status"] &&
    decide (live.intAt? 64 ["metadata", "generation"] =
      live.intAt? 64 ["status", "observedGeneration"])

/-- A number in the status, zero if it is absent. -/
def counter (live : Json) (name : String) : Int := (live.intAt? 32 ["status", name]).getD 0

/-! ## Workloads -/

/-- A namespace is ready once it is active. -/
def «namespace» : Rule := shaped .namespace fun live _ =>
  return .ok (live.stringAt? ["status", "phase"] == some "Active")

/-- A deployment is ready when just the wanted number of replicas is; one is wanted by default. -/
def deployment : Rule := shaped .deployment fun live _ =>
  return .ok (observed live &&
    decide (counter live "readyReplicas" = (live.intAt? 32 ["spec", "replicas"]).getD 1))

/-- How many replicas have to be updated: those below the partition keep the old revision. The
difference is taken in 32 bits, without a check. -/
def replicasToUpdate (replicas : Int) (partition : Option Int) : Tracked Int := do
  let difference ← Word.unchecked 32 (replicas - max (partition.getD 0) 0)
  return max difference 0

/-- A stateful set is ready when enough replicas are updated, all are ready and none is left
over. -/
def statefulSet : Rule := shaped .statefulSet fun live _ =>
  match observed live, live.intAt? 32 ["spec", "replicas"] with
  | true, some replicas => do
    let partition := live.intAt? 32 ["spec", "updateStrategy", "rollingUpdate", "partition"]
    let due ← replicasToUpdate replicas partition
    return .ok (decide (due ≤ counter live "updatedReplicas") &&
      decide (replicas ≤ counter live "readyReplicas") &&
      decide (counter live "replicas" ≤ replicas))
  | _, _ => return .ok false

/-- A daemon set is ready when all scheduled pods are, and there is one at least. -/
def daemonSet : Rule := shaped .daemonSet fun live _ =>
  return .ok (live.hasObjectAt ["status"] &&
    decide (counter live "desiredNumberScheduled" = counter live "numberReady") &&
    decide (0 < counter live "numberReady") && decide (counter live "numberUnavailable" < 1))

/-- The condition says that the job failed. -/
def saysFailed (condition : Json) : Bool :=
  condition.stringAt? ["type"] == some "Failed" && condition.stringAt? ["status"] == some "True"

/-- A job is ready when it is complete. One that failed or did not succeed exactly once never
will be. -/
def job : Rule := shaped .job fun live _ =>
  let name := (live.stringAt? ["metadata", "name"]).getD ""
  if (live.itemsAt ["status", "conditions"]).any saysFailed then
    return .error (.readiness ("job " ++ name ++ " failed"))
  else if 0 < counter live "active" || (live.stringAt? ["status", "completionTime"]).isNone then
    return .ok false
  else if counter live "succeeded" ≠ 1 then
    return .error (.readiness ("job " ++ name ++ " was not successful"))
  else return .ok true

/-! ## Network and data -/

/-- A service is ready when it has an address, and one that balances load also a way in. A name
outside the cluster needs neither. -/
def service : Rule := shaped .service fun live _ =>
  let type := (live.stringAt? ["spec", "type"]).getD "ClusterIP"
  if type = "ExternalName" then return .ok true
  else if ((live.stringAt? ["spec", "clusterIP"]).getD "").isEmpty then return .ok false
  else if type = "LoadBalancer" then
    return .ok (!(live.itemsAt ["status", "loadBalancer", "ingress"]).isEmpty)
  else return .ok true

/-- Every expected name has a string under it that is not empty. -/
def holds (live : Json) (expected : List String) : Bool :=
  expected.all fun name => ((live.stringAt? ["data", name]).getD "") ≠ ""

/-- A secret is ready when all expected data are there. Bytes are written as nothing only if there
are none. -/
def secret : Rule := shaped .secret fun live expected => return .ok (holds live expected)

/-- A map of settings is ready when all expected data are there. -/
def configMap : Rule := shaped .configMap fun live expected => return .ok (holds live expected)

/-- To be there is enough. -/
def existence : Rule := fun _ _ => return .ok true

end Rule

end DesiredState
