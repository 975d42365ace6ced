import DesiredState.Object.ServedKind
import DesiredState.Reconcile.Engine
import DesiredState.Tenant.Budget
import DesiredState.Text.Blank

/-!
# Children of a tenant

A tenant wants its namespace, and in it limits for containers, a quota, and a policy that lets
nothing in and only name look-ups out.
-/

namespace DesiredState.Tenant

/-- The object of a child. -/
def child (apiVersion kind : String) (metadata : List (String × Json))
    (more : List (String × Json)) : Json :=
  .object ([("apiVersion", .str apiVersion), ("kind", .str kind),
    ("metadata", .object metadata)] ++ more)

/-- The metadata of a child in a namespace. -/
def placed (name ns : String) : List (String × Json) :=
  [("name", .str name), ("namespace", .str ns)]

def amounts (a : Amounts) : Json := .object [("cpu", .str a.cpu), ("memory", .str a.memory)]

def namespaceBody (ns : String) : Json := child "v1" "Namespace" [("name", .str ns)] []

def limitRangeBody (ns : String) (b : Budget) : Json :=
  child "v1" "LimitRange" (placed "tenant-limit-range" ns)
    [("spec", .object [("limits", .arr [.object
      [("type", .str "Container"), ("default", amounts b.limits),
        ("defaultRequest", amounts b.requests), ("max", amounts b.max)]])])]

def quotaBody (ns : String) (b : Budget) : Json :=
  child "v1" "ResourceQuota" (placed "tenant-resource-quota" ns)
    [("spec", .object [("hard", .object
      [("requests.cpu", .str b.quotaRequests.cpu),
        ("requests.memory", .str b.quotaRequests.memory),
        ("limits.cpu", .str b.quotaLimits.cpu),
        ("limits.memory", .str b.quotaLimits.memory)])])]

/-- Nothing comes in, and only the port of name look-ups is open to the outside. -/
def networkPolicyBody (ns : String) : Json :=
  child "networking.k8s.io/v1" "NetworkPolicy" (placed "tenant-network-policy" ns)
    [("spec", .object
      [("podSelector", .emptyObject), ("policyTypes", .strings ["Ingress", "Egress"]),
        ("egress", .arr [.object [("ports", .arr [.object
          [("protocol", .str "UDP"), ("port", .int 53)]])]])])]

/-- The children that a tenant wants. The name of the namespace must not be blank. -/
def wanted (defaults : Budget) (tenant : Tenant) : Result (List Manifest) :=
  let ns := Text.trim tenant.spec.namespaceName
  if ns.isEmpty then .error (.generator "spec.namespace must not be empty")
  else
    let budget := defaults.resolve tenant.spec.resources
    Manifest.ofBodies
      [namespaceBody ns, limitRangeBody ns budget, quotaBody ns budget, networkPolicyBody ns]

/-- The kinds of the children. -/
def ownedKinds : List ServedKind :=
  [⟨⟨"", "v1", "Namespace"⟩, "namespaces"⟩,
    ⟨⟨"", "v1", "LimitRange"⟩, "limitranges"⟩,
    ⟨⟨"", "v1", "ResourceQuota"⟩, "resourcequotas"⟩,
    ⟨⟨"networking.k8s.io", "v1", "NetworkPolicy"⟩, "networkpolicies"⟩]

/-! ## Hooks -/

variable {m : Type → Type} [Monad m] [Absorbs m]

/-- Children in a namespace may have to wait until it is ready. -/
def hooks (defaults : Budget) (waitForNamespace : Bool) (store : Store m) (rules : Rulebook) :
    Hooks m Tenant :=
  let base := Hooks.ofGenerator (wanted defaults)
  if waitForNamespace then
    { base with mayApply := fun _ child => rules.namespaceReady store child.key }
  else base

end DesiredState.Tenant
