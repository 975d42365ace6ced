import DesiredState.Owner

/-!
# Tenants

A tenant asks for a namespace and may set amounts of cpu and memory for it. Each amount can be
left out on its own.
-/

namespace DesiredState

/-- Amounts of cpu and memory that may be left out. -/
structure AskedAmounts where
  cpu : Option String
  memory : Option String
  deriving DecidableEq

/-- Totals over the namespace. -/
structure AskedQuota where
  requests : Option AskedAmounts
  limits : Option AskedAmounts
  deriving DecidableEq

/-- What a tenant asks for. -/
structure AskedResources where
  /-- The default limits of containers. -/
  limits : Option AskedAmounts
  /-- The default requests of containers. -/
  requests : Option AskedAmounts
  /-- The most that a container may use. -/
  max : Option AskedAmounts
  quota : Option AskedQuota
  deriving DecidableEq

structure TenantSpec where
  /-- The name of the namespace. -/
  namespaceName : String
  resources : AskedResources
  deriving DecidableEq

structure Tenant where
  metadata : Metadata
  spec : TenantSpec
  status? : Option OwnerStatus

/-! ## Reading -/

def AskedAmounts.decode : Decoder AskedAmounts := fun j => do
  let o ← Decoder.record "amounts of cpu and memory" ["cpu", "memory"] j
  return {
    cpu := ← o.optional "cpu" Decoder.string
    memory := ← o.optional "memory" Decoder.string }

def AskedQuota.decode : Decoder AskedQuota := fun j => do
  let o ← Decoder.record "a quota" ["requests", "limits"] j
  return {
    requests := ← o.optional "requests" AskedAmounts.decode
    limits := ← o.optional "limits" AskedAmounts.decode }

namespace AskedResources

def none : AskedResources := ⟨.none, .none, .none, .none⟩

def decode : Decoder AskedResources := fun j => do
  let o ← Decoder.record "the resources of a tenant" ["limits", "requests", "max", "quota"] j
  return {
    limits := ← o.optional "limits" AskedAmounts.decode
    requests := ← o.optional "requests" AskedAmounts.decode
    max := ← o.optional "max" AskedAmounts.decode
    quota := ← o.optional "quota" AskedQuota.decode }

end AskedResources

def TenantSpec.decode : Decoder TenantSpec := fun j => do
  let o ← Decoder.record "the specification of a tenant" ["namespace", "resources"] j
  return {
    namespaceName := ← o.required "namespace" Decoder.string
    resources := ← o.withDefault "resources" AskedResources.decode .none }

def Tenant.decode : Decoder Tenant := fun j => do
  let o ← Decoder.object "a tenant" j
  return {
    metadata := ← o.required "metadata" Metadata.decode
    spec := ← o.required "spec" TenantSpec.decode
    status? := ← o.optional "status" OwnerStatus.decode }

/-! ## Writing -/

def AskedAmounts.encode (a : AskedAmounts) : Json :=
  .objectOfSome [("cpu", a.cpu.map .str), ("memory", a.memory.map .str)]

def AskedQuota.encode (q : AskedQuota) : Json :=
  .objectOfSome [("requests", q.requests.map AskedAmounts.encode),
    ("limits", q.limits.map AskedAmounts.encode)]

def AskedResources.encode (r : AskedResources) : Json :=
  .objectOfSome [("limits", r.limits.map AskedAmounts.encode),
    ("requests", r.requests.map AskedAmounts.encode), ("max", r.max.map AskedAmounts.encode),
    ("quota", r.quota.map AskedQuota.encode)]

def TenantSpec.encode (s : TenantSpec) : Json :=
  .object [("namespace", .str s.namespaceName), ("resources", s.resources.encode)]

/-! ## Tenants as owners -/

namespace Tenant

def gvk : GroupVersionKind := ⟨"tenancy.converge.dev", "v1alpha1", "TenantNamespace"⟩

instance : Owner Tenant where
  gvk := gvk
  decode := decode
  metadata := metadata
  status? := status?

end Tenant

end DesiredState
