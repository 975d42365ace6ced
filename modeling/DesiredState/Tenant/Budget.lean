import DesiredState.Tenant.Basic

/-!
# Budgets

A budget has all ten amounts that the children of a tenant state. The budget of a tenant takes
each amount from what the tenant asks for, and from a budget of defaults where the tenant asks
for nothing or writes an empty text.
-/

namespace DesiredState

/-- Amounts of cpu and memory. -/
structure Amounts where
  cpu : String
  memory : String
  deriving DecidableEq

structure Budget where
  limits : Amounts
  requests : Amounts
  max : Amounts
  quotaRequests : Amounts
  quotaLimits : Amounts
  deriving DecidableEq

namespace Amounts

/-- An amount that is asked for, or else the default. -/
def pick (asked : Option String) (default : String) : String :=
  (asked.filter (!·.isEmpty)).getD default

/-- Each amount that is asked for, or else its default. -/
def resolve (defaults : Amounts) (asked : Option AskedAmounts) : Amounts where
  cpu := pick (asked.bind AskedAmounts.cpu) defaults.cpu
  memory := pick (asked.bind AskedAmounts.memory) defaults.memory

end Amounts

namespace Budget

/-- The defaults that are built in. -/
def standard : Budget where
  limits := ⟨"250m", "64Mi"⟩
  requests := ⟨"250m", "64Mi"⟩
  max := ⟨"500m", "256Mi"⟩
  quotaRequests := ⟨"2000m", "4Gi"⟩
  quotaLimits := ⟨"2000m", "4Gi"⟩

/-- The budget of a tenant. -/
def resolve (defaults : Budget) (asked : AskedResources) : Budget where
  limits := defaults.limits.resolve asked.limits
  requests := defaults.requests.resolve asked.requests
  max := defaults.max.resolve asked.max
  quotaRequests := defaults.quotaRequests.resolve (asked.quota.bind AskedQuota.requests)
  quotaLimits := defaults.quotaLimits.resolve (asked.quota.bind AskedQuota.limits)

/-- A budget is written as ten members. -/
def decode : Decoder Budget := fun j => do
  let o ← Decoder.record "default amounts"
    ["limitsCpu", "limitsMemory", "requestsCpu", "requestsMemory", "maxCpu", "maxMemory",
      "quotaRequestsCpu", "quotaRequestsMemory", "quotaLimitsCpu", "quotaLimitsMemory"] j
  let amounts := fun (name : String) => do
    return Amounts.mk (← o.required (name ++ "Cpu") Decoder.string)
      (← o.required (name ++ "Memory") Decoder.string)
  return {
    limits := ← amounts "limits"
    requests := ← amounts "requests"
    max := ← amounts "max"
    quotaRequests := ← amounts "quotaRequests"
    quotaLimits := ← amounts "quotaLimits" }

end Budget

end DesiredState
