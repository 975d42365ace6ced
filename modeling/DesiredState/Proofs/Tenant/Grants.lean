import DesiredState.Proofs.Json.Places
import DesiredState.Proofs.Tenant.Wanted
import Mathlib.Data.List.TakeWhile

/-!
# What a tenant is granted

The children of a tenant state ten amounts, each at a place of its own (`Share.place`). Each of them
is the amount that the tenant itself asks for, or else the default for this very place (`granted`),
whatever the other nine are. A tenant has children just if the name of its namespace is not blank,
and all that they depend on is this name and the ten amounts (`wanted_provided`).
-/

namespace DesiredState

open Json

/-! ## Names without the blanks around them -/

namespace Text

/-- The second text is the first one without the blanks at its ends. -/
structure Trimmed (s t : String) : Prop where
  ends : ∃ before after, s.toList = before ++ t.toList ++ after ∧
    ∀ c ∈ before ++ after, isBlank c = true
  first : ∀ c, t.toList.head? = some c → isBlank c = false
  last : ∀ c, t.toList.getLast? = some c → isBlank c = false

/-- What is left at the front is no blank. -/
theorem not_blank_of_head? {s : List Char} {c : Char}
    (front : (s.dropWhile isBlank).head? = some c) : isBlank c = false := by
  have := List.head?_dropWhile_not isBlank s
  rwa [front] at this

theorem trimmed_trim (s : String) : Trimmed s (trim s) := by
  have text : (trim s).toList = ((s.toList.dropWhile isBlank).reverse.dropWhile isBlank).reverse :=
    String.toList_ofList
  have left := List.takeWhile_append_dropWhile (p := isBlank) (l := s.toList)
  have right := List.takeWhile_append_dropWhile (p := isBlank)
    (l := (s.toList.dropWhile isBlank).reverse)
  have back := congrArg List.reverse right
  rw [List.reverse_append, List.reverse_reverse, ← text] at back
  refine ⟨⟨s.toList.takeWhile isBlank,
    ((s.toList.dropWhile isBlank).reverse.takeWhile isBlank).reverse, ?_, ?_⟩, ?_, ?_⟩
  · rw [List.append_assoc, back, left]
  · intro c mem
    rw [List.mem_append, List.mem_reverse] at mem
    rcases mem with mem | mem <;> exact List.mem_takeWhile_imp mem
  · intro c front
    refine not_blank_of_head? (s := s.toList) ?_
    rw [← back, List.head?_append, front]
    rfl
  · intro c final
    rw [text, List.getLast?_reverse] at final
    exact not_blank_of_head? final

end Text

namespace Tenant

variable {defaults : Budget} {tenant : Tenant}

/-! ## Amounts and their places -/

inductive Measure where
  | cpu
  | memory

namespace Measure

def name : Measure → String
  | cpu => "cpu"
  | memory => "memory"

/-- The amount of this measure. -/
def of (a : Amounts) : Measure → String
  | cpu => a.cpu
  | memory => a.memory

def asked? (a : AskedAmounts) : Measure → Option String
  | cpu => a.cpu
  | memory => a.memory

end Measure

/-- The shares of a budget. -/
inductive Share where
  | limits
  | requests
  | max
  | quotaRequests
  | quotaLimits

namespace Share

def amounts (b : Budget) : Share → Amounts
  | limits => b.limits
  | requests => b.requests
  | max => b.max
  | quotaRequests => b.quotaRequests
  | quotaLimits => b.quotaLimits

def asked? (r : AskedResources) : Share → Option AskedAmounts
  | limits => r.limits
  | requests => r.requests
  | max => r.max
  | quotaRequests => r.quota.bind AskedQuota.requests
  | quotaLimits => r.quota.bind AskedQuota.limits

/-- Which of the children states the share. -/
def holder : Share → Nat
  | quotaRequests | quotaLimits => 2
  | _ => 1

/-- A member of the only limits that are stated for containers. -/
def ofContainer (name : String) (measure : Measure) : List Branch :=
  [.member "spec", .member "limits", .item 0, .member name, .member measure.name]

def ofQuota (name : String) (measure : Measure) : List Branch :=
  [.member "spec", .member "hard", .member (name ++ "." ++ measure.name)]

/-- Where the child states an amount of the share. -/
def place (measure : Measure) : Share → List Branch
  | limits => ofContainer "default" measure
  | requests => ofContainer "defaultRequest" measure
  | max => ofContainer "max" measure
  | quotaRequests => ofQuota "requests" measure
  | quotaLimits => ofQuota "limits" measure

end Share

/-- The amount that a tenant asks for itself, if there is one with a text, and else the default. -/
def granted (defaults : Budget) (tenant : Tenant) (share : Share) (measure : Measure) : String :=
  match (share.asked? tenant.spec.resources).bind measure.asked? with
  | some own => if own = "" then measure.of (share.amounts defaults) else own
  | none => measure.of (share.amounts defaults)

theorem pick_eq (asked : Option String) (default : String) :
    Amounts.pick asked default = match asked with
      | some own => if own = "" then default else own
      | none => default := by
  cases asked with
  | none => rfl
  | some own =>
    by_cases bare : own = ""
    · simp [Amounts.pick, Option.filter, bare]
    · simp [Amounts.pick, Option.filter, bare]

/-- The budget of a tenant consists of what it is granted. -/
theorem of_resolve (defaults : Budget) (tenant : Tenant) (share : Share) (measure : Measure) :
    measure.of (share.amounts (defaults.resolve tenant.spec.resources)) =
      granted defaults tenant share measure := by
  unfold granted
  rw [← pick_eq]
  cases share <;> cases measure <;> rfl

/-- A text that is empty is no amount. -/
example (metadata : Metadata) (memory : AskedAmounts) :
    granted .standard
      ⟨metadata, ⟨"team-a", ⟨memory, none, none, some ⟨none, some ⟨some "", some "8Gi"⟩⟩⟩⟩, none⟩
      .quotaLimits .cpu = "2000m" := rfl

theorem amounts_ext {a a' : Amounts} (same : ∀ measure : Measure, measure.of a = measure.of a') :
    a = a' := by
  cases a
  cases a'
  rw [Amounts.mk.injEq]
  exact ⟨same .cpu, same .memory⟩

/-- A budget is the sum of its ten amounts. -/
theorem budget_ext {b b' : Budget}
    (same : ∀ (share : Share) (measure : Measure),
      measure.of (share.amounts b) = measure.of (share.amounts b')) : b = b' := by
  have amounts : ∀ share : Share, share.amounts b = share.amounts b' :=
    fun share => amounts_ext (same share)
  cases b
  cases b'
  rw [Budget.mk.injEq]
  exact ⟨amounts .limits, amounts .requests, amounts .max, amounts .quotaRequests,
    amounts .quotaLimits⟩

/-! ## The children -/

section Children

variable {child : Manifest} {ns : String} {budget : Budget}

/-- What is wanted depends on the name of the namespace and on the budget. -/
theorem wanted_congr {defaults' : Budget} {tenant' : Tenant}
    (name : tenant'.namespaceName = tenant.namespaceName)
    (budget : defaults'.resolve tenant'.spec.resources = defaults.resolve tenant.spec.resources) :
    wanted defaults' tenant' = wanted defaults tenant := by
  unfold namespaceName at name
  unfold wanted
  rw [name, budget]

theorem wanted_of_blank (blank : tenant.namespaceName = "") :
    wanted defaults tenant = .error (.generator "spec.namespace must not be empty") := by
  unfold namespaceName at blank
  unfold wanted
  rw [blank]
  rfl

/-- Every child states the key that it has. -/
theorem keyOf_child (named : tenant.namespaceName.isEmpty = false)
    (mem : child ∈ children defaults tenant) : Manifest.keyOf child.body = .ok child.key := by
  have accepted := ofBody_child named mem
  unfold Manifest.ofBody at accepted
  cases key : Manifest.keyOf child.body with
  | error e =>
    rw [key] at accepted
    cases accepted
  | ok k =>
    rw [key] at accepted
    rw [show k = child.key from congrArg Manifest.key (Except.ok.inj accepted)]

theorem nullFree_body {apiVersion kind : String} {metadata more : List (String × Json)}
    (states : ∀ e ∈ metadata, e.2.nullFree = true) (rest : ∀ e ∈ more, e.2.nullFree = true) :
    (Tenant.child apiVersion kind metadata more).nullFree = true := by
  refine nullFree_object fun e mem => ?_
  rcases List.mem_append.1 mem with always | later
  · have each : ∀ e ∈ [("apiVersion", Json.str apiVersion), ("kind", .str kind),
        ("metadata", .object metadata)], e.2.nullFree = true := by
      simp [nullFree, nullFree_object states]
    exact each e always
  · exact rest e later

theorem nullFree_namespaceBody (ns : String) : (namespaceBody ns).nullFree = true :=
  nullFree_body (by simp [nullFree]) (by simp)

theorem nullFree_amounts (a : Amounts) : (amounts a).nullFree = true :=
  nullFree_object (by simp [nullFree])

theorem nullFree_resident (mem : child ∈ residents ns budget) : child.body.nullFree = true := by
  have port : (Json.object [("protocol", .str "UDP"), ("port", .int 53)]).nullFree = true :=
    nullFree_object (by simp [nullFree, Json.int])
  have outward : (Json.object [("ports", .arr [.object [("protocol", .str "UDP"),
      ("port", .int 53)]])]).nullFree = true :=
    nullFree_object (by simp [nullFree, itemsNullFree, port])
  rcases mem_residents.1 mem with rfl | rfl | rfl
  all_goals
    refine nullFree_body (by simp [placed, nullFree]) ?_
    simp [nullFree_object, nullFree_amounts, nullFree, itemsNullFree, fieldsNullFree, emptyObject,
      SortedMap.empty, strings, outward]

theorem nullFree_child (mem : child ∈ children defaults tenant) : child.body.nullFree = true := by
  rcases List.mem_cons.1 mem with rfl | mem
  · exact nullFree_namespaceBody _
  · exact nullFree_resident mem

theorem kinds_children (defaults : Budget) (tenant : Tenant) :
    (children defaults tenant).map (·.key.gvk) =
      [⟨"", "v1", "Namespace"⟩, ⟨"", "v1", "LimitRange"⟩, ⟨"", "v1", "ResourceQuota"⟩,
        ⟨"networking.k8s.io", "v1", "NetworkPolicy"⟩] := rfl

theorem at?_limitRangeBody (ns : String) (budget : Budget) (measure : Measure) {share : Share}
    (held : share.holder = 1) : (limitRangeBody ns budget).at? (share.place measure) =
      some (.str (measure.of (share.amounts budget))) := by
  cases share
  case limits | requests | max =>
    cases measure <;>
      simp [limitRangeBody, Tenant.child, amounts, Share.place, Share.ofContainer, at?,
        child?_object, child?_arr, SortedMap.get?_ofList_cons, SortedMap.get?_ofList_nil,
        Measure.name, Measure.of, Share.amounts]
  case quotaRequests | quotaLimits => cases held

theorem at?_quotaBody (ns : String) (budget : Budget) (measure : Measure) {share : Share}
    (held : share.holder = 2) : (quotaBody ns budget).at? (share.place measure) =
      some (.str (measure.of (share.amounts budget))) := by
  cases share
  case limits | requests | max => cases held
  case quotaRequests | quotaLimits =>
    cases measure <;>
      simp [quotaBody, Tenant.child, Share.place, Share.ofQuota, at?, child?_object, Measure.name,
        Measure.of, Share.amounts, SortedMap.get?_ofList_cons, SortedMap.get?_ofList_nil]

/-- Each of the ten amounts has its place in the child that states it. -/
theorem at?_holder (defaults : Budget) (tenant : Tenant) (share : Share) (measure : Measure) :
    ∃ child, (children defaults tenant)[share.holder]? = some child ∧
      child.body.at? (share.place measure) =
        some (.str (granted defaults tenant share measure)) := by
  rw [← of_resolve]
  cases share
  case limits | requests | max => exact ⟨_, rfl, at?_limitRangeBody _ _ measure rfl⟩
  case quotaRequests | quotaLimits => exact ⟨_, rfl, at?_quotaBody _ _ measure rfl⟩

end Children

/-- The children that a tenant is given under a budget of defaults. -/
structure Given (defaults : Budget) (tenant : Tenant) (given : List Manifest) : Prop where
  kinds : given.map (·.key.gvk) =
    [⟨"", "v1", "Namespace"⟩, ⟨"", "v1", "LimitRange"⟩, ⟨"", "v1", "ResourceQuota"⟩,
      ⟨"networking.k8s.io", "v1", "NetworkPolicy"⟩]
  owned : ∀ m ∈ given, m.key.gvk ∈ ownedKinds.map ServedKind.gvk
  distinct : (given.map Manifest.key).Nodup
  /-- The first one is the namespace itself. -/
  first : ∀ m, given.head? = some m → m.key.ns? = none ∧ m.key.name = tenant.namespaceName
  /-- The others are inside it. -/
  inside : ∀ m ∈ given.tail, m.key.ns? = some tenant.namespaceName
  stated : ∀ m ∈ given, Manifest.keyOf m.body = .ok m.key
  nullFree : ∀ m ∈ given, ∀ place, m.body.at? place ≠ some .null
  /-- Each of the ten amounts has its own place. -/
  amounts : ∀ (share : Share) measure, ∃ m, given[share.holder]? = some m ∧
    m.body.at? (share.place measure) = some (.str (granted defaults tenant share measure))

theorem given_children (named : tenant.namespaceName.isEmpty = false) :
    Given defaults tenant (children defaults tenant) where
  kinds := kinds_children defaults tenant
  owned m mem := by
    have kind := List.mem_map_of_mem (f := (·.key.gvk)) mem
    rwa [kinds_children] at kind
  distinct := distinct_children
  first m eq := by
    obtain rfl := Option.some.inj eq
    exact ⟨rfl, rfl⟩
  inside m mem := place_of_resident named mem
  stated m mem := keyOf_child named mem
  nullFree m mem := at?_ne_null (nullFree_child mem)
  amounts := at?_holder defaults tenant

/-- What the children of a tenant depend on. -/
structure Provided (defaults : Budget) (tenant : Tenant) : Prop where
  trimmed : Text.Trimmed tenant.spec.namespaceName tenant.namespaceName
  refused : tenant.namespaceName = "" →
    ∃ detail, wanted defaults tenant = .error (.generator detail)
  given : tenant.namespaceName ≠ "" →
    ∃ given, wanted defaults tenant = .ok given ∧ Given defaults tenant given
  /-- Whoever is granted the same in a namespace of the same name has the same children. -/
  settled : ∀ defaults' (tenant' : Tenant), tenant'.namespaceName = tenant.namespaceName →
    (∀ share measure, granted defaults' tenant' share measure =
      granted defaults tenant share measure) →
    wanted defaults' tenant' = wanted defaults tenant

theorem wanted_provided (defaults : Budget) (tenant : Tenant) : Provided defaults tenant where
  trimmed := Text.trimmed_trim tenant.spec.namespaceName
  refused blank := ⟨_, wanted_of_blank blank⟩
  given named := by
    have named := String.isEmpty_eq_false_iff.2 named
    exact ⟨_, wanted_eq named, given_children named⟩
  settled defaults' tenant' name same := by
    refine wanted_congr name (budget_ext fun share measure => ?_)
    rw [of_resolve, of_resolve]
    exact same share measure

end Tenant

end DesiredState
