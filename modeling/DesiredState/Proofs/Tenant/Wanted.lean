import DesiredState.Proofs.Applying.Made
import DesiredState.Proofs.Reconcile.Passes
import DesiredState.Tenant.Children

/-!
# What a tenant wants

A tenant whose namespace has a name wants four children (`wanted_eq`): the namespace and three
objects in it, of kinds of their own and with plain bodies.
-/

namespace DesiredState

open Json Bookkeeping

/-! ## Sets of distinct manifests -/

/-- Bodies that are accepted as what they are. -/
theorem Manifest.ofBodies_eq_ok {l : List Manifest}
    (accepted : ∀ m ∈ l, ofBody m.body = .ok m) : ofBodies (l.map Manifest.body) = .ok l := by
  induction l with
  | nil => rfl
  | cons first rest ih =>
    rw [List.map_cons, ofBodies, accepted first List.mem_cons_self,
      ih fun m mem => accepted m (List.mem_cons_of_mem first mem)]
    rfl

namespace ResourceSet

/-- A manifest with a new key comes last. -/
theorem place_of_new {m : Manifest} {l : List Manifest} (new : m.key ∉ l.map Manifest.key) :
    place m l = l ++ [m] := by
  induction l with
  | nil => rfl
  | cons x rest ih =>
    rw [List.map_cons, List.mem_cons, not_or] at new
    rw [place, if_neg (Ne.symm new.1), ih new.2, List.cons_append]

theorem manifests_extend (set : ResourceSet) {l : List Manifest}
    (distinct : ((set.manifests ++ l).map Manifest.key).Nodup) :
    (set.extend l).manifests = set.manifests ++ l := by
  induction l generalizing set with
  | nil => exact (List.append_nil _).symm
  | cons m rest ih =>
    have new : m.key ∉ set.manifests.map Manifest.key := by
      intro mem
      rw [List.map_append, List.nodup_append] at distinct
      exact distinct.2.2 _ mem _ List.mem_cons_self rfl
    have placed : (set.insert m).manifests = set.manifests ++ [m] := place_of_new new
    have last := ih (set.insert m) (by rwa [placed, List.append_assoc])
    rw [placed, List.append_assoc] at last
    exact last

/-- A set of manifests with distinct keys holds them in their order. -/
theorem manifests_ofList {l : List Manifest} (distinct : (l.map Manifest.key).Nodup) :
    (ofList l).manifests = l := manifests_extend empty distinct

end ResourceSet

namespace Reconciler

variable {ω : Type} [Owner ω] {e : Engine (StateM MemoryStore) ω}

/-- A hook that keeps what is wanted puts all of it into the set, and does not touch the store. -/
theorem run_resources_keep
    (keep : ∀ owner wanted, e.hooks.mutate owner wanted = pure (.keep wanted)) {owner : ω}
    {l : List Manifest} (generated : e.hooks.generate owner = .ok l) (s : MemoryStore) :
    ((standard e).resources owner).run.run s = (.ok (.ofList l), s) := by
  have gathers : ∀ (l : List Manifest) (set : ResourceSet),
      ((standard e).gather owner l set).run.run s = (.ok (set.extend l), s) := by
    intro l
    induction l with
    | nil => exact fun _ => rfl
    | cons wanted rest ih =>
      intro set
      rw [run_gather_cons, show (standard e).engine = e from rfl, keep]
      exact ih (set.insert wanted)
  unfold Reconciler.resources
  rw [show (standard e).engine.hooks = e.hooks from rfl, generated]
  exact gathers l .empty

end Reconciler

/-! ## The children -/

namespace Tenant

variable {defaults : Budget} {tenant : Tenant} {ns : String} {budget : Budget} {child : Manifest}

/-- The name of the namespace that a tenant asks for. -/
def namespaceName (tenant : Tenant) : String := Text.trim tenant.spec.namespaceName

def namespaceManifest (ns : String) : Manifest := ⟨Rulebook.namespaceKey ns, namespaceBody ns⟩

/-- The children inside the namespace. -/
def residents (ns : String) (budget : Budget) : List Manifest :=
  [⟨.of ⟨"", "v1", "LimitRange"⟩ (some ns) "tenant-limit-range", limitRangeBody ns budget⟩,
    ⟨.of ⟨"", "v1", "ResourceQuota"⟩ (some ns) "tenant-resource-quota", quotaBody ns budget⟩,
    ⟨.of ⟨"networking.k8s.io", "v1", "NetworkPolicy"⟩ (some ns) "tenant-network-policy",
      networkPolicyBody ns⟩]

/-- The children that a tenant wants, if its namespace has a name. -/
def children (defaults : Budget) (tenant : Tenant) : List Manifest :=
  namespaceManifest tenant.namespaceName ::
    residents tenant.namespaceName (defaults.resolve tenant.spec.resources)

theorem namespaceManifest_mem (defaults : Budget) (tenant : Tenant) :
    namespaceManifest tenant.namespaceName ∈ children defaults tenant := List.mem_cons_self

theorem mem_residents : child ∈ residents ns budget ↔
    child = ⟨.of ⟨"", "v1", "LimitRange"⟩ (some ns) "tenant-limit-range",
        limitRangeBody ns budget⟩ ∨
      child = ⟨.of ⟨"", "v1", "ResourceQuota"⟩ (some ns) "tenant-resource-quota",
        quotaBody ns budget⟩ ∨
      child = ⟨.of ⟨"networking.k8s.io", "v1", "NetworkPolicy"⟩ (some ns) "tenant-network-policy",
        networkPolicyBody ns⟩ := by
  simp only [residents, List.mem_cons, List.not_mem_nil, or_false]

/-! ### Bodies -/

section Bodies

variable {apiVersion kind name : String} {metadata more : List (String × Json)}

/-- What else a body states takes the place of the members that every body has. -/
theorem member?_body (k : String) :
    (Tenant.child apiVersion kind metadata more).member? k = ((SortedMap.ofList more).get? k).or
      (if k = "metadata" then some (.object metadata)
        else if k = "kind" then some (.str kind)
        else if k = "apiVersion" then some (.str apiVersion) else none) := by
  have always : (SortedMap.ofList [("apiVersion", Json.str apiVersion), ("kind", .str kind),
      ("metadata", .object metadata)]).get? k =
        if k = "metadata" then some (.object metadata) else if k = "kind" then some (.str kind)
        else if k = "apiVersion" then some (.str apiVersion) else none := by
    rw [SortedMap.ofList, List.foldl_cons, List.foldl_cons, List.foldl_cons, List.foldl_nil,
      SortedMap.get?_insert, SortedMap.get?_insert, SortedMap.get?_insert, SortedMap.get?_empty]
  rw [Tenant.child, Json.object, member?_obj, SortedMap.get?_ofList_append, always]

variable (free : ∀ k ∈ ["apiVersion", "kind", "metadata"], (SortedMap.ofList more).get? k = none)

include free

theorem metadata_body : (Tenant.child apiVersion kind metadata more).member? "metadata" =
    some (.object metadata) := by
  rw [member?_body, free "metadata" (by decide)]
  rfl

/-- A body with a name is accepted as what it states. -/
theorem ofBody_body (named : (Json.object metadata).stringAt? ["name"] = some name)
    (letters : name.isEmpty = false) :
    Manifest.ofBody (Tenant.child apiVersion kind metadata more) =
      .ok ⟨.of (.ofApiVersion apiVersion kind)
          ((Json.object metadata).stringAt? ["namespace"]) name,
        Tenant.child apiVersion kind metadata more⟩ := by
  have object : (Tenant.child apiVersion kind metadata more).isObject = true := rfl
  have version : (Tenant.child apiVersion kind metadata more).stringAt? ["apiVersion"] =
      some apiVersion := by
    rw [stringAt?, path?_cons, member?_body, free "apiVersion" (by decide)]
    rfl
  have kinded : (Tenant.child apiVersion kind metadata more).stringAt? ["kind"] = some kind := by
    rw [stringAt?, path?_cons, member?_body, free "kind" (by decide)]
    rfl
  have below : ∀ path,
      (Tenant.child apiVersion kind metadata more).stringAt? ("metadata" :: path) =
        (Json.object metadata).stringAt? path := by
    intro path
    rw [stringAt?, path?_cons, metadata_body free]
    rfl
  have kept : (some name).filter (!·.isEmpty) = some name := by simp [letters]
  unfold Manifest.ofBody Manifest.keyOf
  rw [object, version, kinded, below, below, named, kept]
  rfl

/-- A body without nulls that states no uid has nothing in it that the store keeps. -/
theorem plain_body (states : (Json.object metadata).withoutNulls = true)
    (rest : (Json.object more).withoutNulls = true)
    (uid : (SortedMap.ofList metadata).get? "uid" = none) :
    Plain (Tenant.child apiVersion kind metadata more) := by
  have there : (Tenant.child apiVersion kind metadata more).member? "metadata" =
      some (.object metadata) := metadata_body free
  have fields : (Tenant.child apiVersion kind metadata more).metadataFields =
      SortedMap.ofList metadata := by
    rw [metadataFields, there]
    rfl
  refine ⟨by rw [hasMetadata, there]; rfl, fun k w ne _ found => ?_, fun k w _ found => ?_,
    fields ▸ uid⟩
  · rw [member?_body, Option.or_eq_some_iff, if_neg ne] at found
    rcases found with later | ⟨-, always⟩
    · exact withoutNulls_obj_iff.1 rest k w later
    · split at always
      · obtain rfl := Option.some.inj always
        exact ⟨rfl, rfl⟩
      · split at always
        · obtain rfl := Option.some.inj always
          exact ⟨rfl, rfl⟩
        · cases always
  · rw [fields] at found
    exact withoutNulls_obj_iff.1 states k w found

end Bodies

theorem free_spec (spec : Json) : ∀ k ∈ ["apiVersion", "kind", "metadata"],
    (SortedMap.ofList [("spec", spec)]).get? k = none := by
  simp [SortedMap.get?_ofList_cons, SortedMap.get?_ofList_nil]

theorem ofBody_namespaceBody (named : ns.isEmpty = false) :
    Manifest.ofBody (namespaceBody ns) = .ok (namespaceManifest ns) := by
  have stated : (Json.object [("name", .str ns)]).stringAt? ["name"] = some ns := rfl
  have placeless : (Json.object [("name", .str ns)]).stringAt? ["namespace"] = none := by rfl
  rw [namespaceBody, ofBody_body (fun _ _ => rfl) stated named, placeless]
  rfl

theorem ofBody_resident (mem : child ∈ residents ns budget) :
    Manifest.ofBody child.body = .ok child := by
  have placing : ∀ name, (Json.object (placed name ns)).stringAt? ["name"] = some name ∧
      (Json.object (placed name ns)).stringAt? ["namespace"] = some ns := by
    intro name
    simp [placed, stringAt?, path?, member?_object, SortedMap.get?_ofList_cons,
      SortedMap.get?_ofList_nil, asString?]
  have accepted : ∀ (apiVersion kind name : String) (spec : Json), name.isEmpty = false →
      Manifest.ofBody (Tenant.child apiVersion kind (placed name ns) [("spec", spec)]) =
        .ok ⟨.of (.ofApiVersion apiVersion kind) (some ns) name,
          Tenant.child apiVersion kind (placed name ns) [("spec", spec)]⟩ := by
    intro apiVersion kind name spec letters
    rw [ofBody_body (free_spec spec) (placing name).1 letters, (placing name).2]
  rcases mem_residents.1 mem with rfl | rfl | rfl <;> exact accepted _ _ _ _ (by decide)

/-- Every child is accepted as what it is. -/
theorem ofBody_child (named : tenant.namespaceName.isEmpty = false)
    (mem : child ∈ children defaults tenant) : Manifest.ofBody child.body = .ok child := by
  rcases List.mem_cons.1 mem with rfl | mem
  · exact ofBody_namespaceBody named
  · exact ofBody_resident mem

theorem plain_namespaceBody (ns : String) : Plain (namespaceBody ns) :=
  plain_body (fun _ _ => rfl) (withoutNulls_object (by simp [isNull, withoutNulls]))
    (withoutNulls_object (by simp)) rfl

theorem plain_resident (mem : child ∈ residents ns budget) : Plain child.body := by
  have placing : ∀ name, (Json.object (placed name ns)).withoutNulls = true ∧
      (SortedMap.ofList (placed name ns)).get? "uid" = none := by
    intro name
    refine ⟨withoutNulls_object (by simp [placed, isNull, withoutNulls]), ?_⟩
    simp [placed, SortedMap.get?_ofList_cons, SortedMap.get?_ofList_nil]
  have plain : ∀ (apiVersion kind name : String) {members : List (String × Json)},
      (∀ e ∈ members, e.2.isNull = false ∧ e.2.withoutNulls = true) →
        Plain (Tenant.child apiVersion kind (placed name ns) [("spec", .object members)]) := by
    intro apiVersion kind name members present
    refine plain_body (free_spec _) (placing name).1 (withoutNulls_object fun e spec => ?_)
      (placing name).2
    obtain rfl := List.mem_singleton.1 spec
    exact ⟨rfl, withoutNulls_object present⟩
  rcases mem_residents.1 mem with rfl | rfl | rfl
  · exact plain _ _ _ (by simp [isNull, withoutNulls])
  · refine plain _ _ _ fun e hard => ?_
    obtain rfl := List.mem_singleton.1 hard
    exact ⟨rfl, withoutNulls_object (by simp [isNull, withoutNulls])⟩
  · exact plain _ _ _ (by
      simp [isNull, withoutNulls, fieldsWithoutNulls, emptyObject, strings, SortedMap.empty])

/-- No child has anything in its body that the store keeps. -/
theorem plain_child (mem : child ∈ children defaults tenant) : Plain child.body := by
  rcases List.mem_cons.1 mem with rfl | mem
  · exact plain_namespaceBody _
  · exact plain_resident mem

/-- A tenant whose namespace has a name wants these children. -/
theorem wanted_eq (named : tenant.namespaceName.isEmpty = false) :
    wanted defaults tenant = .ok (children defaults tenant) := by
  have stated : ¬ (Text.trim tenant.spec.namespaceName).isEmpty = true := by
    rw [show (Text.trim tenant.spec.namespaceName).isEmpty = false from named]
    exact Bool.false_ne_true
  unfold wanted
  dsimp only
  rw [if_neg stated]
  exact Manifest.ofBodies_eq_ok fun _ mem => ofBody_child named mem

/-! ### Keys -/

/-- The children have different kinds. -/
theorem distinct_children : ((children defaults tenant).map Manifest.key).Nodup := by
  simp [children, residents, namespaceManifest, ObjectKey.of, Rulebook.namespaceKey]

/-- No tenant is a child. -/
theorem key_ne_of_child {key : ObjectKey} (kind : key.gvk = gvk)
    (mem : child ∈ children defaults tenant) : child.key ≠ key := by
  rintro rfl
  have named : child.key.kind = "TenantNamespace" := congrArg GroupVersionKind.kind kind
  rcases List.mem_cons.1 mem with rfl | mem
  · exact absurd named (show "Namespace" ≠ "TenantNamespace" by decide)
  · rcases mem_residents.1 mem with rfl | rfl | rfl
    all_goals exact absurd named (by simp [ObjectKey.of])

theorem namespaceKey_ne_of_resident (mem : child ∈ residents ns budget) :
    Rulebook.namespaceKey ns ≠ child.key := by
  intro same
  have kind := congrArg ObjectKey.kind same
  rcases mem_residents.1 mem with rfl | rfl | rfl
  all_goals exact absurd kind (by simp [Rulebook.namespaceKey, ObjectKey.of])

theorem place_of_resident (named : ns.isEmpty = false) (mem : child ∈ residents ns budget) :
    child.key.ns? = some ns := by
  rcases mem_residents.1 mem with rfl | rfl | rfl
  all_goals simp [ObjectKey.of, named]

/-! ### Readiness -/

/-- What is inside the namespace is ready at once. -/
theorem verdict_of_resident (mem : child ∈ residents ns budget) (s : MemoryStore) :
    Rulebook.standard.verdict s child.key = .ok true := by
  have ruleless : Rulebook.standard.rules.get? child.key.groupKind = none := by
    rcases mem_residents.1 mem with rfl | rfl | rfl <;>
      simp [Rulebook.standard, Rulebook.register, Rulebook.empty, ObjectKey.of, ObjectKey.groupKind]
  unfold Rulebook.verdict
  rw [ruleless]

/-- The status of a namespace that is in use. -/
def active : Json := .object [("phase", .str "Active")]

section Made

variable {o : OwnerIdentity} {status? : Option Json} {object : Json}

/-- The metadata that the store makes for a namespace with an owner have the shape of metadata. -/
theorem admits_metadata_of_made (made : MadeOf (o.attachTo (namespaceBody ns)) status? object) :
    Shape.metadata.admits (.obj object.metadataFields) = true := by
  have body : (namespaceBody ns).metadataFields =
      SortedMap.insert SortedMap.empty "name" (.str ns) := by
    rw [namespaceBody, metadataFields, metadata_body fun _ _ => rfl]
    rfl
  obtain ⟨uid, uids⟩ := made.uid
  obtain ⟨version, versions⟩ := made.version
  have generation := made.generation
  have others : ∀ k, k ∉ bookNames → object.metadataFields.get? k =
      if k = "ownerReferences" then some (.arr [o.reference])
      else if k = "name" then some (.str ns) else none := fun k free => by
    rw [made.metadata k free, (o.metadata_attachTo (plain_namespaceBody ns).hasMetadata).2, body,
      SortedMap.get?_insert, SortedMap.get?_insert]
    rfl
  have first : Shape.int64.admits (.int 1) = true := by decide
  have entry : (Shape.object (Shape.each .string ["apiVersion", "kind", "name", "uid"] ++
      Shape.each .bool ["controller", "blockOwnerDeletion"])).admits o.reference = true := by
    simp [OwnerIdentity.reference, Json.object, Shape.object, Shape.each, Shape.admits,
      Shape.admitsMembers, Shape.admitsMember, SortedMap.get?_ofList_cons,
      SortedMap.get?_ofList_nil]
    exact ⟨rfl, rfl, rfl, rfl, rfl⟩
  simp only [Shape.object, Shape.each, List.map_cons, List.map_nil, List.cons_append,
    List.nil_append] at entry
  simp [Shape.metadata, Shape.object, Shape.each, Shape.admits, Shape.admitsMembers,
    Shape.admitsMember, bookNames, uids, versions, generation, others]
  exact ⟨rfl, rfl, rfl, first, entry⟩

/-- A namespace that the store made is ready once its status says that it is in use. -/
theorem namespaceRule_of_made (made : MadeOf (o.attachTo (namespaceBody ns)) status? object)
    (stated : status? = none ∨ status? = some active) (expected : List String) :
    Rule.namespace object expected = pure (.ok status?.isSome) := by
  obtain ⟨fields, rfl⟩ := eq_obj_of_isObject (isObject_of_hasMetadata made.hasMetadata)
  have plain := isObject_of_hasMetadata (plain_namespaceBody ns).hasMetadata
  have metadata : fields.get? "metadata" = some (.obj (obj fields).metadataFields) :=
    member?_metadata made.hasMetadata
  have status : fields.get? "status" = status? := made.members "status" (by decide)
  have others : ∀ k, k ≠ "metadata" → k ≠ "status" →
      fields.get? k = (namespaceBody ns).member? k := fun k ne other => by
    refine (made.members k ne).trans ?_
    rw [if_neg other, o.member?_attachTo plain ne]
  have version : (namespaceBody ns).member? "apiVersion" = some (.str "v1") := member?_body _
  have kind : (namespaceBody ns).member? "kind" = some (.str "Namespace") := member?_body _
  have spec : (namespaceBody ns).member? "spec" = none := member?_body _
  have core : GroupVersionKind.apiVersion ⟨"", "v1", "Namespace"⟩ = "v1" := rfl
  have shape : Shape.namespace.admits (obj fields) = true := by
    simp [Shape.namespace, Shape.ofKind, Shape.specAndStatus, Shape.admits, Shape.admitsMembers,
      Shape.admitsMember, Shape.states, metadata, status, others, version, kind, spec, core,
      admits_metadata_of_made made]
    rcases stated with rfl | rfl <;> rfl
  have phase : (obj fields).stringAt? ["status", "phase"] =
      status?.bind (·.stringAt? ["phase"]) := by
    show ((fields.get? "status").bind (·.path? ["phase"])).bind asString? = _
    rw [status]
    cases status? <;> rfl
  unfold Rule.namespace Rule.shaped
  dsimp only
  rw [if_pos shape, phase]
  rcases stated with rfl | rfl <;> rfl

/-- What the rules say of a stored namespace that the store made. -/
theorem rule_namespaceKey (ns : String) :
    Rulebook.standard.rules.get? (Rulebook.namespaceKey ns).groupKind = some Rule.namespace := by
  simp [Rulebook.standard, Rulebook.register, Rulebook.empty, Rulebook.namespaceKey, ObjectKey.of,
    ObjectKey.groupKind]

theorem verdict_of_made {s : MemoryStore}
    (there : s.object? (Rulebook.namespaceKey ns) = some object)
    (made : MadeOf (o.attachTo (namespaceBody ns)) status? object)
    (stated : status? = none ∨ status? = some active) :
    Rulebook.standard.verdict s (Rulebook.namespaceKey ns) = .ok status?.isSome := by
  unfold Rulebook.verdict
  rw [rule_namespaceKey, there]
  exact congrArg Tracked.value (namespaceRule_of_made made stated _)

end Made

end Tenant

end DesiredState
