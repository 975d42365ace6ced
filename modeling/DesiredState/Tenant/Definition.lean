import DesiredState.Tenant.Basic

/-!
# The definition of the tenant kind

What a cluster has to know to serve tenants: their names, and the schema that they are checked
against.
-/

namespace DesiredState.Tenant.Definition

/-! ## Schemas -/

def ofType (type : String) (more : List (String × Json)) : Json :=
  .object (("type", .str type) :: more)

def string : Json := ofType "string" []

def boolean : Json := ofType "boolean" []

/-- An object with these members, some of them required. -/
def objectOf (required : List String) (members : List (String × Json)) : Json :=
  ofType "object" (("properties", .object members) ::
    if required.isEmpty then [] else [("required", .strings required)])

def listOf (items : Json) : Json := ofType "array" [("items", items)]

def nullable (schema : Json) : Json := schema.setMember "nullable" (.bool true)

def described (text : String) (schema : Json) : Json := schema.setMember "description" (.str text)

def withDefault (value schema : Json) : Json := schema.setMember "default" value

/-! ## Parts of a tenant -/

def amounts : Json := nullable (objectOf [] [("cpu", nullable string), ("memory", nullable string)])

def resources : Json :=
  withDefault .emptyObject (objectOf []
    [("limits", described "Default container limits." amounts),
      ("requests", described "Default container requests." amounts),
      ("max", described "Per-container maximum." amounts),
      ("quota", described "Namespace-wide totals."
        (nullable (objectOf [] [("limits", amounts), ("requests", amounts)])))])

def spec : Json :=
  objectOf ["namespace"]
    [("namespace", described "Name of the namespace to create." string), ("resources", resources)]

def phaseCondition : Json :=
  described "Outcome of one named phase of the reconcile pipeline." (objectOf ["phase", "state"]
    [("phase", string),
      ("state", ofType "string" [("enum", .strings
        ([.pending, .complete, .failed].map PhaseState.text))]),
      ("message", withDefault (.str "") string), ("lastModified", nullable string)])

def resourceCondition : Json :=
  described "Progress of one child resource through the resource sub-phases."
    (objectOf ["kind", "name", "version"]
      [("group", withDefault (.str "") string), ("version", string), ("kind", string),
        ("namespace", nullable string), ("name", string),
        ("lastResourcePhase", withDefault (.str "") string),
        ("created", withDefault (.bool false) boolean),
        ("message", withDefault (.str "") string), ("lastModified", nullable string)])

def status : Json :=
  nullable (objectOf []
    [("ready", withDefault (.bool false) boolean),
      ("dependenciesSatisfied", withDefault (.bool false) boolean),
      ("conditions", withDefault (.arr []) (listOf phaseCondition)),
      ("resources", withDefault (.arr []) (listOf resourceCondition))])

def schema : Json :=
  described "Auto-generated derived type for TenantNamespaceSpec via \x60CustomResource\x60"
    ((objectOf ["spec"] [("spec", spec), ("status", status)]).setMember "title"
      (.str Tenant.gvk.kind))

/-! ## The definition -/

def plural : String := "tenantnamespaces"

/-- A column of tables that list tenants. -/
def column (name type path : String) : Json :=
  .object [("name", .str name), ("type", .str type), ("jsonPath", .str path)]

def version : Json :=
  .object
    [("name", .str Tenant.gvk.version), ("served", .bool true), ("storage", .bool true),
      ("schema", .object [("openAPIV3Schema", schema)]),
      ("subresources", .object [("status", .emptyObject)]),
      ("additionalPrinterColumns", .arr
        [column "Namespace" "string" ".spec.namespace", column "Ready" "boolean" ".status.ready"])]

def document : Json :=
  .object
    [("apiVersion", .str "apiextensions.k8s.io/v1"), ("kind", .str "CustomResourceDefinition"),
      ("metadata", .object [("name", .str (plural ++ "." ++ Tenant.gvk.group))]),
      ("spec", .object
        [("group", .str Tenant.gvk.group), ("scope", .str "Cluster"),
          ("names", .object
            [("kind", .str Tenant.gvk.kind), ("plural", .str plural),
              ("singular", .str "tenantnamespace"), ("shortNames", .strings ["tns"]),
              ("categories", .arr [])]),
          ("versions", .arr [version])])]

end DesiredState.Tenant.Definition
