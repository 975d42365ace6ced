import DesiredState.Readiness.Rules
import DesiredState.Store.Basic

/-!
# Rulebooks

A rulebook assigns rules of readiness to kinds, and to single objects the data that they have to
hold. An object of a kind without a rule is ready, and nothing is read to find that out.
-/

namespace DesiredState

structure Rulebook where
  rules : SortedMap GroupKind Rule
  expected : SortedMap ObjectKey (List String)

namespace Rulebook

def empty : Rulebook := ⟨SortedMap.empty, SortedMap.empty⟩

/-- Assign a rule to a kind, in place of an earlier one. -/
def register (b : Rulebook) (kind : GroupKind) (rule : Rule) : Rulebook :=
  { b with rules := b.rules.insert kind rule }

/-- Name the data that an object has to hold. -/
def expect (b : Rulebook) (key : ObjectKey) (names : List String) : Rulebook :=
  { b with expected := b.expected.insert key names }

/-- Rules for workloads, services, data and definitions of kinds. -/
def standard : Rulebook :=
  [(⟨"", "Namespace"⟩, Rule.namespace), (⟨"apps", "Deployment"⟩, Rule.deployment),
    (⟨"apps", "StatefulSet"⟩, Rule.statefulSet), (⟨"apps", "DaemonSet"⟩, Rule.daemonSet),
    (⟨"batch", "Job"⟩, Rule.job), (⟨"", "Service"⟩, Rule.service),
    (⟨"", "Secret"⟩, Rule.secret), (⟨"", "ConfigMap"⟩, Rule.configMap),
    (⟨"apiextensions.k8s.io", "CustomResourceDefinition"⟩, Rule.existence)].foldl
      (fun b (e : GroupKind × Rule) => b.register e.1 e.2) empty

/-- The data that an object has to hold. -/
def expectedOf (b : Rulebook) (key : ObjectKey) : List String := (b.expected.get? key).getD []

/-- What a rule says of an object that may not be there. -/
def judge (b : Rulebook) (rule : Rule) (key : ObjectKey) : Option Json → Tracked (Result Bool)
  | none => return .ok false
  | some live => rule live (b.expectedOf key)

/-- The kinds that have a rule, written out. -/
def text (b : Rulebook) : String :=
  let kinds := b.rules.keys.map fun k =>
    "(" ++ Text.quoted k.group ++ ", " ++ Text.quoted k.kind ++ ")"
  "ReadinessRegistry \x7b kinds: [" ++ ", ".intercalate kinds ++ "] \x7d"

/-! ## Asking a store -/

variable {m : Type → Type} [Monad m] [Absorbs m]

/-- An object is ready. -/
def isReady (b : Rulebook) (store : Store m) (key : ObjectKey) : ExceptT Error m Bool :=
  match b.rules.get? key.groupKind with
  | none => return true
  | some rule => do
    let live ← store.get key
    ExceptT.mk (absorb (b.judge rule key live))

/-- All objects are ready. The first that is not ends the search. -/
def areReady (b : Rulebook) (store : Store m) : List ObjectKey → ExceptT Error m Bool
  | [] => return true
  | key :: rest => do
    if ← b.isReady store key then b.areReady store rest else return false

/-- The key of a namespace. -/
def namespaceKey (name : String) : ObjectKey := .of ⟨"", "v1", "Namespace"⟩ none name

/-- The namespace of an object is ready; an object of the whole cluster needs none. -/
def namespaceReady (b : Rulebook) (store : Store m) (key : ObjectKey) : ExceptT Error m Bool :=
  match key.ns? with
  | some name => b.isReady store (namespaceKey name)
  | none => return true

end Rulebook

end DesiredState
