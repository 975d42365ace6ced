import DesiredState.Error

/-!
# Status of an owner

An owner's status holds one condition for each phase of its reconciles and one for each of its
resources. A condition is put in by its key: in place of the earlier one, or at the end. Its date
moves only when its content does.
-/

namespace DesiredState

/-- A value and the time at which it last changed, if that is known. -/
structure Dated (α : Type) where
  content : α
  lastModified : Option String
  deriving DecidableEq

namespace Dated

variable {α κ : Type}

/-- A value whose date is still to be set. -/
def undated (content : α) : Dated α := ⟨content, none⟩

/-- A date of its own counts; otherwise the value is dated now. -/
def stamped (item : Dated α) (now : String) : Dated α :=
  { item with lastModified := some (item.lastModified.getD now) }

variable [DecidableEq α] [DecidableEq κ]

/-- The new value says nothing new: the content is the same, and it has no date of its own. -/
def saysNothingNew (current item : Dated α) : Bool :=
  decide (current.content = item.content) && item.lastModified.isNone

/-- Put a value in by its key. The flag tells whether it was taken. -/
def upsert (key : α → κ) (now : String) (item : Dated α) :
    List (Dated α) → List (Dated α) × Bool
  | [] => ([item.stamped now], true)
  | current :: rest =>
    if key current.content = key item.content then
      if current.saysNothingNew item then (current :: rest, false)
      else (item.stamped now :: rest, true)
    else
      let (rest, taken) := upsert key now item rest
      (current :: rest, taken)

end Dated

/-! ## Conditions -/

inductive PhaseState where
  | pending
  | complete
  | failed
  deriving DecidableEq

namespace PhaseState

def text : PhaseState → String
  | pending => "Pending"
  | complete => "Complete"
  | failed => "Failed"

end PhaseState

/-- How a phase of the latest reconcile ended. -/
structure PhaseReport where
  phase : String
  state : PhaseState
  message : String
  deriving DecidableEq

namespace PhaseReport

def complete (phase : String) : PhaseReport := ⟨phase, .complete, "phase completed"⟩

def pending (phase : String) : PhaseReport := ⟨phase, .pending, "phase pending"⟩

def failed (phase : String) (error : Error) : PhaseReport :=
  ⟨phase, .failed, "phase failed: " ++ error.message⟩

end PhaseReport

/-- How far a resource has come. -/
structure ResourceReport where
  resource : ObjectKey
  lastResourcePhase : String
  created : Bool
  message : String
  deriving DecidableEq

abbrev PhaseCondition : Type := Dated PhaseReport

abbrev ResourceCondition : Type := Dated ResourceReport

structure OwnerStatus where
  ready : Bool
  dependenciesSatisfied : Bool
  conditions : List PhaseCondition
  resources : List ResourceCondition
  deriving DecidableEq

namespace OwnerStatus

def empty : OwnerStatus := ⟨false, false, [], []⟩

instance : Inhabited OwnerStatus := ⟨empty⟩

/-- Put in a phase condition; the flag tells whether it was taken. -/
def setPhase (s : OwnerStatus) (now : String) (c : PhaseCondition) : OwnerStatus × Bool :=
  let (conditions, taken) := Dated.upsert PhaseReport.phase now c s.conditions
  ({ s with conditions }, taken)

/-- Put in a resource condition; the flag tells whether it was taken. -/
def setResource (s : OwnerStatus) (now : String) (c : ResourceCondition) : OwnerStatus × Bool :=
  let (resources, taken) := Dated.upsert ResourceReport.resource now c s.resources
  ({ s with resources }, taken)

def phase? (s : OwnerStatus) (phase : String) : Option PhaseCondition :=
  s.conditions.find? (·.content.phase = phase)

def resource? (s : OwnerStatus) (key : ObjectKey) : Option ResourceCondition :=
  s.resources.find? (·.content.resource = key)

/-- A condition already marks the resource as created. -/
def wasCreated (s : OwnerStatus) (key : ObjectKey) : Bool :=
  match s.resource? key with
  | some c => c.content.created
  | none => false

end OwnerStatus

/-! ## Writing -/

namespace ObjectKey

/-- The members of a key; a key without a namespace has no member for it. -/
def members (k : ObjectKey) : List (String × Json) :=
  [("group", .str k.group), ("version", .str k.version), ("kind", .str k.kind),
    ("name", .str k.name)] ++ (k.ns?.map fun ns => ("namespace", Json.str ns)).toList

def encode (k : ObjectKey) : Json := .object k.members

end ObjectKey

namespace Dated

/-- The member for the date, if there is one. -/
def dateMember {α : Type} (d : Dated α) : List (String × Json) :=
  (d.lastModified.map fun t => ("lastModified", Json.str t)).toList

end Dated

namespace OwnerStatus

def encodePhase (c : PhaseCondition) : Json :=
  .object ([("phase", .str c.content.phase), ("state", .str c.content.state.text),
    ("message", .str c.content.message)] ++ c.dateMember)

/-- The members of the key stand among those of the condition. -/
def encodeResource (c : ResourceCondition) : Json :=
  .object (c.content.resource.members ++
    [("lastResourcePhase", .str c.content.lastResourcePhase),
      ("created", .bool c.content.created), ("message", .str c.content.message)] ++ c.dateMember)

def encode (s : OwnerStatus) : Json :=
  .object [("ready", .bool s.ready), ("dependenciesSatisfied", .bool s.dependenciesSatisfied),
    ("conditions", .arr (s.conditions.map encodePhase)),
    ("resources", .arr (s.resources.map encodeResource))]

end OwnerStatus

/-! ## Reading -/

namespace ObjectKey

/-- The key among the members of an object. An empty namespace stays as it is. -/
def ofMembers (o : Object) : Except DecodeError ObjectKey := do
  return {
    group := ← o.withDefault "group" Decoder.string ""
    version := ← o.required "version" Decoder.string
    kind := ← o.required "kind" Decoder.string
    ns? := ← o.optional "namespace" Decoder.string
    name := ← o.required "name" Decoder.string }

def decode : Decoder ObjectKey := fun j => do
  ofMembers (← Decoder.record "an object key" ["group", "version", "kind", "namespace", "name"] j)

end ObjectKey

namespace PhaseState

/-- The state of a name. -/
def ofText (name : String) : Except DecodeError PhaseState :=
  match [pending, complete, failed].find? (·.text = name) with
  | some state => .ok state
  | none => .error (.unknownName name "one of \x60Pending\x60, \x60Complete\x60, \x60Failed\x60")

theorem ofText_text (s : PhaseState) : ofText s.text = .ok s := by cases s <;> rfl

/-- A state is its name, or an object with the name as its one member and null under it. -/
def decode : Decoder PhaseState
  | .str name => ofText name
  | .obj (.cons name _ .null .nil) => ofText name
  | j => j.wrongType "the state of a phase"

end PhaseState

namespace OwnerStatus

def decodePhase : Decoder PhaseCondition := fun j => do
  let o ← Decoder.record "a phase condition" ["phase", "state", "message", "lastModified"] j
  let phase ← o.required "phase" Decoder.string
  let state ← o.required "state" PhaseState.decode
  let message ← o.withDefault "message" Decoder.string ""
  return ⟨⟨phase, state, message⟩, ← o.optional "lastModified" Decoder.string⟩

/-- The members of the key stand among the others, so a list is no resource condition. -/
def decodeResource : Decoder ResourceCondition := fun j => do
  let o ← Decoder.object "a resource condition" j
  let resource ← ObjectKey.ofMembers o
  let lastResourcePhase ← o.withDefault "lastResourcePhase" Decoder.string ""
  let created ← o.withDefault "created" Decoder.bool false
  let message ← o.withDefault "message" Decoder.string ""
  return ⟨⟨resource, lastResourcePhase, created, message⟩,
    ← o.optional "lastModified" Decoder.string⟩

def decode : Decoder OwnerStatus := fun j => do
  let o ← Decoder.record "the status of an owner"
    ["ready", "dependenciesSatisfied", "conditions", "resources"] j
  return {
    ready := ← o.withDefault "ready" Decoder.bool false
    dependenciesSatisfied := ← o.withDefault "dependenciesSatisfied" Decoder.bool false
    conditions := ← o.withDefault "conditions" (Decoder.list decodePhase) []
    resources := ← o.withDefault "resources" (Decoder.list decodeResource) [] }

end OwnerStatus

end DesiredState
