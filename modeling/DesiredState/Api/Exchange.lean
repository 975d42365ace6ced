import DesiredState.Api.Target
import DesiredState.Error
import DesiredState.Json.Parser

/-!
# Requests and replies

A request is sent over a connection, which may fail. A reply of status 400 to 599 is an error of
the server, and any other has to hold a document of the awaited kind. Contents are texts, so a
number may differ in its last place after it was sent.
-/

namespace DesiredState

inductive Method where
  | get
  | post
  | patch
  | put
  deriving DecidableEq

namespace Method

def text : Method → String
  | get => "GET"
  | post => "POST"
  | patch => "PATCH"
  | put => "PUT"

end Method

/-- What is sent with a request. -/
structure Content where
  type : String
  text : String

structure Request where
  method : Method
  target : Target
  content? : Option Content

structure Reply where
  status : Nat
  text : String

/-- Sends a request; an error says why the connection failed. -/
abbrev Connection (m : Type → Type) : Type := Request → m (Except String Reply)

/-! ## Errors -/

/-- An error that a server reports. -/
structure ServerError where
  code : Nat
  reason : String
  message : String
  deriving DecidableEq

namespace ServerError

/-- The parts of an error, in their order. -/
def partNames : List String := ["status", "message", "reason", "code"]

def decode : Decoder ServerError := fun j => do
  let o ← Decoder.object "an error" j
  let _ ← o.required "status" Decoder.string
  return {
    code := ← o.required "code" (Decoder.unsigned 16)
    reason := ← o.withDefault "reason" Decoder.string ""
    message := ← o.withDefault "message" Decoder.string "" }

/-- Reads an error from its named parts, or from a list of all parts. No part may occur twice, and
nothing but the parts is looked at. -/
def read : Written.Reader ServerError
  | .obj members => do
    let (parts, _) ← Written.pick partNames members
    ofParts parts
  | .arr items => if items.length = partNames.length then ofParts (partNames.zip items) else none
  | _ => none
where
  ofParts (parts : List (String × Written)) : Option ServerError := do
    let values ← parts.mapM fun (name, w) => do return (name, ← w.value?)
    (decode (.object values)).toOption

/-- The error that a reply states, or else one that quotes the reply. -/
def ofReply (reply : Reply) : ServerError :=
  match (Written.ofText? reply.text).bind read with
  | some e => e
  | none => ⟨reply.status, "Failed to parse error data", Text.quoted reply.text⟩

/-- The error for the object of a key. The code decides, not the reason, except that it tells the
two kinds of conflict apart. -/
def toError (key : ObjectKey) (e : ServerError) : Error :=
  let detail := key.text ++ ": " ++ e.message
  if e.code = 404 then .notFound detail
  else if e.code = 409 then
    if e.reason = "AlreadyExists" then .alreadyExists detail else .conflict detail
  else .api e.code e.reason e.message

end ServerError

/-- Why an exchange gave nothing usable. -/
inductive Fault where
  | server (error : ServerError)
  /-- The request could not be sent, or its reply not be read. -/
  | unusable (detail : String)

namespace Fault

def detail : Fault → String
  | server e => "ApiError: " ++ e.message
  | unusable detail => detail

def toError (key : ObjectKey) : Fault → Error
  | server e => e.toError key
  | unusable detail => .transport detail

end Fault

/-! ## Exchanges -/

namespace Reply

/-- The status says that something went wrong. -/
def isError (r : Reply) : Bool := 400 ≤ r.status && r.status < 600

/-- What a reader makes of a reply. -/
def read {α : Type} (read : Written.Reader α) (r : Reply) : Except Fault α :=
  if r.isError then .error (.server (.ofReply r))
  else
    match (Written.ofText? r.text).bind read with
    | some a => .ok a
    | none => .error (.unusable "the reply is no document of the awaited kind")

end Reply

namespace Connection

variable {m : Type → Type} [Monad m] {α : Type}

/-- Send a request and read the reply. -/
def ask (send : Connection m) (request : Request) (read : Written.Reader α) : ExceptT Fault m α :=
  ExceptT.mk do
    match ← send request with
    | .error detail => return .error (.unusable ("no reply: " ++ detail))
    | .ok reply => return reply.read read

end Connection

end DesiredState
