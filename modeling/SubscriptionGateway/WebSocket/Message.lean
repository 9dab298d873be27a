import SubscriptionGateway.Json.Writer
import SubscriptionGateway.Reply.Frame
import SubscriptionGateway.Subscription.Request
import SubscriptionGateway.Text.Blank

/-!
The two WebSocket protocols. Both wrap a message in the same envelope and differ in the names of
its types, and in that the older one sends errors inside a data message.
-/
namespace SubscriptionGateway.WebSocket

inductive Protocol where
  | transport
  | legacy
  deriving DecidableEq, Repr

namespace Protocol

def name : Protocol → String
  | .transport => "graphql-transport-ws"
  | .legacy => "graphql-ws"

def all : List Protocol := [.transport, .legacy]

def ofName? (s : String) : Option Protocol := all.find? (·.name == s)

def offered? (header : Option String) : Option Protocol :=
  let names := match header with
    | some h => (h.toList.splitOn ',').map fun cs => String.ofList (Text.trim cs)
    | none => []
  names.findSome? ofName?

def negotiate (header : Option String) : Protocol := (offered? header).getD .transport

end Protocol

inductive ClientMessage where
  | init (payload : Option Json)
  | subscribe (id : String) (request : Request)
  | complete (id : String)
  | ping (payload : Option Json)
  | pong
  | terminate

inductive ServerMessage where
  | ack
  | keepAlive
  | next (id : String) (payload : Json)
  | error (id : String) (errors : List ClientError)
  | complete (id : String)
  | pong (payload : Option Json)
  | close (code : Nat) (reason : String)

def ServerMessage.ofFrame (f : Frame) : ServerMessage :=
  match f.body with
  | .next payload => .next f.clientId payload
  | .error errors => .error f.clientId errors
  | .complete => .complete f.clientId

inductive DecodeError where
  | unreadable
  | unreadableRequest
  | missingId (kind : String)
  | unsupported (kind : String) (protocol : Protocol)
  deriving DecidableEq

def DecodeError.message : DecodeError → String
  | .unreadable => "Invalid message received"
  | .unreadableRequest => "Invalid subscribe payload"
  | .missingId kind => s!"Message of type '{kind}' is missing an id"
  | .unsupported kind p => s!"Unsupported message type '{kind}' for {p.name}"

def DecodeError.fault (e : DecodeError) : Fault := .invalidOperation e.message

structure Envelope where
  id? : Option String := none
  kind : String
  payload? : Option Json := none

namespace Envelope

def shape : Shape := .record [("id", .text), ("type", .text), ("payload", .any)]

def ofJson? (j : Json) : Option Envelope := do
  let r ← Record.ofJson? 3 j
  return {
    id? := ← r.optional 0 "id" Json.asString?
    kind := ← r.required 1 "type" Json.asString?
    payload? := ← r.optional 2 "payload" Json.any? }

def read? (text : String) : Option Envelope :=
  (Json.readShaped? shape (text.toList.map some)).bind ofJson?

def json (e : Envelope) : Json :=
  .object <| (e.id?.map fun i => ("id", Json.string i)).toList ++
    ("type", .string e.kind) :: (e.payload?.map fun p => ("payload", p)).toList

def id (e : Envelope) : Except DecodeError String :=
  match e.id? with
  | some i => if i = "" then .error (.missingId e.kind) else .ok i
  | none => .error (.missingId e.kind)

end Envelope

namespace Protocol

def subscribeKind : Protocol → String
  | .transport => "subscribe"
  | .legacy => "start"

def completeKind : Protocol → String
  | .transport => "complete"
  | .legacy => "stop"

def ofEnvelope (p : Protocol) (e : Envelope) : Except DecodeError ClientMessage :=
  if e.kind = "connection_init" then .ok (.init e.payload?)
  else if e.kind = p.subscribeKind then
    match e.id with
    | .error err => .error err
    | .ok id =>
      match Request.ofJson? (e.payload?.getD .null) with
      | some r => .ok (.subscribe id r)
      | none => .error .unreadableRequest
  else if e.kind = p.completeKind then
    match e.id with
    | .error err => .error err
    | .ok id => .ok (.complete id)
  else match p, e.kind with
    | .transport, "ping" => .ok (.ping e.payload?)
    | .transport, "pong" => .ok .pong
    | .legacy, "connection_terminate" => .ok .terminate
    | p, kind => .error (.unsupported kind p)

def decode (p : Protocol) (text : String) : Except DecodeError ClientMessage :=
  match Envelope.read? text with
  | some e => p.ofEnvelope e
  | none => .error .unreadable

def envelope? (p : Protocol) : ServerMessage → Option Envelope
  | .ack => some { kind := "connection_ack" }
  | .keepAlive => some { kind := if p = .transport then "ping" else "ka" }
  | .next id payload =>
    some { id? := id, kind := if p = .transport then "next" else "data", payload? := payload }
  | .error id errors =>
    some (match p with
      | .transport =>
        { id? := id, kind := "error", payload? := some (.array (errors.map ClientError.json)) }
      | .legacy => { id? := id, kind := "data", payload? := some (Outcome.errorsBody errors) })
  | .complete id => some { id? := id, kind := "complete" }
  | .pong payload => some { kind := "pong", payload? := payload }
  | .close _ _ => none

def encode? (p : Protocol) (m : ServerMessage) : Option String :=
  (p.envelope? m).map fun e => e.json.text

def encode (p : Protocol) (m : ServerMessage) : Except Fault String :=
  match p.encode? m with
  | some text => .ok text
  | none => .error (.internal "close frames are not text messages")

end Protocol

/-! ## Codes of a closing socket -/

namespace CloseCode

def invalidMessage : Nat := 4400
def unauthorized : Nat := 4401
def initTimeout : Nat := 4408
def subscriberExists : Nat := 4409
def tooManyInits : Nat := 4429

end CloseCode

end SubscriptionGateway.WebSocket
