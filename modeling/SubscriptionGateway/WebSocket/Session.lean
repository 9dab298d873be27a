import SubscriptionGateway.Engine.State
import SubscriptionGateway.WebSocket.Message

/-!
How a session answers what its client says. The answer depends on whether the client has been
acknowledged and on the subscriptions its connection owns.
-/
namespace SubscriptionGateway.WebSocket

inductive Reaction where
  | reply (messages : List ServerMessage)
  /-- The first greeting; the client may subscribe from then on. -/
  | acknowledge (messages : List ServerMessage)
  | close (code : Nat) (reason : String)
  | subscribe (id : String) (r : Request)
  | unsubscribe (id : String) (s : SubscriptionId)
  | leave

namespace Session

def tooManySubscriptions : String := "Too many subscriptions"

/-- How a refused subscription is told: an error and the end of it. -/
def rejection (id message : String) : List ServerMessage :=
  [.error id [{ message := message }], .complete id]

def existing (p : Protocol) (id : String) : Reaction :=
  let message := s!"Subscriber for {id} already exists"
  match p with
  | .transport => .close CloseCode.subscriberExists message
  | .legacy => .reply [.error id [{ message := message }]]

def greeting (p : Protocol) : List ServerMessage :=
  match p with
  | .transport => [.ack]
  | .legacy => [.ack, .keepAlive]

/-- A client's id is looked up first and its number of subscriptions after that. -/
def onSubscribe (p : Protocol) (owned : List (SubscriptionId × String)) (most : Nat) (id : String)
    (r : Request) : Reaction :=
  if owned.any (·.2 == id) then existing p id
  else if most ≤ owned.length then .reply (rejection id tooManySubscriptions)
  else .subscribe id r

def onMessage (p : Protocol) (acknowledged : Bool) (owned : List (SubscriptionId × String))
    (most : Nat) : ClientMessage → Reaction
  | .init _ =>
    if acknowledged then .close CloseCode.tooManyInits "Too many initialisation requests"
    else .acknowledge (greeting p)
  | .ping payload => .reply [.pong payload]
  | .pong => .reply []
  | .subscribe id r =>
    if acknowledged then onSubscribe p owned most id r
    else .close CloseCode.unauthorized "Unauthorized"
  | .complete id =>
    match owned.find? (·.2 == id) with
    | some (s, _) => .unsubscribe id s
    | none => .reply []
  | .terminate => .leave

def onText (p : Protocol) (acknowledged : Bool) (owned : List (SubscriptionId × String))
    (most : Nat) (text : String) : Reaction :=
  match p.decode text with
  | .ok m => onMessage p acknowledged owned most m
  | .error e => .close CloseCode.invalidMessage e.fault.clientMessage

def unsubscribed (p : Protocol) (id : String) : List ServerMessage :=
  match p with
  | .transport => []
  | .legacy => [.complete id]

/-! ## While subscriptions are blocked -/

def blockedPayload : Json := Outcome.errorsBody [{ message := Fault.subscriptionsBlocked.message }]

def onTextBlocked (p : Protocol) (text : String) : Option (List ServerMessage) :=
  match p.decode text with
  | .ok (.init _) => some [.ack]
  | .ok (.ping payload) => some [.pong payload]
  | .ok (.subscribe id _) => some [.next id blockedPayload, .complete id]
  | .ok .terminate => none
  | .ok _ => some []
  | .error _ => none

end Session

end SubscriptionGateway.WebSocket
