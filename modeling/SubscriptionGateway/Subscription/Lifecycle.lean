/-!
The life of a subscription. Whoever moves it out of `active` is the one to account for its end.
-/
namespace SubscriptionGateway

inductive Phase where
  | pending
  | active
  | cancelled
  deriving DecidableEq, Repr

def Phase.word : Phase → String
  | .pending => "pending"
  | .active => "active"
  | .cancelled => "cancelled"

def Phase.ofWord? : String → Option Phase
  | "pending" => some .pending
  | "active" => some .active
  | "cancelled" => some .cancelled
  | _ => none

structure Lifecycle where
  phase : Phase := .pending
  stopped : Bool := false
  deriving DecidableEq, Repr

namespace Lifecycle

def isActive (l : Lifecycle) : Bool := l.phase == .active

/-- From `pending` only; says whether it moved. -/
def activate (l : Lifecycle) : Bool × Lifecycle :=
  match l.phase with
  | .pending => (true, { l with phase := .active })
  | _ => (false, l)

def retire (l : Lifecycle) : Bool × Lifecycle := (l.isActive, { l with phase := .cancelled })

def cancel (l : Lifecycle) : Bool × Lifecycle :=
  (l.isActive, { phase := .cancelled, stopped := true })

end Lifecycle

inductive Transport where
  | webSocket
  | eventStream
  deriving DecidableEq, Repr

namespace Transport

def label : Transport → String
  | .webSocket => "websocket"
  | .eventStream => "sse"

def word : Transport → String
  | .webSocket => "web_socket"
  | .eventStream => "sse"

def ofWord? : String → Option Transport
  | "web_socket" => some .webSocket
  | "sse" => some .eventStream
  | _ => none

end Transport

end SubscriptionGateway
