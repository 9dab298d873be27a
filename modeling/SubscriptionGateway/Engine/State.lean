import SubscriptionGateway.Broker.Connection
import SubscriptionGateway.Engine.Counters
import SubscriptionGateway.Entity.Resolver
import SubscriptionGateway.Reply.Frame
import SubscriptionGateway.Subscription.Lifecycle

/-!
The state of the engine. Subscriptions, bindings and connections are numbered as they come and
kept for good; which of them count is said three times: by the list of registered subscriptions,
by the members of the listed bindings and by what the connections own.

A binding is the one consumer that all subscriptions with one source key share.
-/
namespace SubscriptionGateway

open Broker

abbrev SubscriptionId := Nat
abbrev BindingId := Nat
abbrev ConnectionId := Nat
abbrev ResolutionId := Nat
abbrev CallId := Nat

/-- What ends a delivery from outside: maybe an error, and then completion. -/
abbrev Termination := Option ClientError

structure Subscriber where
  clientId : String
  connection : ConnectionId
  compiled : CompiledSubscription
  binding? : Option BindingId := none
  life : Lifecycle := {}
  inbox : List BrokerEvent := []
  /-- Somebody may still put events in. -/
  fed : Bool := true
  delivering : Bool := true
  termination? : Option Termination := none

inductive BindingPhase where
  | opening
  | opened
  | closed
  deriving DecidableEq, Repr

structure Binding where
  key : SourceKey
  phase : BindingPhase := .opening
  /-- Held by the call that opens its consumer. -/
  locked : Bool := false
  members : List SubscriptionId := []
  cancelled : Bool := false

structure Connection where
  transport : Transport
  closed : Bool := false
  /-- Told to stop, by its closing or by a writer that gave up. -/
  cancelled : Bool := false
  owned : List (SubscriptionId × String) := []
  queue : List Frame := []
  /-- Somebody still takes frames out. -/
  read : Bool := true

/-- A resolution on its way; its permit is held until there is an outcome. -/
structure Resolving where
  subscriber : SubscriptionId
  event : BrokerEvent
  outcome? : Option Outcome := none

inductive Reply where
  | done
  | subscribed (id : SubscriptionId)
  | scheduled (count : Nat)
  | failed (fault : Fault)

structure Setup where
  catalog : Catalog
  resolve : Resolver
  concurrency : Nat := 4
  inboxCapacity : Nat := 128
  queueCapacity : Nat := 128
  graceMs : Nat := 5000
  openDelayMs : String → Nat := fun _ => 0

structure Engine where
  setup : Setup
  hub : Hub := {}
  now : Nat := 0
  counters : Counters := {}
  subscribers : List Subscriber := []
  bindings : List Binding := []
  listed : List (SourceKey × BindingId) := []
  registered : List SubscriptionId := []
  connections : List Connection := []
  managed : List ConnectionId := []
  accepting : Bool := true
  /-- Events given to a delivery and not done with. -/
  inFlight : Nat := 0
  permits : Nat
  deliveries : Nat := 0
  resolutions : List Resolving := []
  sent : List EntityRequest := []
  calls : Nat := 0
  replies : List (CallId × Reply) := []

namespace Engine

def start (setup : Setup) (hub : Hub) : Engine :=
  { setup := setup, hub := hub, permits := max setup.concurrency 1 }

def count (e : Engine) (c : Counters.Change) : Engine :=
  { e with counters := e.counters.apply c }

def reply (e : Engine) (call : CallId) (r : Reply) : Engine :=
  { e with replies := e.replies ++ [(call, r)] }

def reply? (e : Engine) (call : CallId) : Option Reply :=
  (e.replies.find? (·.1 == call)).map (·.2)

def newCall (e : Engine) : CallId × Engine := (e.calls, { e with calls := e.calls + 1 })

def updateSubscriber (e : Engine) (s : SubscriptionId) (f : Subscriber → Subscriber) : Engine :=
  { e with subscribers := e.subscribers.modify s f }

def updateBinding (e : Engine) (b : BindingId) (f : Binding → Binding) : Engine :=
  { e with bindings := e.bindings.modify b f }

def updateConnection (e : Engine) (c : ConnectionId) (f : Connection → Connection) : Engine :=
  { e with connections := e.connections.modify c f }

def isActive (e : Engine) (s : SubscriptionId) : Bool :=
  match e.subscribers[s]? with
  | some x => x.life.isActive
  | none => false

def isClosed (e : Engine) (c : ConnectionId) : Bool :=
  match e.connections[c]? with
  | some x => x.closed
  | none => true

def isCancelled (e : Engine) (c : ConnectionId) : Bool :=
  match e.connections[c]? with
  | some x => x.cancelled
  | none => true

def isLocked (e : Engine) (b : BindingId) : Bool :=
  match e.bindings[b]? with
  | some x => x.locked
  | none => false

/-! ## Connections -/

namespace Trouble

/-- Clients are not told which connection it was. -/
def closed : Fault := .transport "connection <id> is closed"
def closedWhileSubscribing : Fault := .transport "connection <id> closed while subscribing"
def queueGone : Fault := .transport "connection <id> outbound queue is gone"
def tooSlow : Fault := .transport "connection <id> is too slow to keep up"

end Trouble

def openConnection (e : Engine) (t : Transport) : ConnectionId × Engine :=
  let id := e.connections.length
  let e := { e with
    connections := e.connections ++ [({ transport := t } : Connection)], managed :=
      e.managed ++ [id] }
  (id, e.count .connectionOpened)

def closeConnection (e : Engine) (c : ConnectionId) : Bool × Engine :=
  (!e.isClosed c, e.updateConnection c fun x => { x with closed := true, cancelled := true })

/-- Stops whoever serves it; it is not closed by that. -/
def cancelConnection (e : Engine) (c : ConnectionId) : Engine :=
  e.updateConnection c fun x => { x with cancelled := true }

def attach (e : Engine) (c : ConnectionId) (s : SubscriptionId) (clientId : String) :
    Bool × Engine :=
  if e.isClosed c then (false, e)
  else (true, e.updateConnection c fun x => { x with owned := x.owned ++ [(s, clientId)] })

def detach (e : Engine) (c : ConnectionId) (s : SubscriptionId) : Engine :=
  e.updateConnection c fun x => { x with owned := x.owned.filter (·.1 != s) }

def owned (e : Engine) (c : ConnectionId) : List (SubscriptionId × String) :=
  match e.connections[c]? with
  | some x => x.owned
  | none => []

/-- The subscription that a client means by an id of its own. -/
def subscriptionFor? (e : Engine) (c : ConnectionId) (clientId : String) : Option SubscriptionId :=
  ((e.owned c).find? (·.2 == clientId)).map (·.1)

def takeFrames (e : Engine) (c : ConnectionId) (most : Nat) : List Frame × Engine :=
  match e.connections[c]? with
  | some x =>
      (x.queue.take most, e.updateConnection c fun x => { x with queue := x.queue.drop most })
  | none => ([], e)

def stopReading (e : Engine) (c : ConnectionId) : Engine :=
  e.updateConnection c fun x => { x with read := false, queue := [] }

/-! ## Bindings -/

def bindingFor? (e : Engine) (key : SourceKey) : Option BindingId :=
  (e.listed.find? (·.1 == key)).map (·.2)

def bindingFor (e : Engine) (key : SourceKey) : BindingId × Engine :=
  match e.bindingFor? key with
  | some b => (b, e)
  | none =>
    let b := e.bindings.length
    (b, { e with
      bindings := e.bindings ++ [({ key := key } : Binding)], listed := e.listed ++ [(key, b)] })

/-- Only this binding leaves the list, not a newer one of its key. -/
def unlist (e : Engine) (b : BindingId) : Engine :=
  { e with listed := e.listed.filter (·.2 != b) }

def cancelBinding (e : Engine) (b : BindingId) : Engine :=
  e.updateBinding b fun x => { x with cancelled := true }

def closeBinding (e : Engine) (b : BindingId) : Engine :=
  e.updateBinding b fun x => { x with phase := .closed, locked := false }

def Binding.isIdle (b : Binding) : Bool := b.members.isEmpty && b.phase == .opened

def closeIfIdle (e : Engine) (b : BindingId) : Engine :=
  match e.bindings[b]? with
  | some x => if Binding.isIdle x then ((e.closeBinding b).cancelBinding b).unlist b else e
  | none => e

def isMember (e : Engine) (b : BindingId) (s : SubscriptionId) : Bool :=
  match e.bindings[b]? with
  | some x => x.members.contains s
  | none => false

/-- A member that is taken out is fed no more. -/
def dropMember (e : Engine) (b : BindingId) (s : SubscriptionId) : Engine :=
  let dropped := e.updateBinding b fun x => { x with members := x.members.filter (· != s) }
  if e.isMember b s then dropped.updateSubscriber s fun x => { x with fed := false } else dropped

def leave (e : Engine) (b : BindingId) (s : SubscriptionId) : Engine :=
  (e.dropMember b s).closeIfIdle b

/-! ## Registration -/

def isRegistered (e : Engine) (s : SubscriptionId) : Bool := e.registered.contains s

def deregister (e : Engine) (s : SubscriptionId) : Engine :=
  { e with registered := e.registered.filter (· != s) }

/-- Moves a subscription on, and counts it out when that took it out of `active`. -/
def endLife (e : Engine) (s : SubscriptionId) (f : Lifecycle → Bool × Lifecycle) : Engine :=
  match e.subscribers[s]? with
  | none => e
  | some x =>
    let (left, life) := f x.life
    let e := e.updateSubscriber s fun x => { x with life := life }
    if left then e.count .subscriptionRemoved else e

def enroll (e : Engine) (b : BindingId) (s : SubscriptionId) (x : Subscriber) : Engine :=
  let e := e.updateBinding b fun y => { y with members := y.members ++ [s] }
  let e := e.updateSubscriber s fun y => { y with life := x.life.activate.2, binding? := some b }
  let e := if x.life.activate.1 then e.count .subscriptionAdded else e
  { e with registered := e.registered ++ [s] }

def register (e : Engine) (b : BindingId) (s : SubscriptionId) : Except Fault Unit × Engine :=
  match e.subscribers[s]? with
  | none => (.ok (), e)
  | some x =>
    match (e.enroll b s x).attach x.connection s x.clientId with
    | (true, e) => (.ok (), e)
    | (false, e) =>
      (.error Trouble.closedWhileSubscribing,
        ((e.leave b s).deregister s).endLife s Lifecycle.cancel)

end Engine

end SubscriptionGateway
