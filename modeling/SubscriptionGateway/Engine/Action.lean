import SubscriptionGateway.Engine.State

/-!
What the engine does, in actions that nothing interrupts. A task is a list of actions; whatever
waits for something is the head of its task and `ready` says whether it may go on. `perform` does
one action and says what its task does before the rest of its list, and which tasks it starts.
-/
namespace SubscriptionGateway

open Broker

namespace Engine

inductive Receipt where
  | event (s : SubscriptionId)
  | ending (s : SubscriptionId)
  | call (call : CallId)

inductive Action where
  -- Subscribing
  | subscribe (call : CallId) (c : ConnectionId) (clientId : String) (r : Request)
  /-- With the lock of the binding. -/
  | join (call : CallId) (b : BindingId) (s : SubscriptionId)
  /-- Goes on when the provider has opened a consumer; the lock is held meanwhile. -/
  | openSource (call : CallId) (b : BindingId) (s : SubscriptionId) (due : Nat)
  -- Ending subscriptions
  | unsubscribe (s : SubscriptionId)
  | terminate (s : SubscriptionId) (t : Termination)
  | leave (b : BindingId) (s : SubscriptionId)
  | releaseInbox (s : SubscriptionId)
  -- Events
  | dispatch (call : CallId) (event : BrokerEvent)
  | fanOut (call? : Option CallId) (b : BindingId) (event : BrokerEvent)
  | consume (b : BindingId) (c : ConsumerId) (a : Hub.Awaiting)
  | closeConsumer (c : ConsumerId)
  | failBinding (b : BindingId)
  -- Delivery
  | deliverNext (s : SubscriptionId)
  | resolve (s : SubscriptionId) (event : BrokerEvent)
  | runResolver (r : ResolutionId)
  | endResolver (r : ResolutionId) (w : Work) (due : Nat)
  | deliverOutcome (s : SubscriptionId) (r : ResolutionId)
  | offer (c : ConnectionId) (f : Frame) (receipt : Receipt)
  /-- Goes on when the queue has room, nobody reads it or the time is up. -/
  | enqueue (c : ConnectionId) (f : Frame) (due : Nat) (receipt : Receipt)
  | endDelivery (s : SubscriptionId)
  -- Connections and shutdown
  | release (c : ConnectionId)
  | connectionReleased
  | releaseAll
  | shutdown (drainMs : Nat)
  | awaitDrain (deadline due : Nat)
  | terminateAll
  | sweepAll
  | sweep (b : BindingId)
  | awaitDeliveries
  | pollDeliveries (deadline due : Nat)
  | answer (call : CallId) (r : Reply)

def pollMs : Nat := 10

def exitGraceMs : Nat := 1000

def sourceFailed : ClientError := { message := "event source is unavailable, subscription closed" }

/-! ## What may go on -/

def consumerReady (e : Engine) (b : BindingId) (c : ConsumerId) (a : Hub.Awaiting) : Bool :=
  (match e.bindings[b]? with
    | some x => x.cancelled
    | none => true) ||
  (match a with
    | .retry t => t ≤ e.now
    | .news => (e.hub.poll e.now c a).1 != .pending .news)

def deliveryReady (e : Engine) (s : SubscriptionId) : Bool :=
  match e.subscribers[s]? with
  | none => true
  | some x => x.life.stopped || x.termination?.isSome || !x.inbox.isEmpty || !x.fed

def hasRoom (e : Engine) (x : Connection) : Bool :=
  decide (x.queue.length < max e.setup.queueCapacity 1)

def queueReady (e : Engine) (c : ConnectionId) : Bool :=
  match e.connections[c]? with
  | none => true
  | some x => !x.read || e.hasRoom x

def hasOutcome (e : Engine) (r : ResolutionId) : Bool :=
  match e.resolutions[r]? with
  | none => true
  | some x => x.outcome?.isSome

def ready (e : Engine) : Action → Bool
  | .join _ b _ => !e.isLocked b
  | .openSource _ _ _ due => due ≤ e.now
  | .leave b _ => !e.isLocked b
  | .fanOut _ b _ => !e.isLocked b
  | .consume b c a => e.consumerReady b c a
  | .failBinding b => !e.isLocked b
  | .deliverNext s => e.deliveryReady s
  | .resolve _ _ => 0 < e.permits
  | .endResolver _ _ due => due ≤ e.now
  | .deliverOutcome _ r => e.hasOutcome r
  | .enqueue c _ due _ => e.queueReady c || due ≤ e.now
  | .awaitDrain _ due => due ≤ e.now
  | .sweep b => !e.isLocked b
  | .pollDeliveries _ due => due ≤ e.now
  | _ => true

/-- Those that wait for the same thing are served in the order in which they came. -/
def Action.inTurn : Action → Bool
  | .resolve _ _ => true
  | .enqueue _ _ _ _ => true
  | _ => false

def Action.due? : Action → Option Nat
  | .openSource _ _ _ due => some due
  | .consume _ _ (.retry t) => some t
  | .endResolver _ _ due => some due
  | .enqueue _ _ due _ => some due
  | .awaitDrain _ due => some due
  | .pollDeliveries _ due => some due
  | _ => none

/-! ## What is done -/

structure Effect where
  engine : Engine
  next : List Action := []
  started : List (List Action) := []

def fail (e : Engine) (call : CallId) (f : Fault) : Effect := ⟨e.reply call (.failed f), [], []⟩

def prepare (e : Engine) (c : ConnectionId) (clientId : String) (r : Request) :
    Except Fault (SubscriptionId × SourceKey × Engine) :=
  if !e.accepting then .error .shuttingDown
  else if e.isClosed c then .error Trouble.closed
  else match e.setup.catalog.compile r with
    | .error err => .error err.fault
    | .ok compiled =>
      match e.hub.find compiled.sourceKey.provider with
      | .error f => .error f
      | .ok _ =>
        let s : Subscriber := { clientId := clientId, connection := c, compiled := compiled }
        .ok (e.subscribers.length, compiled.sourceKey,
          { e with subscribers := e.subscribers ++ [s] })

def seek (e : Engine) (call : CallId) (s : SubscriptionId) (key : SourceKey) : Effect :=
  let (b, e) := e.bindingFor key
  ⟨e, [.join call b s], []⟩

def enter (e : Engine) (call : CallId) (b : BindingId) (s : SubscriptionId)
    (started : List (List Action)) : Effect :=
  match e.register b s with
  | (.error f, e) => ⟨e.reply call (.failed f), [], started⟩
  | (.ok _, e) =>
    ⟨{ e with deliveries := e.deliveries + 1 }.reply call (.subscribed s), [],
      started ++ [[.deliverNext s]]⟩

def joinBinding (e : Engine) (call : CallId) (b : BindingId) (s : SubscriptionId) : Effect :=
  match e.bindings[b]? with
  | none => ⟨e, [], []⟩
  | some x =>
    match x.phase with
    | .closed => (e.unlist b).seek call s x.key
    | .opened => if e.accepting then e.enter call b s [] else e.fail call .shuttingDown
    | .opening =>
      ⟨e.updateBinding b fun x => { x with locked := true },
        [.openSource call b s (e.now + e.setup.openDelayMs x.key.provider)], []⟩

def openBinding (e : Engine) (call : CallId) (b : BindingId) (s : SubscriptionId) : Effect :=
  match e.bindings[b]? with
  | none => ⟨e, [], []⟩
  | some x =>
    match e.hub.find x.key.provider with
    | .error f => ((e.closeBinding b).unlist b).fail call f
    | .ok p =>
      match e.hub.openConsumer p x.key with
      | (.error err, hub) => (({ e with hub := hub }.closeBinding b).unlist b).fail call err.fault
      | (.ok c, hub) =>
        let e := { e with hub := hub }
        if e.accepting then
          (e.updateBinding b fun x => { x with phase := .opened, locked := false }).enter call b s
            [[.consume b c .news]]
        else
          let e := (e.closeBinding b).unlist b
          { e with hub := e.hub.closeConsumer c }.fail call .shuttingDown

def unsubscribe (e : Engine) (s : SubscriptionId) : Effect :=
  match e.isRegistered s, e.subscribers[s]? with
  | true, some x =>
    let e := ((e.deregister s).endLife s Lifecycle.cancel).detach x.connection s
    ⟨e, x.binding?.toList.map fun b => .leave b s, []⟩
  | _, _ => ⟨e, [], []⟩

def terminate (e : Engine) (s : SubscriptionId) (t : Termination) : Effect :=
  match e.isRegistered s, e.subscribers[s]? with
  | true, some x =>
    let e := ((e.deregister s).endLife s Lifecycle.retire).detach x.connection s
    let e := e.updateSubscriber s fun x => { x with termination? := some t }
    ⟨e, x.binding?.toList.map fun b => .leave b s, []⟩
  | _, _ => ⟨e, [], []⟩

/-- Gives one event to one subscription. A full inbox closes the connection. -/
def schedule (e : Engine) (event : BrokerEvent) (s : SubscriptionId) : Bool × Engine :=
  match e.subscribers[s]? with
  | none => (false, e)
  | some x =>
    if !x.delivering then (false, e)
    else if max e.setup.inboxCapacity 1 ≤ x.inbox.length then
      (false, (e.closeConnection x.connection).2)
    else
      (true, { e.updateSubscriber s (fun x => { x with inbox := x.inbox ++ [event] }) with
        inFlight := e.inFlight + 1 })

def scheduleAll (event : BrokerEvent) : List SubscriptionId → Engine → Nat × Engine
  | [], e => (0, e)
  | s :: rest, e =>
    let (given, e) := e.schedule event s
    let (n, e) := scheduleAll event rest e
    (if given then n + 1 else n, e)

def fanOut (e : Engine) (b : BindingId) (event : BrokerEvent) : Nat × Engine :=
  match e.bindings[b]? with
  | some x =>
    if x.phase = .opened then scheduleAll event (x.members.filter e.isActive) e else (0, e)
  | none => (0, e)

/-- One round of the task of a consumer. When it has been told to stop and an event waits as well,
it stops. -/
def consumeNext (e : Engine) (b : BindingId) (c : ConsumerId) (a : Hub.Awaiting) : Effect :=
  match e.bindings[b]? with
  | none => ⟨e, [], []⟩
  | some x =>
    if x.cancelled then ⟨e, [.closeConsumer c], []⟩
    else
      let (p, hub) := e.hub.poll e.now c a
      let e := { e with hub := hub }
      match p with
      | .event event => ⟨e, [.fanOut none b event, .consume b c .news], []⟩
      | .ended => ⟨e, [.closeConsumer c, .failBinding b], []⟩
      | .failed _ => ⟨e, [.closeConsumer c, .failBinding b], []⟩
      | .pending a => ⟨e, [.consume b c a], []⟩

def empty (e : Engine) (b : BindingId) : List SubscriptionId × Engine :=
  match e.bindings[b]? with
  | none => ([], e)
  | some x =>
    (x.members, (e.updateBinding b fun x => { x with members := [] }).closeBinding b)

def stopFeeding (e : Engine) (ss : List SubscriptionId) : Engine :=
  ss.foldl (fun e s => e.updateSubscriber s fun x => { x with fed := false }) e

/-- The members keep their inboxes until they have been told. -/
def failBinding (e : Engine) (b : BindingId) : Effect :=
  let (members, e) := e.empty b
  ⟨e.unlist b,
    members.flatMap fun s => [.terminate s (some sourceFailed), .releaseInbox s], []⟩

def sweep (e : Engine) (b : BindingId) : Effect :=
  let (members, e) := e.empty b
  ⟨((e.stopFeeding members).cancelBinding b).unlist b,
    members.map fun s => .terminate s none, []⟩

def lastFrames (clientId : String) : Termination → List Frame
  | none => [.complete clientId]
  | some error => [.error clientId [error], .complete clientId]

def doneWith (e : Engine) (n : Nat) : Engine := { e with inFlight := e.inFlight - n }

/-- First whether to stop, then whether to end, then the next event, then whether none can come. -/
def deliverNext (e : Engine) (s : SubscriptionId) : Effect :=
  match e.subscribers[s]? with
  | none => ⟨e, [], []⟩
  | some x =>
    if x.life.stopped then ⟨e, [.endDelivery s], []⟩
    else match x.termination? with
      | some t => ⟨e, (lastFrames x.clientId t).map (fun f => .offer x.connection f (.ending s)) ++
          [.endDelivery s], []⟩
      | none =>
        match x.inbox with
        | event :: rest =>
          let e := e.updateSubscriber s fun x => { x with inbox := rest }
          if x.life.isActive then ⟨e, [.resolve s event], []⟩
          else ⟨e.doneWith 1, [.deliverNext s], []⟩
        | [] => if x.fed then ⟨e, [.deliverNext s], []⟩ else ⟨e, [.endDelivery s], []⟩

def beginResolution (e : Engine) (s : SubscriptionId) (event : BrokerEvent) : Effect :=
  let r := e.resolutions.length
  ⟨{ e with permits := e.permits - 1, resolutions := e.resolutions ++ [⟨s, event, none⟩] },
    [.deliverOutcome s r], [[.runResolver r]]⟩

def runResolver (e : Engine) (r : ResolutionId) : Effect :=
  match e.resolutions[r]? with
  | none => ⟨e, [], []⟩
  | some x =>
    match e.subscribers[x.subscriber]? with
    | none => ⟨e, [], []⟩
    | some y =>
      let w := e.setup.resolve y.compiled x.event.payload
      ⟨{ e with sent := e.sent ++ w.sent?.toList }, [.endResolver r w (e.now + w.takesMs)], []⟩

/-- A resolution that broke down costs its event an error and nothing else. -/
def endResolver (e : Engine) (r : ResolutionId) (w : Work) : Engine :=
  let outcome := w.outcome?.getD (.errors [.concealed])
  { e with
    permits := e.permits + 1
    resolutions := e.resolutions.modify r fun x => { x with outcome? := some outcome } }

def deliverOutcome (e : Engine) (s : SubscriptionId) (r : ResolutionId) : Effect :=
  match e.subscribers[s]?, e.resolutions[r]? with
  | some x, some y =>
    match x.life.isActive, y.outcome? with
    | true, some outcome =>
      ⟨e, [.offer x.connection (.ofOutcome x.clientId outcome) (.event s)], []⟩
    | _, _ => ⟨e.doneWith 1, [.deliverNext s], []⟩
  | _, _ => ⟨e, [], []⟩

def receipt (e : Engine) (r : Except Fault Unit) : Receipt → Effect
  | .ending _ => ⟨e, [], []⟩
  | .event s =>
    match r with
    | .ok _ => ⟨e.doneWith 1, [.deliverNext s], []⟩
    | .error _ => ⟨e.doneWith 1, [.endDelivery s], []⟩
  | .call call =>
    match r with
    | .ok _ => ⟨e.reply call .done, [], []⟩
    | .error f => ⟨e.reply call (.failed f), [], []⟩

def offer (e : Engine) (c : ConnectionId) (f : Frame) (r : Receipt) : Effect :=
  if e.isClosed c then e.receipt (.error Trouble.closed) r
  else ⟨e, [.enqueue c f (e.now + e.setup.graceMs) r], []⟩

def enqueue (e : Engine) (c : ConnectionId) (f : Frame) (r : Receipt) : Effect :=
  match e.connections[c]? with
  | none => e.receipt (.error Trouble.closed) r
  | some x =>
    if !x.read then (e.closeConnection c).2.receipt (.error Trouble.queueGone) r
    else if e.hasRoom x then
      let e := e.updateConnection c fun x => { x with queue := x.queue ++ [f] }
      (if f.isMessage then e.count .messageSent else e).receipt (.ok ()) r
    else (e.closeConnection c).2.receipt (.error Trouble.tooSlow) r

def endDelivery (e : Engine) (s : SubscriptionId) : Engine :=
  match e.subscribers[s]? with
  | none => e
  | some x =>
    let e := e.updateSubscriber s fun x => { x with delivering := false, inbox := [] }
    { e.doneWith x.inbox.length with deliveries := e.deliveries - 1 }

def release (e : Engine) (c : ConnectionId) : Effect :=
  if e.managed.contains c then
    let e := { e with managed := e.managed.filter (· != c) }
    let e := (e.closeConnection c).2
    ⟨e, (e.owned c).map (fun o => .unsubscribe o.1) ++ [.connectionReleased], []⟩
  else ⟨e, [], []⟩

def perform (e : Engine) : Action → Effect
  | .subscribe call c clientId r =>
    match e.prepare c clientId r with
    | .error f => e.fail call f
    | .ok (s, key, e) => e.seek call s key
  | .join call b s => e.joinBinding call b s
  | .openSource call b s _ => e.openBinding call b s
  | .unsubscribe s => e.unsubscribe s
  | .terminate s t => e.terminate s t
  | .leave b s => ⟨e.leave b s, [], []⟩
  | .releaseInbox s => ⟨e.stopFeeding [s], [], []⟩
  | .dispatch call event =>
    match e.bindingFor? event.key with
    | some b => ⟨e, [.fanOut (some call) b event], []⟩
    | none => ⟨e.reply call (.scheduled 0), [], []⟩
  | .fanOut call? b event =>
    let (n, e) := e.fanOut b event
    ⟨match call? with
      | some call => e.reply call (.scheduled n)
      | none => e, [], []⟩
  | .consume b c a => e.consumeNext b c a
  | .closeConsumer c => ⟨{ e with hub := e.hub.closeConsumer c }, [], []⟩
  | .failBinding b => e.failBinding b
  | .deliverNext s => e.deliverNext s
  | .resolve s event => e.beginResolution s event
  | .runResolver r => e.runResolver r
  | .endResolver r w _ => ⟨e.endResolver r w, [], []⟩
  | .deliverOutcome s r => e.deliverOutcome s r
  | .offer c f r => e.offer c f r
  | .enqueue c f _ r => e.enqueue c f r
  | .endDelivery s => ⟨e.endDelivery s, [], []⟩
  | .release c => e.release c
  | .connectionReleased => ⟨e.count .connectionClosed, [], []⟩
  | .releaseAll => ⟨e, e.managed.map .release, []⟩
  | .shutdown drainMs =>
    ⟨{ e with accepting := false }, [.awaitDrain (e.now + drainMs) e.now], []⟩
  | .awaitDrain deadline _ =>
    if e.inFlight = 0 ∨ deadline ≤ e.now then
      ⟨e, [.terminateAll, .sweepAll, .awaitDeliveries], []⟩
    else ⟨e, [.awaitDrain deadline (e.now + pollMs)], []⟩
  | .terminateAll => ⟨e, e.registered.map fun s => .terminate s none, []⟩
  | .sweepAll => ⟨e, e.listed.map fun l => .sweep l.2, []⟩
  | .sweep b => e.sweep b
  | .awaitDeliveries => ⟨e, [.pollDeliveries (e.now + exitGraceMs) e.now], []⟩
  | .pollDeliveries deadline _ =>
    if e.deliveries = 0 ∨ deadline ≤ e.now then ⟨e, [], []⟩
    else ⟨e, [.pollDeliveries deadline (e.now + pollMs)], []⟩
  | .answer call r => ⟨e.reply call r, [], []⟩

end Engine

end SubscriptionGateway
