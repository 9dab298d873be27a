import SubscriptionGateway.Engine.Action
import SubscriptionGateway.Scheduling.Machine

/-!
The engine as a machine of tasks, and calls on it.
-/
namespace SubscriptionGateway

namespace Engine

def machine : Machine Engine Action where
  ready := Engine.ready
  inTurn := Action.inTurn
  due? := Action.due?
  perform e a := let r := e.perform a; (r.engine, r.next, r.started)
  now := Engine.now
  setNow e t := { e with now := t }

abbrev World := Running Engine Action

/-- Where a call may be given up: it waits for the lock of a binding, or has it and waits for a
consumer. -/
def Action.suspends : Action → Bool
  | .join .. | .openSource .. => true
  | _ => false

/-- What a call holds is let go when it is given up. -/
def giveUp (e : Engine) : Action → Engine
  | .openSource _ b _ _ => e.updateBinding b fun x => { x with locked := false }
  | _ => e

namespace World

def map (w : World) (f : Engine → Engine) : World := { w with state := f w.state }

def begin (w : World) (task : CallId → List Action) : CallId × World :=
  let (call, e) := w.state.newCall
  (call, ({ w with state := e } : World).spawn (task call))

def finish (w : World) (call : CallId) : Option Reply × World :=
  let w := w.await machine fun e => (e.reply? call).isSome
  (w.state.reply? call, w)

def call (w : World) (task : CallId → List Action) : Option Reply × World :=
  let (call, w) := w.begin task
  w.finish call

def subscribe (c : ConnectionId) (clientId : String) (r : Request) (call : CallId) : List Action :=
  [.subscribe call c clientId r]

def unsubscribe (s : SubscriptionId) (call : CallId) : List Action :=
  [.unsubscribe s, .answer call .done]

def release (c : ConnectionId) (call : CallId) : List Action :=
  [.release c, .answer call .done]

def dispatch (event : Broker.BrokerEvent) (call : CallId) : List Action := [.dispatch call event]

def deliver (c : ConnectionId) (f : Frame) (call : CallId) : List Action :=
  [.offer c f (.call call)]

def shutdown (drainMs : Nat) (call : CallId) : List Action :=
  [.shutdown drainMs, .answer call .done]

def shutdownAll (drainMs : Nat) (call : CallId) : List Action :=
  [.shutdown drainMs, .releaseAll, .answer call .done]

def advance (w : World) (ms : Nat) : World := Running.advance machine w ms

end World

end Engine

end SubscriptionGateway
