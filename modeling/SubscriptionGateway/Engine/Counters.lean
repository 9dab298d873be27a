import SubscriptionGateway.Json.Basic

/-!
Three numbers that tell of the engine from outside, and waiting for one of them: it is looked at
every ten milliseconds, each time before the deadline is.
-/
namespace SubscriptionGateway

structure Counters where
  subscriptions : Nat := 0
  connections : Nat := 0
  messages : Nat := 0
  deriving DecidableEq, Repr

namespace Counters

inductive Change where
  | subscriptionAdded
  | subscriptionRemoved
  | connectionOpened
  | connectionClosed
  | messageSent
  deriving DecidableEq

/-- A number that is nought stays nought when it is lowered. -/
def apply (c : Counters) : Change → Counters
  | .subscriptionAdded => { c with subscriptions := c.subscriptions + 1 }
  | .subscriptionRemoved => { c with subscriptions := c.subscriptions - 1 }
  | .connectionOpened => { c with connections := c.connections + 1 }
  | .connectionClosed => { c with connections := c.connections - 1 }
  | .messageSent => { c with messages := c.messages + 1 }

def json (c : Counters) : Json :=
  .object [("active_subscriptions", .ofNat c.subscriptions),
    ("open_connections", .ofNat c.connections), ("messages_sent", .ofNat c.messages)]

inductive Condition where
  | subscriptions (count : Nat)
  | connections (count : Nat)
  | messages (count : Nat)
  deriving DecidableEq

def meets (c : Counters) : Condition → Bool
  | .subscriptions n => c.subscriptions == n
  | .connections n => c.connections == n
  | .messages n => n ≤ c.messages

def pollInterval : Nat := 10

structure Timeline where
  now : Nat := 0
  counters : Counters := {}
  later : List (Nat × Change) := []

namespace Timeline

/-- The earliest of the changes due, the first put in before the others. -/
def insertBy (x : Nat × Change) : List (Nat × Change) → List (Nat × Change)
  | [] => [x]
  | y :: rest => if x.1 < y.1 then x :: y :: rest else y :: insertBy x rest

def schedule (t : Timeline) (afterMs : Nat) (c : Change) : Timeline :=
  { t with later := insertBy (t.now + afterMs, c) t.later }

def apply (t : Timeline) (c : Change) : Timeline := { t with counters := t.counters.apply c }

def advanceTo (t : Timeline) (time : Nat) : Timeline :=
  let due := t.later.filter (·.1 ≤ time)
  { now := max t.now time
    counters := due.foldl (fun c x => c.apply x.2) t.counters
    later := t.later.filter fun x => !decide (x.1 ≤ time) }

def waitFuel : Nat → Condition → Nat → Timeline → Bool × Timeline
  | 0, _, _, t => (false, t)
  | fuel + 1, c, deadline, t =>
    if t.counters.meets c then (true, t)
    else if deadline ≤ t.now then (false, t)
    else waitFuel fuel c deadline (t.advanceTo (t.now + pollInterval))

/-- Each look but the last brings the deadline ten milliseconds nearer. -/
def waitFor (t : Timeline) (c : Condition) (timeout : Nat) : Bool × Timeline :=
  waitFuel (timeout / pollInterval + 2) c (t.now + timeout) t

end Timeline

end Counters

end SubscriptionGateway
