import SubscriptionGateway.Broker.Hub

/-!
Brokers in time: what is still to happen to them, and a call for the next event that waits for it.
-/
namespace SubscriptionGateway.Broker

structure Timeline where
  now : Nat := 0
  hub : Hub := {}
  later : List (Nat × (Hub → Hub)) := []

namespace Timeline

def insertByTime (x : Nat × (Hub → Hub)) : List (Nat × (Hub → Hub)) → List (Nat × (Hub → Hub))
  | [] => [x]
  | y :: rest => if x.1 < y.1 then x :: y :: rest else y :: insertByTime x rest

def schedule (t : Timeline) (afterMs : Nat) (f : Hub → Hub) : Timeline :=
  { t with later := insertByTime (t.now + afterMs, f) t.later }

def advanceTo (t : Timeline) (time : Nat) : Timeline :=
  let due := t.later.filter fun x => decide (x.1 ≤ time)
  { now := max t.now time
    hub := due.foldl (fun h x => x.2 h) t.hub
    later := t.later.filter fun x => !decide (x.1 ≤ time) }

def wakeAt (t : Timeline) (a : Hub.Awaiting) : Option Nat :=
  match a, t.later with
  | .news, [] => none
  | .news, x :: _ => some x.1
  | .retry r, [] => some r
  | .retry r, x :: _ => some (min r x.1)

def nextFuel : Nat → Nat → ConsumerId → Hub.Awaiting → Timeline → Option Hub.Polled × Timeline
  | 0, _, _, _, t => (none, t)
  | fuel + 1, deadline, id, a, t =>
    match t.hub.poll t.now id a with
    | (.pending a, hub) =>
      let t := { t with hub := hub }
      match t.wakeAt a with
      | none => (none, t.advanceTo deadline)
      | some w =>
        if deadline < w then (none, t.advanceTo deadline)
        else nextFuel fuel deadline id a (t.advanceTo w)
    | (p, hub) => (some p, { t with hub := hub })

/-- The next event of a consumer, or what it comes to; none when the time is up. Every look takes
one of the things to come or one retry. -/
def next (t : Timeline) (id : ConsumerId) (timeout : Nat) : Option Hub.Polled × Timeline :=
  nextFuel (t.later.length + t.hub.pollBudget id + 1) (t.now + timeout) id .news t

end Timeline

end SubscriptionGateway.Broker
