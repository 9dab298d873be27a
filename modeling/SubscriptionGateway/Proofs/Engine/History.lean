import SubscriptionGateway.Proofs.Engine.Sparing

/-!
What a play tells of: which active members a dispatch has found for an event, whether their inboxes
took it, and which frames have entered a queue. The delivery of a subscription is one action that
waits at any time, and where it stands is read off that action.
-/
namespace SubscriptionGateway

open Broker

inductive Happening where
  /-- A dispatch has found an active member, and its inbox took the event or did not. -/
  | found (s : SubscriptionId) (event : BrokerEvent) (taken : Bool)
  | queued (c : ConnectionId) (f : Frame) (receipt : Engine.Receipt)

namespace Engine

/-- Whose inboxes take an event that is given to one after the other. -/
def given (event : BrokerEvent) : List SubscriptionId → Engine → List (SubscriptionId × Bool)
  | [], _ => []
  | s :: rest, e =>
    let (taken, e) := e.schedule event s
    (s, taken) :: given event rest e

def happenings (e : Engine) : Action → List Happening
  | .fanOut _ b event => (given event (e.targets b) e).map fun t => .found t.1 event t.2
  | .enqueue c f _ receipt => if e.takes c then [.queued c f receipt] else []
  | _ => []

theorem given_who (event : BrokerEvent) (ss : List SubscriptionId) (e : Engine) :
    (given event ss e).map (·.1) = ss := by
  induction ss generalizing e with
  | nil => rfl
  | cons s ss ih => simp [given, ih]

theorem receipt_connections (e : Engine) (result : Except Fault Unit) (r : Receipt) :
    (e.receipt result r).engine.connections = e.connections := by
  cases r <;> cases result <;> rfl

theorem enqueue_taken {e : Engine} {c : ConnectionId} {f : Frame} {r : Receipt}
    (takes : e.takes c = true) :
    ∃ e' : Engine, e.enqueue c f r = e'.receipt (.ok ()) r ∧
      e'.connections = (e.connections.modify c fun x => { x with queue := x.queue ++ [f] }) ∧
      e'.subscribers = e.subscribers := by
  rcases enqueue_cases e c f r with ⟨-, eq⟩ | ⟨refused, -⟩
  · exact ⟨_, eq, rfl, rfl⟩
  · simp [takes] at refused

theorem enqueue_refused {e : Engine} {c : ConnectionId} {f : Frame} {r : Receipt}
    (refused : e.takes c = false) :
    ∃ (e' : Engine) (fault : Fault), e.enqueue c f r = e'.receipt (.error fault) r ∧
      (e' = e ∨ e' = (e.closeConnection c).2) := by
  rcases enqueue_cases e c f r with ⟨takes, -⟩ | ⟨-, outcome⟩
  · simp [takes] at refused
  · exact outcome

/-! ## One subscription -/

/-- The events for which dispatches have found a subscription active, and which were taken. -/
def found (s : SubscriptionId) (log : List Happening) : List (BrokerEvent × Bool) :=
  log.filterMap fun
    | .found a event taken => if a = s then some (event, taken) else none
    | .queued .. => none

def messages (s : SubscriptionId) (log : List Happening) : List (ConnectionId × Frame) :=
  log.filterMap fun
    | .queued c f (.event a) => if a = s ∧ f.isMessage = true then some (c, f) else none
    | .queued c f (.ending a) => if a = s ∧ f.isMessage = true then some (c, f) else none
    | _ => none

inductive Stand where
  | next
  | resolve (event : BrokerEvent)
  | outcome (r : ResolutionId)
  | offer (c : ConnectionId) (f : Frame)
  | enqueue (c : ConnectionId) (f : Frame)
  | done

namespace Action

def stand? (s : SubscriptionId) : Action → Option Stand
  | .deliverNext a => if a = s then some .next else none
  | .resolve a event => if a = s then some (.resolve event) else none
  | .deliverOutcome a r => if a = s then some (.outcome r) else none
  | .offer c f (.event a) => if a = s then some (.offer c f) else none
  | .enqueue c f _ (.event a) => if a = s then some (.enqueue c f) else none
  | .endDelivery a => if a = s then some .done else none
  | _ => none

/-- A message among the last frames that has not entered the queue. -/
def farewell? (s : SubscriptionId) : Action → Option (ConnectionId × Frame)
  | .offer c f (.ending a) => if a = s ∧ f.isMessage = true then some (c, f) else none
  | .enqueue c f _ (.ending a) => if a = s ∧ f.isMessage = true then some (c, f) else none
  | _ => none

end Action

def stands (s : SubscriptionId) (pool : List Action) : List Stand :=
  pool.filterMap (Action.stand? s)

def farewells (s : SubscriptionId) (pool : List Action) : List (ConnectionId × Frame) :=
  pool.filterMap (Action.farewell? s)

def Mute (s : SubscriptionId) (pool : List Action) : Prop :=
  stands s pool = [] ∧ farewells s pool = []

theorem mute_append {s : SubscriptionId} {p q : List Action} (first : Mute s p)
    (second : Mute s q) : Mute s (p ++ q) := by
  simp only [Mute, stands, farewells, List.filterMap_append] at *
  simp [first, second]

theorem found_given {s : SubscriptionId} (event : BrokerEvent) {ts : List (SubscriptionId × Bool)}
    (others : s ∉ ts.map (·.1)) : found s (ts.map fun t => .found t.1 event t.2) = [] := by
  simp only [found, List.filterMap_map, List.filterMap_eq_nil_iff, List.mem_map] at *
  intro t member
  have differ : t.1 ≠ s := fun same => others ⟨t, member, same⟩
  simp [differ]

theorem messages_given {s : SubscriptionId} {event : BrokerEvent}
    (ts : List (SubscriptionId × Bool)) :
    messages s (ts.map fun t => .found t.1 event t.2) = [] := by
  simp only [messages, List.filterMap_map, List.filterMap_eq_nil_iff]
  intro t _
  rfl

theorem happenings_mute {s : SubscriptionId} (e : Engine) (a : Action)
    (stand : a.stand? s = none) (farewell : a.farewell? s = none)
    (untouched : ∀ call? b event, a = .fanOut call? b event → s ∉ e.targets b) :
    found s (e.happenings a) = [] ∧ messages s (e.happenings a) = [] := by
  cases a with
  | fanOut call? b event =>
    refine ⟨found_given event ?_, messages_given _⟩
    rw [given_who]
    exact untouched call? b event rfl
  | enqueue c f due r =>
    simp only [happenings]
    split
    · cases r with
      | call call => exact ⟨rfl, rfl⟩
      | event a =>
        have differ : a ≠ s := by simpa [Action.stand?] using stand
        simp [found, messages, differ]
      | ending a => simpa [found, messages, Action.farewell?] using farewell
    · exact ⟨rfl, rfl⟩
  | _ => exact ⟨rfl, rfl⟩

end Engine

end SubscriptionGateway
