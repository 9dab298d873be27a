/-!
Two ways to wait for the next item of a socket. One waits for items and cancellation together; the
other reads with a deadline and looks at the cancellation before each read only.
-/
namespace SubscriptionGateway.WebSocket

inductive ReadStrategy where
  | evented
  | deadline (ms : Nat)
  deriving DecidableEq, Repr

inductive Readiness (α : Type) where
  | item (value : α)
  | idle
  | closed
  | cancelled
  deriving DecidableEq, Repr

variable {α : Type}

def ReadStrategy.look (strategy : ReadStrategy) (cancelledBefore cancelledNow : Bool)
    (waitedMs : Nat) (news : Option (Readiness α)) : Option (Readiness α) :=
  match strategy with
  | .evented => if cancelledNow then some .cancelled else news
  | .deadline ms =>
    if cancelledBefore then some .cancelled
    else news.or (if ms ≤ waitedMs then some .idle else none)

def ReadStrategy.due? (strategy : ReadStrategy) (since : Nat) : Option Nat :=
  match strategy with
  | .evented => none
  | .deadline ms => some (since + ms)

structure Socket (α : Type) where
  arrivals : List (Nat × α)
  endsAt : Option Nat
  cancelledAt : Option Nat

namespace Socket

def isCancelled (s : Socket α) (now : Nat) : Bool :=
  match s.cancelledAt with
  | some t => t ≤ now
  | none => false

def news (s : Socket α) (now : Nat) : Option (Readiness α) :=
  match s.arrivals with
  | (t, a) :: _ => if t ≤ now then some (.item a) else none
  | [] => match s.endsAt with
    | some t => if t ≤ now then some .closed else none
    | none => none

/-- The times at which the state of a wait begun at `now` can change. -/
def instants (strategy : ReadStrategy) (now : Nat) (s : Socket α) : List Nat :=
  ([some now, (s.arrivals.head?).map (·.1), s.endsAt, s.cancelledAt, strategy.due? now].filterMap
    id).map (max now)

def lookAt (strategy : ReadStrategy) (now : Nat) (s : Socket α) (t : Nat) :
    Option (Readiness α) :=
  strategy.look (s.isCancelled now) (s.isCancelled t) (t - now) (s.news t)

def after (s : Socket α) : Readiness α → Socket α
  | .item _ => { s with arrivals := s.arrivals.tail }
  | _ => s

/-- Outcome of one wait begun at `now`, the time of the outcome and the socket after it; none when
there is no outcome ever. -/
def nextItem (strategy : ReadStrategy) (now : Nat) (s : Socket α) :
    Option (Readiness α × Nat × Socket α) :=
  match ((instants strategy now s).filter fun t => (lookAt strategy now s t).isSome).min? with
  | none => none
  | some t => (lookAt strategy now s t).map fun r => (r, t, s.after r)

end Socket

end SubscriptionGateway.WebSocket
